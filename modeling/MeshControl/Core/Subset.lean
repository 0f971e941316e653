import MeshControl.Fault
import MeshControl.Ordered.Set

/-!
# Sets of cores

Commands for many cores take a `CoreSet`, which files the cores by their chip. Cores are
listed chip by chip and by number within a chip, each once (`CoreSet.cores`).
-/

namespace MeshControl

/-- Some cores of one chip. -/
structure CoreSubset where
  chip : Chip
  processors : OrderedSet UInt8
  exist : ∀ p, processors.contains p = true → Chip.hasCore p = true

namespace CoreSubset

/-- No core of a chip. -/
def none (chip : Chip) : CoreSubset := ⟨chip, .empty, fun _ h => by simp at h⟩

/-- The cores of a chip with the given numbers; the least number without a core is a fault. -/
def ofList (chip : Chip) (numbers : List UInt8) : Except Fault CoreSubset :=
  let processors := OrderedSet.ofList numbers
  match h : processors.toList.find? fun p => !Chip.hasCore p with
  | some p => .error (.configuration (.invalidCore chip.x chip.y p))
  | .none => .ok ⟨chip, processors, fun p hp => by
      have := List.find?_eq_none.1 h p ((processors.mem_toList_iff p).2 hp)
      simpa using this⟩

/-- Add a core by its number. -/
def insert (subset : CoreSubset) (p : UInt8) (h : Chip.hasCore p = true) : CoreSubset :=
  ⟨subset.chip, subset.processors.insert p, fun q hq => by
    rw [OrderedSet.contains_insert] at hq
    by_cases e : p = q
    · exact e ▸ h
    · exact subset.exist q (by simpa [e] using hq)⟩

/-- Add the processors of another subset. -/
def merge (subset other : CoreSubset) : CoreSubset :=
  ⟨subset.chip, subset.processors.insertAll other.processors.toList, fun p hp => by
    rw [OrderedSet.contains_insertAll, Bool.or_eq_true, decide_eq_true_eq] at hp
    exact hp.elim (fun h => other.exist p ((other.processors.mem_toList_iff p).1 h))
      (subset.exist p)⟩

/-- Processor numbers in ascending order. -/
def numbers (subset : CoreSubset) : List UInt8 := subset.processors.toList

/-- Number of cores. -/
def size (subset : CoreSubset) : Nat := subset.processors.size

/-- The cores of the subset, by number. -/
def cores (subset : CoreSubset) : List Core :=
  subset.processors.toList.attach.map fun p =>
    ⟨subset.chip, p.1, subset.exist p.1 ((subset.processors.mem_toList_iff p.1).1 p.2)⟩

end CoreSubset

/-- Cores of several chips, filed by chip. -/
structure CoreSet where
  chips : OrderedMap Chip CoreSubset

namespace CoreSet

/-- No cores. -/
def empty : CoreSet := ⟨.empty⟩

/-- Add one core to those of its chip. -/
def add (set : CoreSet) (core : Core) : CoreSet :=
  let subset := (set.chips.get? core.chip).getD (.none core.chip)
  ⟨set.chips.insert core.chip (subset.insert core.p core.exists_on_chip)⟩

/-- Add a whole subset to the cores of its chip. -/
def addSubset (set : CoreSet) (subset : CoreSubset) : CoreSet :=
  match set.chips.get? subset.chip with
  | some present => ⟨set.chips.insert subset.chip (present.merge subset)⟩
  | none => ⟨set.chips.insert subset.chip subset⟩

/-- The set of the cores of a list. -/
def ofList (cores : List Core) : CoreSet := cores.foldl add empty

/-- The subsets in chip order. -/
def subsets (set : CoreSet) : List CoreSubset := set.chips.values

/-- Every core, chip by chip and by number within a chip. -/
def cores (set : CoreSet) : List Core := set.subsets.flatMap CoreSubset.cores

/-- Number of cores. -/
def size (set : CoreSet) : Nat :=
  set.subsets.foldr (fun subset total => subset.size + total) 0

end CoreSet

end MeshControl
