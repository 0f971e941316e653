import MeshControl.Core.Subset
import MeshControl.Proofs.Ordered.Insertion
import MeshControl.Proofs.Ordered.Split

/-!
# The cores of a set

However a set was built, each of its subsets is filed under its own chip (`CoreSet.Built.filed`). So
its cores are listed in order and none is listed twice (`CoreSet.Filed.cores_ascending`), and the
size of the set is the number of cores that it lists.
-/

namespace MeshControl

theorem Chip.before_iff {a b : Chip} :
    SortKey.before a b = true ↔ a.x < b.x ∨ a.x = b.x ∧ a.y < b.y := by
  show SortKey.pairBefore (a.x, a.y) (b.x, b.y) = true ↔ _
  simp only [SortKey.pairBefore, before_byte, Bool.or_eq_true, Bool.and_eq_true, decide_eq_true_eq]

/-- Cores are in order of their chips, and on one chip in order of their numbers. -/
theorem Core.before_iff {a b : Core} :
    SortKey.before a b = true ↔ SortKey.before a.chip b.chip ∨ a.chip = b.chip ∧ a.p < b.p := by
  show SortKey.pairBefore (a.chip, a.p) (b.chip, b.p) = true ↔ _
  simp only [SortKey.pairBefore, before_byte, Bool.or_eq_true, Bool.and_eq_true, decide_eq_true_eq]

/-- The same by coordinates. -/
theorem Core.lt_of_before {a b : Core} (before : SortKey.before a b = true) :
    a.x < b.x ∨ a.x = b.x ∧ (a.y < b.y ∨ a.y = b.y ∧ a.p < b.p) := by
  rcases Core.before_iff.1 before with chips | ⟨same, number⟩
  · rcases Chip.before_iff.1 chips with column | ⟨column, row⟩
    · exact .inl column
    · exact .inr ⟨column, .inl row⟩
  · exact .inr ⟨congrArg Chip.x same, .inr ⟨congrArg Chip.y same, number⟩⟩

namespace CoreSubset

variable {subset : CoreSubset}

theorem mem_cores {core : Core} :
    core ∈ subset.cores ↔ core.chip = subset.chip ∧ subset.processors.contains core.p = true := by
  rw [← OrderedSet.mem_toList_iff, cores, List.mem_map]
  constructor
  · rintro ⟨⟨p, member⟩, -, rfl⟩
    exact ⟨rfl, member⟩
  · rintro ⟨own, member⟩
    exact ⟨⟨core.p, member⟩, List.mem_attach .., Core.ext own.symm rfl⟩

theorem cores_ascending (subset : CoreSubset) :
    subset.cores.Pairwise fun a b => SortKey.before a b := by
  have numbers : (subset.processors.toList.attach.map Subtype.val).Pairwise
      fun p q => SortKey.before p q := by
    rw [List.attach_map_subtype_val]
    exact subset.processors.members.keys_ascending
  refine List.pairwise_map.2 ((List.pairwise_map.1 numbers).imp ?_)
  intro p q before
  rw [before_byte, decide_eq_true_eq] at before
  exact Core.before_iff.2 (.inr ⟨rfl, before⟩)

theorem length_cores (subset : CoreSubset) : subset.cores.length = subset.size := by
  rw [cores, List.length_map, List.length_attach]
  exact List.length_map _

end CoreSubset

namespace CoreSet

/-- The sets that can be built. -/
inductive Built : CoreSet → Prop where
  | empty : Built .empty
  | add {set : CoreSet} (core : Core) : Built set → Built (set.add core)
  | addSubset {set : CoreSet} (subset : CoreSubset) : Built set → Built (set.addSubset subset)

/-- Subsets are filed under their own chips. -/
def Filed (set : CoreSet) : Prop :=
  ∀ chip subset, set.chips.get? chip = some subset → subset.chip = chip

theorem Filed.insert {set : CoreSet} (filed : Filed set) {chip : Chip} {subset : CoreSubset}
    (own : subset.chip = chip) : Filed ⟨set.chips.insert chip subset⟩ := by
  intro other found lookup
  rw [OrderedMap.get?_insert] at lookup
  split at lookup
  · cases lookup
    rwa [← ‹chip = other›]
  · exact filed other found lookup

theorem Built.filed {set : CoreSet} (built : Built set) : Filed set := by
  induction built with
  | empty => nofun
  | @add set core built ih =>
    apply ih.insert
    show ((set.chips.get? core.chip).getD (.none core.chip)).chip = core.chip
    cases found : set.chips.get? core.chip with
    | none => rfl
    | some subset => exact ih _ _ found
  | @addSubset set subset built ih =>
    rw [CoreSet.addSubset]
    cases found : set.chips.get? subset.chip with
    | none => exact ih.insert rfl
    | some present =>
      have own : present.chip = subset.chip := ih _ _ found
      exact ih.insert own

theorem Built.ofList (cores : List Core) : Built (CoreSet.ofList cores) := by
  suffices folds : ∀ set, Built set → Built (cores.foldl CoreSet.add set) from folds _ .empty
  induction cores with
  | nil => exact fun _ built => built
  | cons core rest ih => exact fun _ built => ih _ (built.add core)

/-- Cores are listed chip by chip, and each chip comes once. -/
theorem Filed.cores_ascending {set : CoreSet} (filed : Filed set) :
    set.cores.Pairwise fun a b => SortKey.before a b := by
  have chips : set.subsets.map CoreSubset.chip = set.chips.keys := by
    rw [subsets, OrderedMap.values, OrderedMap.keys, List.map_map]
    refine List.map_congr_left fun entry member => ?_
    exact filed _ _ ((set.chips.mem_entries_iff _ _).1 member)
  have ordered : (set.subsets.map CoreSubset.chip).Pairwise fun a b => SortKey.before a b :=
    chips ▸ set.chips.keys_ascending
  refine List.pairwise_flatMap.2 ⟨fun subset _ => subset.cores_ascending, ?_⟩
  refine (List.pairwise_map.1 ordered).imp ?_
  intro first second before a early b late
  rw [← (CoreSubset.mem_cores.1 early).1, ← (CoreSubset.mem_cores.1 late).1] at before
  exact Core.before_iff.2 (.inl before)

/-- No core is listed twice. -/
theorem Built.nodup_cores {set : CoreSet} (built : Built set) : set.cores.Nodup :=
  built.filed.cores_ascending.imp fun before => SortKey.ne before

theorem length_cores (set : CoreSet) : set.cores.length = set.size := by
  rw [cores, size]
  induction set.subsets with
  | nil => rfl
  | cons subset rest ih =>
    rw [List.flatMap_cons, List.length_append, List.foldr_cons, ih, subset.length_cores]

end CoreSet

end MeshControl
