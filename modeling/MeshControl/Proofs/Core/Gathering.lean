import MeshControl.Proofs.Core.Subset
import MeshControl.Proofs.Outcome

/-!
# Gathering cores

A set of cores is gathered core by core and subset by subset. Whether it has a core can be looked up
(`CoreSet.contains`), and an addition changes that for the cores it names and for no others
(`Addition.apply_effect`). Main statement: `CoreSet.gather_lists`, a set lists what was added to
it in strict order, whatever the order of the additions and however often each was made.
-/

namespace MeshControl

/-! ## Subsets that are accepted -/

namespace CoreSubset

variable {chip : Chip} {numbers : List UInt8} {subset : CoreSubset}

theorem contains_ofList (p : UInt8) :
    (OrderedSet.ofList numbers).contains p = true ↔ p ∈ numbers := by
  rw [OrderedSet.ofList, OrderedSet.contains_insertAll, OrderedSet.contains_empty, Bool.or_false,
    decide_eq_true_eq]

/-- A subset that is accepted has the numbers that were given. -/
theorem of_ofList (ok : ofList chip numbers = .ok subset) :
    subset.chip = chip ∧ ∀ p, subset.processors.contains p = true ↔ p ∈ numbers := by
  rw [ofList] at ok
  split at ok
  · cases ok
  · cases ok
    exact ⟨rfl, contains_ofList⟩

/-- Numbers are accepted if each is that of a core. -/
theorem exists_ofList_iff (chip : Chip) :
    (∃ subset, ofList chip numbers = .ok subset) ↔ ∀ p ∈ numbers, p ≤ 17 := by
  constructor
  · rintro ⟨subset, ok⟩ p member
    exact Chip.hasCore_iff.1 (subset.exist p (((of_ofList ok).2 p).2 member))
  · intro exist
    rw [ofList]
    split
    · rename_i p found
      have member := List.mem_of_find?_eq_some found
      rw [OrderedSet.mem_toList_iff, contains_ofList] at member
      have missing := List.find?_some found
      rw [Chip.hasCore_iff.2 (exist p member)] at missing
      cases missing
    · exact ⟨_, rfl⟩

end CoreSubset

/-! ## Looking a core up -/

namespace CoreSet

/-- True if a core is in the set. -/
def contains (set : CoreSet) (core : Core) : Bool :=
  (set.chips.get? core.chip).any fun subset => subset.processors.contains core.p

theorem Filed.mem_cores {set : CoreSet} (filed : Filed set) {core : Core} :
    core ∈ set.cores ↔ set.contains core = true := by
  rw [cores, List.mem_flatMap, contains, Option.any_eq_true]
  constructor
  · rintro ⟨subset, listed, member⟩
    obtain ⟨own, has⟩ := CoreSubset.mem_cores.1 member
    obtain ⟨chip, found⟩ := (set.chips.mem_values_iff subset).1 listed
    rw [own, filed chip subset found]
    exact ⟨subset, found, has⟩
  · rintro ⟨subset, found, has⟩
    refine ⟨subset, (set.chips.mem_values_iff subset).2 ⟨_, found⟩, ?_⟩
    exact CoreSubset.mem_cores.2 ⟨(filed _ _ found).symm, has⟩

/-- Setting what is filed under a chip changes the cores of that chip. -/
theorem contains_insert (set : CoreSet) (chip : Chip) (subset : CoreSubset) (probe : Core) :
    contains ⟨set.chips.insert chip subset⟩ probe =
      if chip = probe.chip then subset.processors.contains probe.p else set.contains probe := by
  rw [contains, OrderedMap.get?_insert]
  split
  · rfl
  · rfl

/-- Of a chip for which nothing is filed there are no cores. -/
theorem contains_getD (set : CoreSet) (core : Core) :
    ((set.chips.get? core.chip).getD (.none core.chip)).processors.contains core.p =
      set.contains core := by
  rw [contains]
  cases set.chips.get? core.chip with
  | none => rfl
  | some subset => rfl

theorem contains_add (set : CoreSet) (core probe : Core) :
    (set.add core).contains probe = true ↔ set.contains probe = true ∨ probe = core := by
  rw [add, contains_insert]
  split
  · rename_i same
    have this : probe = core ↔ core.p = probe.p :=
      ⟨fun equal => equal ▸ rfl, fun number => Core.ext same.symm number.symm⟩
    show (((set.chips.get? core.chip).getD (.none core.chip)).processors.insert core.p).contains
      probe.p = true ↔ _
    rw [OrderedSet.contains_insert, same, contains_getD, Bool.or_eq_true, decide_eq_true_eq, this,
      or_comm]
  · rename_i other
    rw [or_iff_left]
    rintro rfl
    exact other rfl

theorem contains_addSubset (set : CoreSet) (subset : CoreSubset) (probe : Core) :
    (set.addSubset subset).contains probe = true ↔
      set.contains probe = true ∨ probe ∈ subset.cores := by
  rw [addSubset, CoreSubset.mem_cores]
  cases found : set.chips.get? subset.chip with
  | none =>
    dsimp only
    rw [contains_insert]
    split
    · rename_i same
      have missing : set.contains probe = false := by
        rw [contains, ← same, found]
        rfl
      simp [missing, same]
    · rename_i other
      rw [or_iff_left fun both => other both.1.symm]
  | some present =>
    dsimp only
    rw [contains_insert]
    split
    · rename_i same
      have own : set.contains probe = present.processors.contains probe.p := by
        rw [contains, ← same, found]
        rfl
      show (present.processors.insertAll subset.processors.toList).contains probe.p = true ↔ _
      rw [OrderedSet.contains_insertAll, own, Bool.or_eq_true, decide_eq_true_eq,
        OrderedSet.mem_toList_iff, and_iff_right same.symm, or_comm]
    · rename_i other
      rw [or_iff_left fun both => other both.1.symm]

end CoreSet

/-! ## Additions one after the other -/

/-- Something that is added to a set of cores. -/
inductive Addition where
  | one (core : Core)
  /-- The cores of a chip with the given numbers, as one subset. -/
  | group (chip : Chip) (numbers : List UInt8)

namespace Addition

/-- The numbers of the addition are those of cores. -/
def Valid : Addition → Prop
  | .one _ => True
  | .group _ numbers => ∀ p ∈ numbers, p ≤ 17

/-- The addition names a core. -/
def Names : Addition → Core → Prop
  | .one core, named => named = core
  | .group chip numbers, named => named.chip = chip ∧ named.p ∈ numbers

/-- Make an addition to a set. -/
def apply (set : CoreSet) : Addition → Except Fault CoreSet
  | .one core => .ok (set.add core)
  | .group chip numbers => (CoreSubset.ofList chip numbers).map set.addSubset

variable {addition : Addition} {set next : CoreSet}

theorem exists_apply_iff (set : CoreSet) :
    (∃ next, addition.apply set = .ok next) ↔ addition.Valid := by
  cases addition with
  | one core => exact iff_of_true ⟨_, rfl⟩ trivial
  | group chip numbers =>
    rw [Valid, ← CoreSubset.exists_ofList_iff chip, apply]
    cases CoreSubset.ofList chip numbers with
    | error fault => exact iff_of_false nofun nofun
    | ok subset => exact iff_of_true ⟨_, rfl⟩ ⟨_, rfl⟩

/-- **One addition**: the set has the cores that it names besides those that it had. -/
theorem apply_effect (built : set.Built) (ok : addition.apply set = .ok next) :
    next.Built ∧ ∀ core, core ∈ next.cores ↔ core ∈ set.cores ∨ addition.Names core := by
  cases addition with
  | one core =>
    cases ok
    have later := built.add core
    refine ⟨later, ?_⟩
    intro probe
    rw [later.filed.mem_cores, CoreSet.contains_add, built.filed.mem_cores, Names]
  | group chip numbers =>
    rw [apply] at ok
    cases accepted : CoreSubset.ofList chip numbers with
    | error fault =>
      rw [accepted] at ok
      cases ok
    | ok subset =>
      rw [accepted] at ok
      cases ok
      obtain ⟨own, has⟩ := CoreSubset.of_ofList accepted
      have later := built.addSubset subset
      refine ⟨later, ?_⟩
      intro probe
      rw [later.filed.mem_cores, CoreSet.contains_addSubset, built.filed.mem_cores,
        CoreSubset.mem_cores, own, has, Names]

end Addition

namespace CoreSet

/-- Collect a list of cores and then make additions. -/
def gather (start : List Core) (additions : List Addition) : Except Fault CoreSet :=
  additions.foldlM Addition.apply (ofList start)

/-- A core is among those that were collected or added. -/
def Gathers (start : List Core) (additions : List Addition) (core : Core) : Prop :=
  core ∈ start ∨ ∃ addition ∈ additions, addition.Names core

theorem mem_cores_ofList (start : List Core) (core : Core) :
    core ∈ (ofList start).cores ↔ core ∈ start := by
  suffices folds : ∀ set : CoreSet, set.Built →
      (core ∈ (start.foldl add set).cores ↔ core ∈ set.cores ∨ core ∈ start) from
    (folds empty .empty).trans (or_iff_right nofun)
  induction start with
  | nil => simp
  | cons first rest ih =>
    intro set built
    have later := built.add first
    rw [List.foldl_cons, ih _ later, later.filed.mem_cores, contains_add, built.filed.mem_cores,
      List.mem_cons, or_assoc]

/-- Induction on the additions, from any set that was built. -/
theorem foldlM_effect {set last : CoreSet} (built : set.Built) {additions : List Addition}
    (ok : additions.foldlM Addition.apply set = .ok last) :
    last.Built ∧ ∀ core, core ∈ last.cores ↔
      core ∈ set.cores ∨ ∃ addition ∈ additions, addition.Names core := by
  induction additions generalizing set with
  | nil =>
    cases ok
    exact ⟨built, by simp⟩
  | cons addition rest ih =>
    rw [List.foldlM_cons] at ok
    obtain ⟨next, first, ok⟩ := exists_of_bind_eq_ok ok
    obtain ⟨builtNext, has⟩ := addition.apply_effect built first
    obtain ⟨builtLast, hasLast⟩ := ih builtNext ok
    refine ⟨builtLast, ?_⟩
    intro core
    rw [hasLast, has, or_assoc]
    simp only [List.mem_cons, exists_eq_or_imp]

theorem exists_foldlM_iff {set : CoreSet} {additions : List Addition} :
    (∃ last, additions.foldlM Addition.apply set = .ok last) ↔
      ∀ addition ∈ additions, addition.Valid := by
  induction additions generalizing set with
  | nil => exact iff_of_true ⟨set, rfl⟩ nofun
  | cons addition rest ih =>
    rw [List.foldlM_cons, List.forall_mem_cons, ← Addition.exists_apply_iff set]
    cases addition.apply set with
    | error fault => exact iff_of_false nofun nofun
    | ok next => exact ih.trans (and_iff_right ⟨next, rfl⟩).symm

/-! ## What is listed -/

/-- A set has the wanted cores and lists them in strict order. -/
structure Lists (wanted : Core → Prop) (set : CoreSet) : Prop where
  mem_cores : ∀ core, core ∈ set.cores ↔ wanted core
  /-- By column, then by row and then by number, -/
  ascending : set.cores.Pairwise fun a b =>
    a.x < b.x ∨ a.x = b.x ∧ (a.y < b.y ∨ a.y = b.y ∧ a.p < b.p)
  /-- so that none comes twice. -/
  nodup : set.cores.Nodup
  exist : ∀ core ∈ set.cores, core.p ≤ 17
  size_eq : set.size = set.cores.length
  size_sum : set.size = set.subsets.foldr (fun subset total => subset.numbers.length + total) 0
  filed : ∀ chip subset, set.chips.get? chip = some subset → subset.chip = chip

variable {start start' : List Core} {additions others : List Addition} {set other : CoreSet}

theorem Built.lists (built : set.Built) : Lists (· ∈ set.cores) set where
  mem_cores _ := Iff.rfl
  ascending := built.filed.cores_ascending.imp Core.lt_of_before
  nodup := built.nodup_cores
  exist core _ := Chip.hasCore_iff.1 core.exists_on_chip
  size_eq := set.length_cores.symm
  size_sum := by
    have sizes : ∀ subset : CoreSubset, subset.size = subset.numbers.length :=
      fun subset => (List.length_map _).symm
    simp only [size, sizes]
  filed := built.filed

/-- The list is determined by the cores that are wanted. -/
theorem Lists.cores_eq {wanted : Core → Prop} (first : Lists wanted set)
    (second : Lists wanted other) : set.cores = other.cores := by
  have same : set.cores.Perm other.cores := by
    refine (List.perm_ext_iff_of_nodup first.nodup second.nodup).2 ?_
    intro core
    rw [first.mem_cores, second.mem_cores]
  refine same.eq_of_pairwise ?_ (Filed.cores_ascending first.filed)
    (Filed.cores_ascending second.filed)
  intro a b _ _ before after
  exact absurd (SortKey.trans before after) (SortKey.irrefl a)

theorem lists_of_gather (ok : gather start additions = .ok set) :
    Lists (Gathers start additions) set := by
  obtain ⟨built, has⟩ := foldlM_effect (.ofList start) ok
  refine { built.lists with mem_cores := ?_ }
  intro core
  rw [has, mem_cores_ofList, Gathers]

/-- **What was added is listed, in strict order.** Additions are accepted if the numbers that they
give are those of cores. A set that is collected from a list, empty or not, and to which they are
then made has the cores that were collected or added: it lists each of them once, ascending, and
counts them. The order of the list and of the additions, and how often something comes in them, does
not show in what the set lists. -/
theorem gather_lists (start : List Core) (additions : List Addition) :
    ((∃ set, gather start additions = .ok set) ↔ ∀ addition ∈ additions, addition.Valid) ∧
      ∀ set, gather start additions = .ok set →
        Lists (Gathers start additions) set ∧
          ∀ start' others, (∀ core, core ∈ start' ↔ core ∈ start) →
            (∀ addition, addition ∈ others ↔ addition ∈ additions) →
              ∃ other, gather start' others = .ok other ∧ other.cores = set.cores := by
  refine ⟨exists_foldlM_iff, ?_⟩
  intro set ok
  have lists := lists_of_gather ok
  refine ⟨lists, ?_⟩
  intro start' others cores same
  have accepted : ∀ addition ∈ others, addition.Valid := by
    intro addition member
    exact exists_foldlM_iff.1 ⟨set, ok⟩ addition ((same addition).1 member)
  obtain ⟨other, otherOk⟩ := exists_foldlM_iff.2 accepted
  refine ⟨other, otherOk, ?_⟩
  have wanted : Gathers start' others = Gathers start additions := by
    funext core
    simp only [Gathers, cores, same]
  have otherLists := lists_of_gather otherOk
  rw [wanted] at otherLists
  exact otherLists.cores_eq lists

/-- A group with a number twice, an empty one for another chip, and a core of a third. -/
def mixed : List Addition :=
  [.group ⟨1, 0⟩ [17, 1, 17], .group ⟨2, 2⟩ [], .one ⟨⟨0, 5⟩, 2, Chip.hasCore_two⟩]

/-- The group joins a core of its chip. Made backwards and then once more, the additions leave the
same cores. -/
theorem gather_lists_mixed :
    ∃ set, gather [⟨⟨1, 0⟩, 3, rfl⟩] mixed = .ok set ∧
      (set.cores.map fun core => (core.x, core.y, core.p)) =
        [(0, 5, 2), (1, 0, 1), (1, 0, 3), (1, 0, 17)] ∧
      set.size = set.cores.length ∧
      ∃ other, gather [⟨⟨1, 0⟩, 3, rfl⟩, ⟨⟨1, 0⟩, 3, rfl⟩] (mixed.reverse ++ mixed) = .ok other ∧
        other.cores = set.cores := by
  obtain ⟨lists, reordered⟩ := (gather_lists [⟨⟨1, 0⟩, 3, rfl⟩] mixed).2 _ rfl
  refine ⟨_, rfl, by decide, lists.size_eq, ?_⟩
  refine reordered _ _ ?_ ?_
  · simp
  · simp

end CoreSet

end MeshControl
