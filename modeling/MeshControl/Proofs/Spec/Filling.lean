import Mathlib.Data.List.Nodup
import MeshControl.Proofs.Spec.Writing

/-!
# Specifications that fill regions

A host writes a specification in one way: it declares the regions, then fills them one after
the other. `Writer.Holds` keeps track of what each region has received, and a specification
that gives no region too much executes to exactly that (`Writer.Holds.execute`).
-/

namespace MeshControl

/-! ## Regions by number -/

namespace Region

variable {regions : List Region} {region : Region} {id : RegionId}

theorem mem_of_find? (found : (regions.find? fun other => other.id = id) = some region) :
    region ∈ regions ∧ region.id = id := by
  have matching := List.find?_some found
  exact ⟨List.mem_of_find?_eq_some found, of_decide_eq_true matching⟩

/-- Among regions of different numbers, one is found by its own. -/
theorem find?_of_mem (distinct : (regions.map Region.id).Nodup) (member : region ∈ regions) :
    (regions.find? fun other => other.id = region.id) = some region := by
  cases found : regions.find? fun other => other.id = region.id with
  | none => exact absurd (decide_eq_true rfl) (List.find?_eq_none.1 found region member)
  | some other =>
    obtain ⟨listed, same⟩ := mem_of_find? found
    rw [List.inj_on_of_nodup_map distinct listed member same]

end Region

namespace Spec

/-- An execution has the images of some regions, with the contents given for each. -/
def Execution.Fills (execution : Execution) (regions : List Region)
    (contents : RegionId → Bytes) : Prop :=
  ∀ id, execution.image? id = (regions.find? fun region => region.id = id).map fun region =>
    ⟨{ region with label := Progress.plainLabel region.id }, contents region.id⟩

section Fills

variable {execution : Execution} {regions : List Region} {contents : RegionId → Bytes}

theorem Execution.Fills.image?_of_mem (fills : execution.Fills regions contents)
    (distinct : (regions.map Region.id).Nodup) {region : Region} (member : region ∈ regions) :
    execution.image? region.id =
      some ⟨{ region with label := Progress.plainLabel region.id }, contents region.id⟩ := by
  rw [fills, Region.find?_of_mem distinct member, Option.map_some]

theorem Execution.Fills.exists_region (fills : execution.Fills regions contents) {id : RegionId}
    {image : Image} (found : execution.image? id = some image) :
    ∃ region ∈ regions, region.id = id ∧
      image = ⟨{ region with label := Progress.plainLabel region.id }, contents region.id⟩ := by
  rw [fills] at found
  obtain ⟨region, listed, rfl⟩ := Option.map_eq_some_iff.1 found
  obtain ⟨member, named⟩ := Region.mem_of_find? listed
  exact ⟨region, member, named, rfl⟩

/-- Regions that are listed by number have their images in the same order. -/
theorem Execution.Fills.values (fills : execution.Fills regions contents)
    (ascending : regions.Pairwise fun a b => SortKey.before a.id b.id) :
    execution.images.values = regions.map fun region =>
      ⟨{ region with label := Progress.plainLabel region.id }, contents region.id⟩ := by
  have distinct : (regions.map Region.id).Nodup :=
    List.pairwise_map.2 (ascending.imp SortKey.ne)
  have entries : execution.images.entries = regions.map fun region => (region.id,
      ⟨{ region with label := Progress.plainLabel region.id }, contents region.id⟩) := by
    apply OrderedMap.eq_of_ascending execution.images.ascending
    · rw [List.pairwise_map]
      exact ascending
    · rintro ⟨id, image⟩
      rw [OrderedMap.mem_entries_iff, List.mem_map]
      constructor
      · intro found
        obtain ⟨region, member, rfl, rfl⟩ := fills.exists_region found
        exact ⟨region, member, rfl⟩
      · rintro ⟨region, member, same⟩
        cases same
        exact fills.image?_of_mem distinct member
  rw [OrderedMap.values, entries, List.map_map]
  rfl

end Fills

namespace Writer

/-- The regions of a writer, and the bytes that each of them has received. -/
def Holds (writer : Writer) (regions : List Region) (contents : RegionId → Bytes) : Prop :=
  ∃ draft : Draft, draft.InStep writer ∧ draft.regions = regions ∧
    ∀ id, draft.dataOf id = contents id

/-- An accepted call succeeds. -/
theorem exists_of_accepts {draft : Draft} {writer : Writer} (agree : draft.InStep writer)
    {call : Call} (accepted : draft.Accepts call) :
    ∃ next, writer.call call = .ok next ∧ (draft.add call).InStep next := by
  obtain ⟨next, made, -⟩ := (agree.written.call call).1 accepted
  have step := agree.attempt call
  rw [Draft.attempt, if_pos accepted, Writer.attempt, made] at step
  exact ⟨next, made, step⟩

theorem Holds.comment {writer : Writer} {regions : List Region} {contents : RegionId → Bytes}
    (holds : writer.Holds regions contents) (text : String) :
    (writer.comment text).Holds regions contents := by
  obtain ⟨draft, agree, same, data⟩ := holds
  have accepted : draft.Accepts (.comment text) := trivial
  obtain ⟨next, made, step⟩ := exists_of_accepts agree accepted
  cases made
  exact ⟨_, step, same, data⟩

/-- Regions of different numbers can be declared together. -/
theorem Holds.reserveAll {regions : List Region}
    (small : ∀ region ∈ regions, region.id.toNat < 16)
    (distinct : (regions.map Region.id).Nodup) :
    ∃ next, regions.foldlM reserve empty = .ok next ∧ next.Holds regions fun _ => [] := by
  have goOn : ∀ (later : List Region) (draft : Draft) (writer : Writer), draft.InStep writer →
      (∀ region ∈ later, region.id.toNat < 16) →
      ((draft.regions ++ later).map Region.id).Nodup → (∀ id, draft.dataOf id = []) →
      ∃ next, later.foldlM reserve writer = .ok next ∧
        next.Holds (draft.regions ++ later) fun _ => [] := by
    intro later
    induction later with
    | nil =>
      intro draft writer agree _ _ empty
      exact ⟨writer, rfl, draft, agree, (List.append_nil _).symm, empty⟩
    | cons region later ih =>
      intro draft writer agree small distinct empty
      have undeclared : draft.region? region.id = none := by
        rw [Draft.region?, List.find?_eq_none]
        intro other member same
        rw [List.map_append, List.nodup_append] at distinct
        exact distinct.2.2 _ (List.mem_map_of_mem member) _
          (List.mem_map_of_mem (List.mem_cons_self ..)) (of_decide_eq_true same)
      have accepted : draft.Accepts (.reserve region) :=
        ⟨small region (List.mem_cons_self ..), undeclared⟩
      obtain ⟨next, made, step⟩ := exists_of_accepts agree accepted
      have whole : (draft.add (.reserve region)).regions ++ later =
          draft.regions ++ region :: later := by
        rw [Draft.add, List.append_assoc]
        rfl
      have rest := ih (draft.add (.reserve region)) next step
        (fun other member => small other (List.mem_cons_of_mem _ member))
        (by rw [whole]; exact distinct) empty
      rw [whole] at rest
      obtain ⟨last, ran, holds⟩ := rest
      refine ⟨last, ?_, holds⟩
      rw [List.foldlM_cons]
      have reserved : writer.reserve region = .ok next := made
      rw [reserved]
      exact ran
  exact goOn regions .blank .empty .blank small distinct fun _ => rfl

variable {writer : Writer} {regions : List Region} {contents : RegionId → Bytes}

/-- A declared region can be given focus. -/
theorem Holds.switchFocus (holds : writer.Holds regions contents) {id : RegionId}
    (declared : id ∈ regions.map Region.id) :
    ∃ next, writer.switchFocus id = .ok next ∧ next.focus = some id ∧
      next.Holds regions contents := by
  obtain ⟨draft, agree, rfl, data⟩ := holds
  have accepted : draft.Accepts (.focus id) := by
    show draft.region? id ≠ none
    rw [Draft.region?, ne_eq, List.find?_eq_none]
    intro absent
    obtain ⟨region, member, same⟩ := List.mem_map.1 declared
    exact absent region member (decide_eq_true same)
  obtain ⟨next, made, step⟩ := exists_of_accepts agree accepted
  exact ⟨next, made, step.written.focus, _, step, rfl, data⟩

/-- An array goes to the region in focus. -/
theorem Holds.writeArray (holds : writer.Holds regions contents) {id : RegionId}
    (focus : writer.focus = some id) {words : List UInt32} (short : words.length < 2 ^ 32) :
    ∃ next, writer.writeArray words = .ok next ∧
      next.Holds regions fun other =>
        contents other ++ if id = other then Bytes.ofWords words else [] := by
  obtain ⟨draft, agree, same, data⟩ := holds
  have target : draft.focus = some id := agree.written.focus.symm.trans focus
  have accepted : draft.Accepts (.array words) :=
    ⟨by rw [target]; exact Option.some_ne_none _, short⟩
  obtain ⟨next, made, step⟩ := exists_of_accepts agree accepted
  refine ⟨next, made, _, step, same, ?_⟩
  intro other
  have stored : Bytes.ofWords words = words.flatMap fun value => littleEndian 4 value.toNat :=
    congrArg (fun bytes => words.flatMap bytes) (funext ofWord_eq_littleEndian)
  rw [Draft.add, Draft.dataOf_store, data, target, stored]
  dsimp only
  by_cases here : id = other
  · rw [if_pos here, if_pos (congrArg some here)]
  · rw [if_neg here, if_neg fun e => here (Option.some.inj e)]

/-- Focus and an array fill a region. -/
theorem Holds.fill (holds : writer.Holds regions contents) {id : RegionId}
    (declared : id ∈ regions.map Region.id) {words : List UInt32} (short : words.length < 2 ^ 32) :
    ∃ next, (writer.switchFocus id >>= fun focused => focused.writeArray words) = .ok next ∧
      next.Holds regions fun other =>
        contents other ++ if id = other then Bytes.ofWords words else [] := by
  obtain ⟨focused, switched, focus, holds⟩ := holds.switchFocus declared
  obtain ⟨next, wrote, holds⟩ := holds.writeArray focus short
  refine ⟨next, ?_, holds⟩
  rw [switched]
  exact wrote

/-- **Regions that were not given too much execute to what they were given.** -/
theorem Holds.execute (holds : writer.Holds regions contents)
    (fits : ∀ region ∈ regions, (contents region.id).length ≤ region.size.toNat) :
    ∃ execution, writer.finish.execute = .ok execution ∧ execution.Fills regions contents := by
  obtain ⟨draft, agree, rfl, data⟩ := holds
  have room : ∀ region, ¬ draft.Overflows region := by
    rintro region ⟨found, length⟩
    have := fits region (List.mem_of_find?_eq_some found)
    rw [data] at length
    omega
  obtain ⟨execution, executed, images, -⟩ := agree.execute_of_fits room
  refine ⟨execution, executed, ?_⟩
  intro id
  rw [images, Draft.image?, data, Draft.region?]
  cases found : draft.regions.find? fun region => region.id = id with
  | none => rfl
  | some region =>
    rw [Option.map_some, Option.map_some, (Region.mem_of_find? found).2]

end Writer

end Spec

end MeshControl
