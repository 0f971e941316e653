import Mathlib.Data.List.TakeWhile
import Mathlib.Logic.Function.Basic
import MeshControl.Machine.Basic
import MeshControl.Proofs.Action
import MeshControl.TagLoading

/-!
# What loading tags leaves in the table

Once its tags are checked, a load is a plan of requests to the board, which ends at the first that
the board refuses (`TagRequest.runOn_forM_perform`). A request that is granted settles what its own
slot holds, and no other. Every managed slot is cleared first, so in the end it holds the last tag
that was set for it, whatever was there before.

Main statement: `loadTags_effect`.
-/

namespace MeshControl

/-! ## Checking -/

/-- What is wrong with a tag in a slot: the slot is none of the seven that the host manages, or
nobody said which board holds it. -/
def TagSlot.objection? (slot : TagSlot) (board : Option IpAddress) : Option Fault :=
  if 7 ≤ slot.toNat then some (.configuration (.invalidTag slot))
  else if board = none then some (.configuration (.tagAddressMissing slot))
  else none

/-- The first objection to some tags and reverse tags, in this order. -/
def firstObjection? (tags : List IpTag) (reverseTags : List ReverseTag) : Option Fault :=
  (tags.map (fun tag => (tag.slot, tag.board)) ++
    reverseTags.map fun tag => (tag.slot, tag.board)).findSome? fun tag => tag.1.objection? tag.2

theorem TagSlot.isManaged_iff (slot : TagSlot) : slot.isManaged = true ↔ slot.toNat < 7 :=
  decide_eq_true_iff

theorem TagSlot.validate_eq (slot : TagSlot) (board : Option IpAddress) :
    slot.validate board = (slot.objection? board).elim (.ok ()) .error := by
  unfold validate objection?
  by_cases managed : slot.toNat < 7
  · rw [if_pos (slot.isManaged_iff.2 managed), if_neg (Nat.not_le.2 managed)]
    cases board <;> rfl
  · rw [if_neg (mt slot.isManaged_iff.1 managed), if_pos (Nat.not_lt.1 managed)]
    rfl

/-- Checks in turn answer with the first objection. -/
theorem forM_check_eq {α : Type} {check : α → Except Fault Unit} {objection? : α → Option Fault}
    (same : ∀ element, check element = (objection? element).elim (.ok ()) .error) (list : List α) :
    list.forM check = (list.findSome? objection?).elim (.ok ()) .error := by
  induction list with
  | nil => rfl
  | cons element rest ih =>
    show (check element >>= fun _ => rest.forM check) = _
    rw [same, List.findSome?_cons]
    cases objection? element with
    | none => exact ih
    | some fault => rfl

theorem checkTags_eq (tags : List IpTag) (reverseTags : List ReverseTag) :
    checkTags tags reverseTags = (firstObjection? tags reverseTags).elim (.ok ()) .error := by
  have first := forM_check_eq (fun tag : IpTag => tag.slot.validate_eq tag.board) tags
  have second := forM_check_eq (fun tag : ReverseTag => tag.slot.validate_eq tag.board) reverseTags
  rw [checkTags, first, second, firstObjection?, List.findSome?_append, List.findSome?_map,
    List.findSome?_map]
  show _ = Option.elim (Option.or (tags.findSome? fun tag => tag.slot.objection? tag.board) _) _ _
  cases tags.findSome? fun tag => tag.slot.objection? tag.board <;> rfl

/-- Tags to which there is no objection are in managed slots. -/
theorem lt_of_firstObjection?_eq_none {tags : List IpTag} {reverseTags : List ReverseTag}
    (none : firstObjection? tags reverseTags = none) :
    (∀ tag ∈ tags, tag.slot.toNat < 7) ∧ ∀ tag ∈ reverseTags, tag.slot.toNat < 7 := by
  have fine : ∀ slot board, (slot, board) ∈ tags.map (fun tag => (tag.slot, tag.board)) ++
      reverseTags.map (fun tag => (tag.slot, tag.board)) → slot.toNat < 7 := by
    intro slot board member
    have passes := List.findSome?_eq_none_iff.1 none _ member
    by_contra large
    rw [TagSlot.objection?, if_pos (Nat.not_lt.1 large)] at passes
    cases passes
  constructor
  · intro tag member
    exact fine _ _ (List.mem_append_left _ (List.mem_map_of_mem member))
  · intro tag member
    exact fine _ _ (List.mem_append_right _ (List.mem_map_of_mem member))

/-! ## Requests to the board -/

/-- What a slot holds: a tag, a reverse tag, both if they were left there, or nothing. -/
abbrev HeldTags := Option IpTag × Option ReverseTag

/-- What the board of a machine holds in a slot. -/
def Machine.heldIn (machine : Machine) (slot : TagSlot) : HeldTags :=
  (machine.ipTags.get? slot, machine.reverseTags.get? slot)

/-- A request to the board. -/
inductive TagRequest where
  | clear (slot : TagSlot)
  | set (tag : IpTag)
  | setReverse (tag : ReverseTag)

namespace TagRequest

/-- The slot that the request is for. -/
def slot : TagRequest → TagSlot
  | .clear slot => slot
  | .set tag => tag.slot
  | .setReverse tag => tag.slot

/-- What its slot holds once the request is granted. -/
def leaves : TagRequest → HeldTags
  | .clear _ => (none, none)
  | .set tag => (some tag, none)
  | .setReverse tag => (none, some tag)

/-- The entry of the request in the log. -/
def operation : TagRequest → Machine.Operation
  | .clear slot => .clearTag slot
  | .set tag => .setIpTag tag.slot
  | .setReverse tag => .setReverseTag tag.slot

/-- The fault if the board refuses the request. -/
def refusal : TagRequest → Fault
  | .clear slot => .transport s!"board refused to clear tag {slot}"
  | .set tag => .transport s!"board refused IP tag {tag.slot}"
  | .setReverse tag => .transport s!"board refused reverse IP tag {tag.slot}"

/-- Make the request. -/
def perform {σ : Type} [Transport σ] : TagRequest → Action σ Unit
  | .clear slot => Transport.clearTag slot
  | .set tag => Transport.setIpTag tag
  | .setReverse tag => Transport.setReverseTag tag

/-- The table after some requests that were granted. -/
def settle (held : TagSlot → HeldTags) (requests : List TagRequest) : TagSlot → HeldTags :=
  requests.foldl (fun held request => Function.update held request.slot request.leaves) held

/-- The requests of a load: every managed slot is cleared, then the tags are set and then the
reverse tags. -/
def plan (tags : List IpTag) (reverseTags : List ReverseTag) : List TagRequest :=
  [0, 1, 2, 3, 4, 5, 6].map clear ++ tags.map set ++ reverseTags.map setReverse

/-- The requests that a machine grants, up to the first that it refuses. -/
def granted (machine : Machine) (requests : List TagRequest) : List TagRequest :=
  requests.takeWhile fun request => !machine.refusesTag request.slot

/-- The first request that a machine refuses. -/
def refused? (machine : Machine) (requests : List TagRequest) : Option TagRequest :=
  requests.find? fun request => machine.refusesTag request.slot

/-- What requests in turn have done, up to the first that was refused. -/
structure Carried (machine : Machine) (requests : List TagRequest)
    (ran : Except Fault Unit × Machine) : Prop where
  /-- The fault is that of the request that was refused. -/
  answer : ran.1 = (refused? machine requests).elim (.ok ()) fun request => .error request.refusal
  log : ran.2.log = machine.log ++
    (granted machine requests ++ (refused? machine requests).toList).map operation
  held : ran.2.heldIn = settle machine.heldIn (granted machine requests)
  /-- Nothing but the tables and the log has changed. -/
  rest : ran.2 = { machine with
    history := ran.2.history, ipTags := ran.2.ipTags, reverseTags := ran.2.reverseTags }

theorem runOn_perform_of_refused {request : TagRequest} {machine : Machine}
    (refused : machine.refusesTag request.slot = true) :
    request.perform.runOn machine = (.error request.refusal, machine.logged request.operation) := by
  cases request with
  | clear slot => exact if_pos (Bool.or_eq_true_iff.2 (.inr refused))
  | set tag => exact if_pos refused
  | setReverse tag => exact if_pos refused

/-- **A request that is granted** settles what its slot holds, and no other. -/
theorem runOn_perform_of_granted {request : TagRequest} {machine : Machine}
    (granted : machine.refusesTag request.slot = false) (managed : request.slot.toNat < 7) :
    ∃ ipTags reverseTags, request.perform.runOn machine =
        (.ok (), { machine.logged request.operation with ipTags, reverseTags }) ∧
      (fun slot => (ipTags.get? slot, reverseTags.get? slot)) =
        Function.update machine.heldIn request.slot request.leaves := by
  have permitted := Bool.eq_false_iff.1 granted
  simp only [Function.eq_update_iff]
  cases request with
  | clear slot =>
    have clears : ¬ (!slot.isManaged || machine.refusesTag slot) = true := by
      rw [Bool.or_eq_true_iff, Bool.not_eq_true', slot.isManaged_iff.2 managed]
      exact not_or.2 ⟨Bool.noConfusion, permitted⟩
    refine ⟨machine.ipTags.erase slot, machine.reverseTags.erase slot, if_neg clears, ?_, ?_⟩
    · simp [OrderedMap.get?_erase, TagRequest.slot, leaves]
    · intro other different
      have elsewhere : ¬ slot = other := Ne.symm different
      simp [OrderedMap.get?_erase, elsewhere, Machine.heldIn]
  | set tag =>
    refine ⟨machine.ipTags.insert tag.slot tag, machine.reverseTags.erase tag.slot,
      if_neg permitted, ?_, ?_⟩
    · simp [OrderedMap.get?_erase, TagRequest.slot, leaves]
    · intro other different
      have elsewhere : ¬ tag.slot = other := Ne.symm different
      simp [OrderedMap.get?_erase, OrderedMap.get?_insert, elsewhere, Machine.heldIn]
  | setReverse tag =>
    refine ⟨machine.ipTags.erase tag.slot, machine.reverseTags.insert tag.slot tag,
      if_neg permitted, ?_, ?_⟩
    · simp [OrderedMap.get?_erase, TagRequest.slot, leaves]
    · intro other different
      have elsewhere : ¬ tag.slot = other := Ne.symm different
      simp [OrderedMap.get?_erase, OrderedMap.get?_insert, elsewhere, Machine.heldIn]

/-- **Requests in turn.** -/
theorem runOn_forM_perform {requests : List TagRequest}
    (managed : ∀ request ∈ requests, request.slot.toNat < 7) (machine : Machine) :
    Carried machine requests ((requests.forM perform).runOn machine) := by
  induction requests generalizing machine with
  | nil => exact ⟨rfl, (List.append_nil _).symm, rfl, rfl⟩
  | cons request rest ih =>
    rw [Action.runOn_forM_cons, Action.runOn_bind]
    cases refused : machine.refusesTag request.slot with
    | true =>
      have stops : refused? machine (request :: rest) = some request :=
        List.find?_cons_of_pos refused
      have none : granted machine (request :: rest) = [] :=
        List.takeWhile_cons_of_neg (by simp [refused])
      rw [runOn_perform_of_refused refused]
      refine ⟨by rw [stops]; rfl, ?_, by rw [none]; rfl, rfl⟩
      rw [stops, none]
      exact List.reverse_cons ..
    | false =>
      have goesOn : refused? machine (request :: rest) = refused? machine rest :=
        List.find?_cons_of_neg (by simp [refused])
      have first : granted machine (request :: rest) = request :: granted machine rest :=
        List.takeWhile_cons_of_pos (by simp [refused])
      obtain ⟨ipTags, reverseTags, ran, settled⟩ :=
        runOn_perform_of_granted refused (managed request (List.mem_cons_self ..))
      rw [ran]
      let next : Machine := { machine.logged request.operation with ipTags, reverseTags }
      -- the board refuses the same slots as before
      have later : Carried next rest ((rest.forM perform).runOn next) :=
        ih (fun other member => managed other (List.mem_cons_of_mem _ member)) next
      have log : next.log = machine.log ++ [request.operation] := List.reverse_cons ..
      constructor
      · rw [goesOn]
        exact later.answer
      · rw [goesOn, first]
        refine later.log.trans ?_
        rw [log, List.append_assoc]
        rfl
      · rw [first]
        refine later.held.trans ?_
        exact congrArg (settle · (granted machine rest)) settled
      · exact later.rest

/-- What a slot holds after some requests is up to the last of them that was for it. -/
theorem settle_apply (held : TagSlot → HeldTags) (requests : List TagRequest) (slot : TagSlot) :
    settle held requests slot =
      ((requests.filter fun request => request.slot = slot).getLast?).elim (held slot) leaves := by
  induction requests generalizing held with
  | nil => rfl
  | cons request rest ih =>
    refine (ih _).trans ?_
    dsimp only
    by_cases same : request.slot = slot
    · rw [List.filter_cons_of_pos (by simpa using same), List.getLast?_cons, same,
        Function.update_self]
      cases (rest.filter fun request => request.slot = slot).getLast? <;> rfl
    · rw [List.filter_cons_of_neg (by simpa using same), Function.update_of_ne (Ne.symm same)]

/-- A load carries out its plan once its tags are checked. -/
theorem loadTags_eq {σ : Type} [Transport σ] (tags : List IpTag) (reverseTags : List ReverseTag) :
    (loadTags tags reverseTags : Action σ Unit) =
      (Action.ofExcept (checkTags tags reverseTags) >>= fun _ =>
        (plan tags reverseTags).forM perform) := by
  have slots : TagSlot.managed = [0, 1, 2, 3, 4, 5, 6] := by decide
  simp only [loadTags, slots, plan, List.forM_eq_forM, List.forM_append, List.forM_map, perform,
    bind_assoc]

theorem slot_lt_of_mem_plan {tags : List IpTag} {reverseTags : List ReverseTag}
    (none : firstObjection? tags reverseTags = none) :
    ∀ request ∈ plan tags reverseTags, request.slot.toNat < 7 := by
  obtain ⟨managed, managedReverse⟩ := lt_of_firstObjection?_eq_none none
  intro request member
  rcases List.mem_append.1 member with early | late
  · rcases List.mem_append.1 early with clears | sets
    · obtain ⟨slot, inside, rfl⟩ := List.mem_map.1 clears
      have slots : ∀ slot ∈ ([0, 1, 2, 3, 4, 5, 6] : List TagSlot), slot.toNat < 7 := by simp
      exact slots slot inside
    · obtain ⟨tag, inside, rfl⟩ := List.mem_map.1 sets
      exact managed tag inside
  · obtain ⟨tag, inside, rfl⟩ := List.mem_map.1 late
    exact managedReverse tag inside

/-- The tag that a load means for a slot: the last of its reverse tags, if one is for this slot, or
else the last of its tags. -/
def meant (tags : List IpTag) (reverseTags : List ReverseTag) (slot : TagSlot) : HeldTags :=
  match (reverseTags.filter fun tag => tag.slot = slot).getLast? with
  | some tag => (none, some tag)
  | none => ((tags.filter fun tag => tag.slot = slot).getLast?, none)

/-- The whole plan settles every managed slot, whatever was in it. -/
theorem settle_plan_of_lt {slot : TagSlot} (managed : slot.toNat < 7) (held : TagSlot → HeldTags)
    (tags : List IpTag) (reverseTags : List ReverseTag) :
    settle held (plan tags reverseTags) slot = meant tags reverseTags slot := by
  have cleared : ((([0, 1, 2, 3, 4, 5, 6] : List TagSlot).map clear).filter
      fun request => request.slot = slot).getLast? = some (clear slot) := by
    have each : ∀ index < 7, ((([0, 1, 2, 3, 4, 5, 6] : List TagSlot).filter
        fun slot => slot = UInt8.ofNat index)) = [UInt8.ofNat index] := by decide
    have single := each slot.toNat managed
    rw [UInt8.ofNat_toNat] at single
    rw [List.filter_map]
    exact congrArg (fun slots => (slots.map clear).getLast?) single
  have sets : ((tags.map set).filter fun request => request.slot = slot).getLast? =
      (tags.filter fun tag => tag.slot = slot).getLast?.map set := by
    rw [List.filter_map, List.getLast?_map]
    rfl
  have setsReverse :
      ((reverseTags.map setReverse).filter fun request => request.slot = slot).getLast? =
        (reverseTags.filter fun tag => tag.slot = slot).getLast?.map setReverse := by
    rw [List.filter_map, List.getLast?_map]
    rfl
  rw [settle_apply, plan, List.filter_append, List.filter_append, List.getLast?_append,
    List.getLast?_append, cleared, sets, setsReverse, meant]
  cases (reverseTags.filter fun tag => tag.slot = slot).getLast? with
  | some tag => rfl
  | none => cases (tags.filter fun tag => tag.slot = slot).getLast? <;> rfl

/-- A slot that no request is for keeps what it holds. -/
theorem settle_of_forall_ne {requests : List TagRequest} {slot : TagSlot}
    (others : ∀ request ∈ requests, request.slot ≠ slot) (held : TagSlot → HeldTags) :
    settle held requests slot = held slot := by
  have empty : (requests.filter fun request => request.slot = slot) = [] :=
    List.filter_eq_nil_iff.2 fun request member => by simpa using others request member
  rw [settle_apply, empty]
  rfl

/-- Requests that all succeed were all granted. -/
theorem Carried.granted_of_ok {machine : Machine} {requests : List TagRequest}
    {ran : Except Fault Unit × Machine} (carried : Carried machine requests ran)
    (ok : ran.1 = .ok ()) : granted machine requests = requests := by
  have answer := carried.answer
  rw [ok] at answer
  cases refused : refused? machine requests with
  | some request =>
    rw [refused] at answer
    cases answer
  | none =>
    refine List.takeWhile_eq_self_iff.2 fun request member => ?_
    have permits := List.find?_eq_none.1 refused request member
    rw [Bool.not_eq_true] at permits
    rw [permits]
    rfl

end TagRequest

/-- **The effect of loading tags.** If there is an objection to a tag, the first objection is the
answer, and the machine is as it was. Otherwise the load clears the seven managed slots, sets the
tags and sets the reverse tags, each in the order given, up to the first request that the board
refuses: this request is the last in the log, its refusal is the answer, and the requests before it
are what has changed the tables. A load that succeeds leaves in a managed slot the last tag that it
set there and nothing else, whatever the slots held before, and it leaves the other slots as they
were. -/
theorem loadTags_effect (tags : List IpTag) (reverseTags : List ReverseTag) (machine : Machine) :
    let ran := (loadTags tags reverseTags).runOn machine
    match firstObjection? tags reverseTags with
    | some fault => ran = (.error fault, machine)
    | none =>
      TagRequest.Carried machine (TagRequest.plan tags reverseTags) ran ∧
      (ran.1 = .ok () → ∀ slot : TagSlot, ran.2.heldIn slot =
        if slot.toNat < 7 then TagRequest.meant tags reverseTags slot else machine.heldIn slot) := by
  intro ran
  have runs : ran = _ :=
    congrArg (Action.runOn · machine) (TagRequest.loadTags_eq tags reverseTags)
  rw [Action.runOn_bind, Action.runOn_ofExcept, checkTags_eq] at runs
  cases objection : firstObjection? tags reverseTags with
  | some fault =>
    rw [objection] at runs
    exact runs
  | none =>
    rw [objection] at runs
    have managed := TagRequest.slot_lt_of_mem_plan objection
    have carried : TagRequest.Carried machine (TagRequest.plan tags reverseTags) ran := by
      rw [runs]
      exact TagRequest.runOn_forM_perform managed machine
    refine ⟨carried, fun ok slot => ?_⟩
    rw [carried.held, carried.granted_of_ok ok]
    split
    · exact TagRequest.settle_plan_of_lt ‹_› ..
    · apply TagRequest.settle_of_forall_ne
      rintro request member rfl
      exact absurd (managed request member) ‹_›

end MeshControl
