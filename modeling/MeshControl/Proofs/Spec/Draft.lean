import MeshControl.Proofs.Spec.Scanning
import MeshControl.Spec.Execution

/-!
# What the calls of a writer mean

A `Draft` is what a run of writer calls asks for, without a word of bytecode: the regions it
declares, the bytes it stores in each, and the lines of the listing. `Draft.Sound` is the
invariant of the drafts that calls lead to.
-/

namespace MeshControl.Spec

/-- A call of a specification writer. -/
inductive Call where
  | reserve (region : Region)
  | focus (region : RegionId)
  | value (value : UInt32)
  | repeated (value : UInt32) (repeats : UInt8) (width : Width)
  | array (values : List UInt32)
  | comment (text : String)

namespace Writer

/-- Make one call. -/
def call (writer : Writer) : Call → Except Fault Writer
  | .reserve region => writer.reserve region
  | .focus region => writer.switchFocus region
  | .value value => writer.writeValue value
  | .repeated value repeats width => writer.writeRepeated value repeats width
  | .array values => writer.writeArray values
  | .comment text => .ok (writer.comment text)

/-- Make one call and go on with what was written before it if it fails. -/
def attempt (writer : Writer) (call : Call) : Writer :=
  match writer.call call with
  | .ok written => written
  | .error _ => writer

end Writer

/-- The lowest bytes of a number, the least significant first. -/
def littleEndian : Nat → Nat → Bytes
  | 0, _ => []
  | size + 1, n => UInt8.ofNat n :: littleEndian size (n / 256)

/-- The lowest byte of a value, its two lowest, or all four. -/
def lowBytes (value : UInt32) : Width → Bytes
  | .byte => littleEndian 1 value.toNat
  | .half => littleEndian 2 value.toNat
  | .word => littleEndian 4 value.toNat

/-- What writer calls ask for. -/
structure Draft where
  regions : List Region
  focus : Option RegionId
  /-- Every write in call order, with the region that had focus. -/
  writes : List (RegionId × Bytes)
  /-- Every command in call order, with the comments made since the one before it. -/
  commands : List (List String × Command)
  /-- The comments made since the last command. -/
  pending : List String

namespace Draft

/-- Before the first call. -/
def blank : Draft := ⟨[], none, [], [], []⟩

/-- A region by its number. -/
def region? (draft : Draft) (id : RegionId) : Option Region :=
  draft.regions.find? fun region => region.id = id

/-- The bytes written while a region had focus. -/
def dataOf (draft : Draft) (id : RegionId) : Bytes :=
  (draft.writes.filter fun write => write.1 = id).flatMap Prod.snd

/-- The image that a region should have. -/
def image? (draft : Draft) (id : RegionId) : Option Image :=
  (draft.region? id).map fun region =>
    ⟨{ region with label := Progress.plainLabel region.id }, draft.dataOf id⟩

/-- More is written to a region than it has room for. -/
def Overflows (draft : Draft) (region : Region) : Prop :=
  draft.region? region.id = some region ∧ region.size.toNat < (draft.dataOf region.id).length

/-- The calls that succeed. -/
def Accepts (draft : Draft) : Call → Prop
  | .reserve region => region.id.toNat < 16 ∧ draft.region? region.id = none
  | .focus region => draft.region? region ≠ none
  | .value _ => draft.focus ≠ none
  | .repeated _ repeats _ => draft.focus ≠ none ∧ repeats ≠ 0
  | .array values => draft.focus ≠ none ∧ values.length < 2 ^ 32
  | .comment _ => True

instance (draft : Draft) (call : Call) : Decidable (draft.Accepts call) :=
  match call with
  | .reserve _ => inferInstanceAs (Decidable (_ ∧ _))
  | .focus _ => inferInstanceAs (Decidable (_ ≠ _))
  | .value _ => inferInstanceAs (Decidable (_ ≠ _))
  | .repeated .. => inferInstanceAs (Decidable (_ ∧ _))
  | .array _ => inferInstanceAs (Decidable (_ ∧ _))
  | .comment _ => inferInstanceAs (Decidable True)

/-- One more command, below the comments that wait for one. -/
def issue (draft : Draft) (command : Command) : Draft :=
  { draft with commands := draft.commands ++ [(draft.pending, command)], pending := [] }

/-- One more command, which stores bytes in the region in focus. -/
def store (draft : Draft) (command : Command) (data : Bytes) : Draft :=
  { draft.issue command with
    writes := draft.writes ++ draft.focus.toList.map fun region => (region, data) }

/-- A successful call. -/
def add (draft : Draft) : Call → Draft
  | .reserve region =>
    { draft.issue (.reserve region.id region.size region.unfilled) with
      regions := draft.regions ++ [region] }
  | .focus region => { draft.issue (.focus region) with focus := some region }
  | .value value => draft.store (.write value .word 1) (littleEndian 4 value.toNat)
  | .repeated value repeats width =>
    draft.store (.write value width repeats)
      (List.replicate repeats.toNat (lowBytes value width)).flatten
  | .array values =>
    draft.store (.writeArray values) (values.flatMap fun value => littleEndian 4 value.toNat)
  | .comment text => { draft with pending := draft.pending ++ [text] }

/-- A call, which changes nothing if it is not accepted. -/
def attempt (draft : Draft) (call : Call) : Draft :=
  if draft.Accepts call then draft.add call else draft

/-- The line of a command. -/
def line (position : Nat) (opcode : Opcode) (details : String) : String :=
  s!"{Text.hexUpper 8 (4 * position)}: {opcode.mnemonic}{details}"

/-- The lines of comments. -/
def commentLines (comments : List String) : List String :=
  comments.map fun comment => s!"# {comment}"

/-- A line for each command, each below its comments, and the end marker below the last. -/
def linesFrom (position : Nat) (pending : List String) :
    List (List String × Command) → List String
  | [] => commentLines pending ++ [line position .endSpec ""]
  | (comments, command) :: rest =>
    commentLines comments ++ line position command.opcode command.details ::
      linesFrom (position + 1 + command.extra) pending rest

/-- The listing that the calls should have. -/
def listing (draft : Draft) : List String := linesFrom 0 draft.pending draft.commands

/-! ## The drafts that calls lead to -/

theorem id_of_region? {draft : Draft} {id : RegionId} {region : Region}
    (found : draft.region? id = some region) : region.id = id := by
  rw [region?] at found
  have matching := List.find?_some found
  exact of_decide_eq_true matching

theorem region?_reserve (draft : Draft) (region : Region) (id : RegionId) :
    (draft.add (.reserve region)).region? id =
      (draft.region? id).or (if region.id = id then some region else none) := by
  rw [add, region?, List.find?_append, List.find?_singleton]
  simp only [decide_eq_true_eq]
  rfl

/-- Only a reservation declares a region. -/
theorem region?_add_of_some {draft : Draft} {id : RegionId} {region : Region} (call : Call)
    (found : draft.region? id = some region) : (draft.add call).region? id = some region := by
  cases call with
  | reserve other => rw [region?_reserve, found, Option.some_or]
  | _ => exact found

theorem dataOf_store (draft : Draft) (command : Command) (data : Bytes) (id : RegionId) :
    (draft.store command data).dataOf id =
      draft.dataOf id ++ if draft.focus = some id then data else [] := by
  rw [dataOf, dataOf, store, List.filter_append, List.flatMap_append]
  congr 1
  cases focus : draft.focus with
  | none => rfl
  | some region =>
    rw [Option.toList_some, List.map_singleton]
    by_cases same : region = id
    · simp [same]
    · simp [same]

/-- What a region holds only grows. -/
theorem dataOf_add (draft : Draft) (call : Call) (id : RegionId) :
    ∃ data, (draft.add call).dataOf id = draft.dataOf id ++ data := by
  cases call with
  | reserve | focus | comment => exact ⟨[], (List.append_nil _).symm⟩
  | value | repeated | array => exact ⟨_, dataOf_store draft _ _ id⟩

/-- A region that overflows stays so. -/
theorem Overflows.add {draft : Draft} {region : Region} (call : Call)
    (spilled : draft.Overflows region) : (draft.add call).Overflows region := by
  obtain ⟨found, length⟩ := spilled
  obtain ⟨data, grown⟩ := draft.dataOf_add call region.id
  refine ⟨region?_add_of_some call found, ?_⟩
  rw [grown, List.length_append]
  omega

/-- Focus and writes are on declared regions, and every command fits its words. -/
structure Sound (draft : Draft) : Prop where
  focused : ∀ id, draft.focus = some id → draft.region? id ≠ none
  placed : ∀ write ∈ draft.writes, draft.region? write.1 ≠ none
  declarable : ∀ id, draft.region? id ≠ none → id.toNat < 16
  encodable : ∀ command ∈ draft.commands, command.2.Encodable

theorem Sound.blank : blank.Sound where
  focused _ focus := by cases focus
  placed _ member := by cases member
  declarable _ found := (found rfl).elim
  encodable _ member := by cases member

theorem Sound.issue {draft : Draft} (sound : draft.Sound) {command : Command}
    (fits : command.Encodable) : (draft.issue command).Sound where
  focused := sound.focused
  placed := sound.placed
  declarable := sound.declarable
  encodable other member := by
    rcases List.mem_append.1 member with old | new
    · exact sound.encodable other old
    · rw [List.mem_singleton.1 new]
      exact fits

theorem Sound.store {draft : Draft} (sound : draft.Sound) {command : Command}
    (fits : command.Encodable) (data : Bytes) : (draft.store command data).Sound where
  focused := sound.focused
  placed write member := by
    rcases List.mem_append.1 member with old | new
    · exact sound.placed write old
    · obtain ⟨id, focus, rfl⟩ := List.mem_map.1 new
      exact sound.focused id (Option.mem_toList.1 focus)
  declarable := sound.declarable
  encodable := (sound.issue fits).encodable

/-- Nothing is stored in a region before it is declared. -/
theorem Sound.dataOf_undeclared {draft : Draft} (sound : draft.Sound) {id : RegionId}
    (undeclared : draft.region? id = none) : draft.dataOf id = [] := by
  rw [dataOf, List.filter_eq_nil_iff.2, List.flatMap_nil]
  intro write member
  simp only [decide_eq_true_eq]
  rintro rfl
  exact sound.placed write member undeclared

theorem Sound.add {draft : Draft} (sound : draft.Sound) {call : Call}
    (accepted : draft.Accepts call) : (draft.add call).Sound := by
  cases call with
  | reserve region =>
    have fits : (Command.reserve region.id region.size region.unfilled).Encodable :=
      UInt8.lt_iff_toNat_lt.2 accepted.1
    have kept : ∀ id, draft.region? id ≠ none →
        (draft.add (.reserve region)).region? id ≠ none := by
      intro id found
      obtain ⟨other, found⟩ := Option.ne_none_iff_exists'.1 found
      exact Option.ne_none_iff_exists'.2 ⟨other, region?_add_of_some (.reserve region) found⟩
    refine ⟨fun id focus => kept id (sound.focused id focus),
      fun write member => kept write.1 (sound.placed write member), ?_, (sound.issue fits).encodable⟩
    intro id found
    rw [region?_reserve] at found
    cases old : draft.region? id with
    | some other => exact sound.declarable id (by rw [old]; exact Option.some_ne_none _)
    | none =>
      by_cases same : region.id = id
      · exact same ▸ accepted.1
      · rw [old, if_neg same] at found
        exact (found rfl).elim
  | focus region =>
    have fits : (Command.focus region).Encodable :=
      UInt8.lt_iff_toNat_lt.2 (sound.declarable region accepted)
    exact ⟨fun id focus => Option.some.inj focus ▸ accepted, sound.placed, sound.declarable,
      (sound.issue fits).encodable⟩
  | value value =>
    have fits : (Command.write value .word 1).Encodable := trivial
    exact sound.store fits _
  | repeated value repeats width =>
    have fits : (Command.write value width repeats).Encodable := trivial
    exact sound.store fits _
  | array values =>
    have fits : (Command.writeArray values).Encodable := accepted.2
    exact sound.store fits _
  | comment text => exact ⟨sound.focused, sound.placed, sound.declarable, sound.encodable⟩

end Draft

end MeshControl.Spec
