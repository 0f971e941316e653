import MeshControl.Proofs.Spec.Word
import MeshControl.Spec.Command
import MeshControl.Spec.Program

/-!
# Commands read back from their words

What `Command.encode` writes is what `decodeItem` reads, however the words go on, as long as
the operands fit their fields (`Command.Encodable`). Commands one after another and an end
marker therefore scan as those commands, each at the position of its first word (`scan_encode`).
-/

namespace MeshControl.Spec

namespace Command

/-- The region numbers and the length of an array fit the fields that hold them. -/
def Encodable : Command → Prop
  | .nop | .write .. => True
  | .reserve region .. | .focus region => region < RegionId.limit
  | .writeArray values => values.length < UInt32.size

/-- The words of a command after its first. -/
def extra : Command → Nat
  | .nop | .focus _ => 0
  | .reserve .. | .write .. => 1
  | .writeArray values => 1 + values.length

theorem length_encode (command : Command) : command.encode.length = 1 + command.extra := by
  cases command with
  | writeArray values => simp only [encode, extra, List.length_cons]; omega
  | _ => rfl

end Command

/-- The words of commands one after another. -/
def encodeAll (commands : List Command) : List UInt32 := commands.flatMap Command.encode

@[simp] theorem encodeAll_nil : encodeAll [] = [] := rfl

@[simp] theorem encodeAll_cons (command : Command) (commands : List Command) :
    encodeAll (command :: commands) = command.encode ++ encodeAll commands := rfl

@[simp] theorem encodeAll_append (first second : List Command) :
    encodeAll (first ++ second) = encodeAll first ++ encodeAll second :=
  List.flatMap_append

/-- The end marker. -/
def endWord : UInt32 := commandWord Opcode.endSpec.code 0 0

/-- A region number that may be declared fits four bits. -/
theorem toNat_lt_of_declarable {region : RegionId} (declarable : region < RegionId.limit) :
    region.toNat < 16 :=
  UInt8.lt_iff_toNat_lt.1 declarable

/-- A command decodes from its first word and those behind it. -/
theorem decodeItem_encode (position : Nat) {command : Command} (fits : command.Encodable)
    (rest : List UInt32) :
    ∃ word behind, command.encode = word :: behind ∧
      decodeItem position word (behind ++ rest) = .ok (.command command command.extra) := by
  cases command with
  | nop => exact ⟨_, _, rfl, rfl⟩
  | reserve region size unfilled =>
    have declarable := toNat_lt_of_declarable fits
    refine ⟨_, _, rfl, ?_⟩
    rw [decodeItem, operandsOf_commandWord _ _ (by decide), opcodeOf_commandWord,
      reservedRegionOf_reserve _ _ _ declarable, unfilledOf_reserve _ _ _ declarable,
      Opcode.ofCode?_code]
    simp only [firstOperand, List.cons_append, List.nil_append]
    have limit : region < RegionId.limit := fits
    simp [limit, Command.extra, bind, Except.bind, pure, Except.pure]
  | focus region =>
    have declarable := toNat_lt_of_declarable fits
    refine ⟨_, _, rfl, ?_⟩
    rw [decodeItem, operandsOf_commandWord _ _ (by decide), opcodeOf_commandWord,
      focusOf_focus _ _ declarable, Opcode.ofCode?_code]
    simp [Command.extra, pure, Except.pure]
  | write value width repeats =>
    refine ⟨_, _, rfl, ?_⟩
    rw [decodeItem, operandsOf_commandWord _ _ (by decide), opcodeOf_commandWord,
      widthCodeOf_write, repeatsOf_write, Opcode.ofCode?_code]
    simp [firstOperand, Command.extra, bind, Except.bind, pure, Except.pure]
  | writeArray values =>
    refine ⟨_, _, rfl, ?_⟩
    have length : (UInt32.ofNat values.length).toNat = values.length :=
      UInt32.toNat_ofNat_of_lt fits
    rw [decodeItem, operandsOf_commandWord _ _ (by decide), opcodeOf_commandWord,
      Opcode.ofCode?_code]
    simp [firstOperand, length, Command.extra, bind, Except.bind, pure, Except.pure]

/-- Commands one after another, the first of them at `position`. -/
def locate (position : Nat) : List Command → List Located
  | [] => []
  | command :: rest => ⟨position, command⟩ :: locate (position + 1 + command.extra) rest

theorem locate_append (position : Nat) (first second : List Command) :
    locate position (first ++ second) =
      locate position first ++ locate (position + (encodeAll first).length) second := by
  induction first generalizing position with
  | nil => rfl
  | cons command first ih =>
    rw [List.cons_append, locate, locate, ih, List.cons_append, encodeAll_cons,
      List.length_append, Command.length_encode]
    rw [show position + 1 + command.extra + (encodeAll first).length =
      position + (1 + command.extra + (encodeAll first).length) by omega]

theorem scanUpTo_encode (limit position : Nat) (commands : List Command)
    (fit : ∀ command ∈ commands, command.Encodable)
    (enough : (encodeAll commands).length < limit) :
    scanUpTo limit position (encodeAll commands ++ [endWord]) =
      (locate position commands, .finished (position + (encodeAll commands).length)) := by
  induction commands generalizing limit position with
  | nil =>
    obtain _ | limit := limit
    · exact absurd enough (Nat.not_lt_zero _)
    · rfl
  | cons command commands ih =>
    obtain _ | limit := limit
    · exact absurd enough (Nat.not_lt_zero _)
    have fits := fit command (by simp)
    obtain ⟨word, behind, words, decoded⟩ :=
      decodeItem_encode position fits (encodeAll commands ++ [endWord])
    have length : behind.length = command.extra := by
      have := command.length_encode
      rw [words, List.length_cons] at this
      omega
    rw [encodeAll_cons, words, List.length_append, List.length_cons, length] at enough
    rw [encodeAll_cons, words, List.cons_append, List.cons_append, List.append_assoc, scanUpTo,
      decoded]
    dsimp only
    rw [← length, List.drop_left, length,
      ih limit (position + 1 + command.extra)
        (fun other member => fit other (List.mem_cons_of_mem _ member)) (by omega)]
    rw [locate, List.length_cons, List.length_append, length]
    rw [show position + 1 + command.extra + (encodeAll commands).length =
      position + (command.extra + (encodeAll commands).length + 1) by omega]

/-- **Commands and an end marker scan as those commands.** -/
theorem scan_encode (position : Nat) {commands : List Command}
    (fit : ∀ command ∈ commands, command.Encodable) :
    scan position (encodeAll commands ++ [endWord]) =
      (locate position commands, .finished (position + (encodeAll commands).length)) := by
  refine scanUpTo_encode _ position commands fit ?_
  rw [List.length_append]
  exact Nat.lt_succ_self _

end MeshControl.Spec
