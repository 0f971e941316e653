import MeshControl.Bytes
import MeshControl.Fault
import MeshControl.Region.Basic
import MeshControl.Spec.Word

/-!
# Commands of a data specification

A specification is a run of commands up to an end marker. `scan` splits words into the
commands they hold; each command is one word, then its operands, and in the case of an array
the words it carries. The split depends on the words alone, not on what the commands do.
-/

namespace MeshControl.Spec

/-- A command that execution can carry on after. -/
inductive Command where
  | nop
  | reserve (region : RegionId) (size : UInt32) (unfilled : Bool)
  | focus (region : RegionId)
  /-- Store `value`, cut to `width`, `repeats` times in the region in focus. -/
  | write (value : UInt32) (width : Width) (repeats : UInt8)
  /-- Store words in the region in focus. -/
  | writeArray (values : List UInt32)
  deriving DecidableEq, Repr

namespace Command

/-- The opcode of a command. -/
def opcode : Command → Opcode
  | .nop => .nop
  | .reserve .. => .reserve
  | .focus _ => .switchFocus
  | .write .. => .write
  | .writeArray _ => .writeArray

/-- The words of a command. -/
def encode : Command → List UInt32
  | .nop => [commandWord Opcode.nop.code 0 0]
  | .reserve region size unfilled =>
    [commandWord Opcode.reserve.code 1
      ((if unfilled then unfilledFlag else 0) ||| region.toUInt32), size]
  | .focus region => [commandWord Opcode.switchFocus.code 0 (region.toUInt32 <<< 8)]
  | .write value width repeats =>
    [commandWord Opcode.write.code 1 ((width.code <<< 12) ||| repeats.toUInt32), value]
  | .writeArray values =>
    commandWord Opcode.writeArray.code 1 0 :: UInt32.ofNat values.length :: values

/-- What a listing shows after the name of a command. -/
def details : Command → String
  | .nop => ""
  | .reserve region size unfilled =>
    s!" region={region} size={size}" ++ if unfilled then " UNFILLED" else ""
  | .focus region => s!" region={region}"
  | .write value width repeats =>
    s!" value=0x{Text.hexUpper 1 value.toNat} bytes={width.size} repeats={repeats}"
  | .writeArray values => s!" words={values.length}"

end Command

/-- What the words at some place hold. -/
inductive Item where
  /-- The end marker. -/
  | finish
  /-- A command with the number of words that belong to it after its first. -/
  | command (command : Command) (extra : Nat)

/-- The first operand of a command. -/
def firstOperand (position : Nat) (operands : List UInt32) : Except SpecificationFault UInt32 :=
  match operands with
  | [] => .error (.lacksOperand position)
  | operand :: _ => .ok operand

/-- What `word`, found at `position` and followed by `rest`, begins. -/
def decodeItem (position : Nat) (word : UInt32) (rest : List UInt32) :
    Except SpecificationFault Item := do
  let extra := (operandsOf word).toNat
  let operands := rest.take extra
  if operands.length < extra then throw (.truncated position)
  match Opcode.ofCode? (opcodeOf word) with
  | some .endSpec => return .finish
  | some .nop => return .command .nop extra
  | some .halt => throw (.breakpoint position)
  | some .reserve =>
    let size ← firstOperand position operands
    let region := reservedRegionOf word
    if region < RegionId.limit then return .command (.reserve region size (unfilledOf word)) extra
    else throw (.reserveBeyondTable region)
  | some .switchFocus => return .command (.focus (focusOf word)) extra
  | some .write =>
    match Width.ofCode? (widthCodeOf word) with
    | none => throw (.badLengthCode (widthCodeOf word))
    | some width =>
      let value ← firstOperand position operands
      return .command (.write value width (repeatsOf word)) extra
  | some .writeArray =>
    let count := (← firstOperand position operands).toNat
    let values := (rest.drop extra).take count
    if values.length < count then throw (.arrayTruncated position)
    return .command (.writeArray values) (extra + count)
  | none => throw (.unknownOpcode (opcodeOf word) position)

/-- A command and the position of its first word. -/
structure Located where
  position : Nat
  command : Command
  deriving DecidableEq, Repr

/-- How a run of commands ends. -/
inductive Ending where
  /-- At an end marker. -/
  | finished (position : Nat)
  /-- At words that hold no command, or for lack of an end marker. -/
  | broken (fault : SpecificationFault)
  deriving DecidableEq, Repr

/-- Split words as `scan` does, into at most `limit` commands. -/
def scanUpTo (limit position : Nat) (words : List UInt32) : List Located × Ending :=
  match limit, words with
  | limit + 1, word :: rest =>
    match decodeItem position word rest with
    | .error fault => ([], .broken fault)
    | .ok .finish => ([], .finished position)
    | .ok (.command command extra) =>
      let following := scanUpTo limit (position + 1 + extra) (rest.drop extra)
      (⟨position, command⟩ :: following.1, following.2)
  | _, _ => ([], .broken .unterminated)

/-- Split words, the first of them at `position`, into commands up to the first end marker.
There are at most as many commands as words. -/
def scan (position : Nat) (words : List UInt32) : List Located × Ending :=
  scanUpTo words.length position words

end MeshControl.Spec
