import MeshControl.Ordered.Map
import MeshControl.Spec.Command

/-!
# Writing data specifications

A `Writer` builds a specification one command at a time and refuses the mistakes it can see:
a region declared twice, a focus on a region that is not declared, a write without a focus. A
refused call leaves the specification as it was. Comments belong to the command that follows
them and show in listings only.
-/

namespace MeshControl.Spec

/-- A finished specification: its bytes, and comments by the offset of the command they
precede. -/
structure Program where
  bytes : Bytes
  comments : OrderedMap Nat (List String)
  deriving DecidableEq

/-- A specification without comments. -/
def Program.ofBytes (bytes : Bytes) : Program := ⟨bytes, .empty⟩

/-- A specification that is being written. -/
structure Writer where
  words : List UInt32
  regions : OrderedMap RegionId Region
  focus : Option RegionId
  comments : OrderedMap Nat (List String)
  deriving DecidableEq

namespace Writer

/-- The specification before its first command. -/
def empty : Writer := ⟨[], .empty, none, .empty⟩

/-- Add a command at the end. -/
def put (writer : Writer) (command : Command) : Writer :=
  { writer with words := writer.words ++ command.encode }

/-- Declare a region. -/
def reserve (writer : Writer) (region : Region) : Except Fault Writer :=
  if ¬ region.id < RegionId.limit then .error (.specification (.beyondTable region.id))
  else if writer.regions.contains region.id then
    .error (.specification (.declaredTwice region.id region.label))
  else
    let written := writer.put (.reserve region.id region.size region.unfilled)
    .ok { written with regions := written.regions.insert region.id region }

/-- Direct what follows to a declared region. -/
def switchFocus (writer : Writer) (region : RegionId) : Except Fault Writer :=
  if writer.regions.contains region then
    .ok { writer.put (.focus region) with focus := some region }
  else .error (.specification (.focusUndeclared region))

/-- Fail if no region has focus. -/
def requireFocus (writer : Writer) : Except Fault Unit :=
  match writer.focus with
  | some _ => .ok ()
  | none => .error (.specification .noFocus)

/-- Write a value several times. -/
def writeRepeated (writer : Writer) (value : UInt32) (repeats : UInt8) (width : Width) :
    Except Fault Writer := do
  writer.requireFocus
  if repeats = 0 then throw (.specification .noRepeats)
  return writer.put (.write value width repeats)

/-- Write one word. -/
def writeValue (writer : Writer) (value : UInt32) : Except Fault Writer :=
  writer.writeRepeated value 1 .word

/-- Write a run of words. -/
def writeArray (writer : Writer) (values : List UInt32) : Except Fault Writer := do
  writer.requireFocus
  if UInt32.size ≤ values.length then throw (.specification .arrayTooLong)
  return writer.put (.writeArray values)

/-- Attach a comment to the next command. -/
def comment (writer : Writer) (text : String) : Writer :=
  let offset := 4 * writer.words.length
  let texts := (writer.comments.get? offset).getD []
  { writer with comments := writer.comments.insert offset (texts ++ [text]) }

/-- Put the end marker and finish. -/
def finish (writer : Writer) : Program :=
  ⟨Bytes.ofWords (writer.words ++ [commandWord Opcode.endSpec.code 0 0]), writer.comments⟩

end Writer

end MeshControl.Spec
