import MeshControl.Spec.Program

/-!
# Executing data specifications

Execution folds the commands of a specification over a set of region images, which starts
empty. It yields one image for each reserved region and a listing with one line per command.
-/

namespace MeshControl.Spec

/-- The bytes that a specification puts into a region, at most the size of the region. -/
structure Image where
  region : Region
  data : Bytes
  deriving DecidableEq, Repr

/-- The result of executing a specification. -/
structure Execution where
  images : OrderedMap RegionId Image
  /-- One line per command, with the comments ahead of it. -/
  listing : List String
  deriving DecidableEq

namespace Execution

/-- The image of a region, if it is reserved. -/
def image? (execution : Execution) (region : RegionId) : Option Image :=
  execution.images.get? region

/-- The reserved regions by number. -/
def regions (execution : Execution) : List Region := execution.images.values.map (·.region)

/-- The listing as a text, each line ended. -/
def text (execution : Execution) : String :=
  String.join (execution.listing.map fun line => line ++ "\n")

end Execution

/-- The images made so far and the region in focus. -/
structure Progress where
  images : OrderedMap RegionId Image
  focus : Option RegionId
  deriving DecidableEq

namespace Progress

/-- Before the first command. -/
def start : Progress := ⟨.empty, none⟩

/-- Put bytes at the end of the image in focus. -/
def append (progress : Progress) (position : Nat) (data : Bytes) :
    Except SpecificationFault Progress :=
  match progress.focus.bind progress.images.get? with
  | none => .error (.unfocusedWrite position)
  | some image =>
    if image.data.length + data.length ≤ image.region.size.toNat then
      .ok { progress with
        images := progress.images.insert image.region.id
          { image with data := image.data ++ data } }
    else .error (.pastEnd image.region.id image.region.size)

/-- The name of a region that only its number is known of. -/
def plainLabel (region : RegionId) : String := s!"region_{region}"

/-- The progress after one more command. -/
def step (progress : Progress) (located : Located) : Except SpecificationFault Progress :=
  match located.command with
  | .nop => .ok progress
  | .reserve region size unfilled =>
    if progress.images.contains region then .error (.reservedTwice region)
    else .ok { progress with
      images := progress.images.insert region
        ⟨⟨region, size, plainLabel region, unfilled⟩, []⟩ }
  | .focus region =>
    if progress.images.contains region then .ok { progress with focus := some region }
    else .error (.focusUnreserved region)
  | .write value width repeats =>
    let data := (Bytes.ofWord value).take width.size
    progress.append located.position (List.replicate repeats.toNat data).flatten
  | .writeArray values => progress.append located.position (Bytes.ofWords values)

/-- The progress after some more commands, which stops at the first fault. -/
def run (progress : Progress) : List Located → Except SpecificationFault Progress
  | [] => .ok progress
  | located :: rest => do (← progress.step located).run rest

end Progress

namespace Program

/-- The lines of a listing for the command at `position`. -/
def lines (program : Program) (position : Nat) (opcode : Opcode) (details : String) :
    List String :=
  let offset := 4 * position
  ((program.comments.get? offset).getD []).map (fun comment => s!"# {comment}") ++
    [s!"{Text.hexUpper 8 offset}: {opcode.mnemonic}{details}"]

/-- The listing of some commands and the end marker after them. -/
def listing (program : Program) (commands : List Located) (finish : Nat) : List String :=
  (commands.flatMap fun located =>
    program.lines located.position located.command.opcode located.command.details) ++
    program.lines finish .endSpec ""

/-- Execute a specification, with the fault of the specification itself if it has one. -/
def run (program : Program) : Except SpecificationFault Execution := do
  if program.bytes.length % 4 ≠ 0 then throw (.ragged program.bytes.length)
  let (commands, ending) := scan 0 (Bytes.words program.bytes)
  let progress ← Progress.start.run commands
  match ending with
  | .broken fault => throw fault
  | .finished finish => return ⟨progress.images, program.listing commands finish⟩

/-- Execute a specification. -/
def execute (program : Program) : Except Fault Execution :=
  program.run.mapError .specification

end Program

end MeshControl.Spec
