import MeshControl.CommandLine.Arguments
import MeshControl.Spec.Execution
import MeshControl.Timing

/-!
# What the command line answers

Every request is answered by a `Report`: an exit status and what is printed. The file of a
request that names one is handed in with its contents, or with the reason why it cannot be
read.
-/

namespace MeshControl.CommandLine

/-- An answer on the command line. -/
structure Report where
  status : UInt8
  output : String
  errors : String
  deriving DecidableEq, Repr

namespace Report

/-- An answer without failure. -/
def success (output : String) : Report := ⟨0, output, ""⟩

/-- A failure after some output. -/
def failure (output message : String) : Report := ⟨1, output, s!"Error: {message}\n"⟩

/-- A failure with what it was met at and its cause. -/
def failureAt (output place cause : String) : Report :=
  failure output s!"{place}\n\nCaused by:\n    {cause}"

/-- The answer to arguments that ask for nothing. -/
def usage : Report := ⟨2, "", ""⟩

end Report

/-- Lines, each of them ended. -/
def lines (texts : List String) : String := String.join (texts.map fun text => text ++ "\n")

/-- The name of a half word in reports. -/
def halfName : Key.Half → String
  | .lower => "LowerHalfWord"
  | .upper => "UpperHalfWord"

/-- The lines on the keys of a channel. -/
def allocationLines (allocation : Key.Allocation) : List String :=
  (allocation.pattern.map fun pattern =>
    s!"Base key : 0x{Text.hexUpper 8 pattern.key.toNat}").toList ++
  (allocation.overlay.map fun overlay =>
    s!"Prefix   : 0x{Text.hexUpper 8 overlay.bits.toNat} ({halfName overlay.half})").toList

/-- The answer on the mask of a channel. -/
def reportMask (count : Nat) (key keyPrefix : Option UInt32) : Report :=
  match Key.Block.ofCount count with
  | .error fault => .failure "" fault.message
  | .ok block =>
    let mask := Text.hexUpper 8 block.mask.toNat
    let capacity := Text.hexUpper 8 block.capacity.toNat
    let head := lines [s!"Keys     : {count}", s!"Mask     : 0x{mask}",
      s!"Capacity : {block.capacity} (0x{capacity})"]
    if key.isNone && keyPrefix.isNone then .success head
    else if keyPrefix.any fun bits => 0xFFFF < bits then
      .failureAt head "prefix must fit in 16 bits" "number too large to fit in target type"
    else
      let halfPrefix := keyPrefix.map fun bits => ⟨bits.toUInt16, .upper⟩
      match Key.Allocation.resolve count key halfPrefix with
      | .error fault => .failure head fault.message
      | .ok allocation => .success (head ++ lines (allocationLines allocation))

/-- The line on the image of a region. -/
def imageLine (image : Spec.Image) : String :=
  let region := image.region
  s!"region {Text.column 2 region.id.toNat}: {Text.column 8 region.size.toNat} bytes reserved, " ++
    s!"{Text.column 8 image.data.length} written" ++ if region.unfilled then " (unfilled)" else ""

/-- The answer on the specification in a file. -/
def reportSpecification (file : String) (contents : Except String Bytes) : Report :=
  match contents with
  | .error reason => .failureAt "" s!"reading {file}" reason
  | .ok bytes =>
    match (Spec.Program.ofBytes bytes).execute with
    | .error fault => .failureAt "" s!"executing {file}" fault.message
    | .ok execution =>
      .success (execution.text ++ "\n" ++ lines (execution.images.values.map imageLine))

/-- The line on the tick of a time. -/
def tickLine (timing : Timing) (time : Float) : String :=
  let shown := Text.padLeft ' ' 12 (Decimal.text time)
  match timing.tickOf time with
  | some tick =>
    s!"{shown} ms -> tick {tick}" ++ if timing.inWindow tick then "" else " (outside window)"
  | none => s!"{shown} ms -> dropped"

/-- The file whose contents a request needs. -/
def Request.file? : Request → Option String
  | .specDump file => some file
  | .mask .. | .ticks .. | .help | .version => none

/-- The answer to a request. -/
def Request.answer (request : Request) (contents : Except String Bytes) : Report :=
  match request with
  | .mask count key keyPrefix => reportMask count key keyPrefix
  | .specDump file => reportSpecification file contents
  | .ticks step first last times =>
    let timing := (Timing.unbounded step 1).withWindow first last
    .success (lines (times.map (tickLine timing)))
  | .help => .success ""
  | .version => .success "spinn 0.1.0\n"

/-- The answer to some arguments, given a way to read files. -/
def answer (arguments : List String) (readFile : String → Except String Bytes) : Report :=
  match Request.ofArguments arguments with
  | none => .usage
  | some request => request.answer (readFile (request.file?.getD ""))

end MeshControl.CommandLine
