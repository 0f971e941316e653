import MeshControl.Core
import MeshControl.Scp.ResultCode
import MeshControl.Text.Numeral

/-!
# What can go wrong

Faults come in three kinds. A `ConfigurationFault` is found by looking at what the caller asked
for, an `OperationFault` arises while talking to the machine or to the host's disk, and a
batch of requests fails as a whole with one entry per request. `Fault.isConfiguration` is
therefore a matter of the constructor alone.

Each fault keeps its cause as data; its wording is in one function per kind.
-/

namespace MeshControl

/-- Why a data specification, or the regions it speaks of, makes no sense. -/
inductive SpecificationFault where
  /-- A region number that the pointer table has no entry for. -/
  | beyondTable (region : UInt8)
  | declaredTwice (region : UInt8) (label : String)
  | focusUndeclared (region : UInt8)
  | noRepeats
  | arrayTooLong
  | noFocus
  /-- A length in bytes that is no whole number of words. -/
  | ragged (length : Nat)
  /-- A command whose operand words run past the end. -/
  | truncated (word : Nat)
  | breakpoint (word : Nat)
  | reserveBeyondTable (region : UInt8)
  | reservedTwice (region : UInt8)
  | focusUnreserved (region : UInt8)
  | badLengthCode (code : UInt32)
  /-- A command that needs an operand and has none. -/
  | lacksOperand (word : Nat)
  | unfocusedWrite (word : Nat)
  | arrayTruncated (word : Nat)
  | unknownOpcode (opcode : UInt8) (word : Nat)
  | pastEnd (region : UInt8) (size : UInt32)
  | unterminated
  | layoutOverflow
  | noSendBuffer (label : String)
  | noBaseKey (label : String)
  | refillUnreserved (region : UInt8)
  /-- A reason stated from outside. -/
  | stated (reason : String)
  deriving DecidableEq, Repr

/-- Wording of a specification fault. -/
def SpecificationFault.message : SpecificationFault → String
  | .beyondTable region => s!"region {region} beyond the 16-entry table"
  | .declaredTwice region label => s!"region {region} ({label}) declared twice"
  | .focusUndeclared region => s!"focus on undeclared region {region}"
  | .noRepeats => "WRITE with zero repeats"
  | .arrayTooLong => "array too long"
  | .noFocus => "write with no region in focus"
  | .ragged length => s!"length {length} is not a whole number of words"
  | .truncated word => s!"command at word {word} is truncated"
  | .breakpoint word => s!"BREAK at word {word}"
  | .reserveBeyondTable region => s!"RESERVE of region {region} beyond the table"
  | .reservedTwice region => s!"region {region} reserved twice"
  | .focusUnreserved region => s!"focus on unreserved region {region}"
  | .badLengthCode code => s!"bad data length code {code}"
  | .lacksOperand word => s!"command at word {word} lacks operand 0"
  | .unfocusedWrite word => s!"write at word {word} with no focus"
  | .arrayTruncated word => s!"array at word {word} is truncated"
  | .unknownOpcode opcode word =>
    s!"unknown opcode 0x{Text.hexUpper 2 opcode.toNat} at word {word}"
  | .pastEnd region size => s!"write past the end of region {region} ({size} bytes)"
  | .unterminated => "missing END_SPEC"
  | .layoutOverflow => "region layout overflows the address space"
  | .noSendBuffer label => s!"{label} has no send buffer"
  | .noBaseKey label => s!"{label} has no base key for its send buffer"
  | .refillUnreserved region => s!"region {region} to rewrite is not reserved"
  | .stated reason => reason

/-- Faults in what was asked for, found before anything is sent. -/
inductive ConfigurationFault where
  | invalidCore (x y p : UInt8)
  | invalidKeyCount (count : Nat)
  /-- A base key and a prefix that cannot form one key under the mask. -/
  | keyConflict (key mask keyPrefix : UInt32)
  /-- A region reserved again with another size. -/
  | regionSizeConflict (core : Core) (region : UInt8) (declared requested : UInt32)
  | regionNotReserved (core : Core) (region : UInt8)
  | specification (cause : SpecificationFault)
  | invalidTag (slot : UInt8)
  | tagAddressMissing (slot : UInt8)
  | missingNotificationTag (label : String)
  | vertexNotPlaced (label : String)
  deriving DecidableEq, Repr

/-- Wording of a configuration fault. -/
def ConfigurationFault.message : ConfigurationFault → String
  | .invalidCore x y p => s!"Invalid core address ({x}, {y}, {p})"
  | .invalidKeyCount count => s!"Invalid key count {count}: must be between 1 and 2^32"
  | .keyConflict key mask keyPrefix =>
    s!"Key 0x{Text.hex 8 key.toNat} with prefix 0x{Text.hex 8 keyPrefix.toNat} " ++
      s!"does not fit mask 0x{Text.hex 8 mask.toNat}"
  | .regionSizeConflict core region declared requested =>
    s!"Region {region} on core {core} already reserved with {declared} bytes, not {requested}"
  | .regionNotReserved core region => s!"Region {region} on core {core} was not reserved"
  | .specification cause => s!"Data specification error: {cause.message}"
  | .invalidTag slot => s!"Tag {slot} is outside the managed tag range"
  | .tagAddressMissing slot => s!"Tag {slot} has no board address"
  | .missingNotificationTag label => s!"No IP tag allocated for {label}"
  | .vertexNotPlaced label => s!"Vertex {label} has no placement"

/-- Faults met while talking to the machine, to a core, or to the host's disk. -/
inductive OperationFault where
  /-- The stream has ended, after the given tick if it carried any. -/
  | streamExhausted (after : Option UInt32)
  | writeFailed (core : Core) (region : Option UInt8) (address : UInt32) (reason : String)
  | readFailed (chip : Chip) (address : UInt32) (length : Nat) (reason : String)
  /-- The core answered with a code other than success. -/
  | refused (opcode : UInt16) (core : Core) (code : Scp.ResultCode)
  | timeout (opcode : UInt16) (core : Core)
  | malformedReply (opcode : UInt16) (core : Core) (reason : String)
  | transport (reason : String)
  | reportDirectory (path reason : String)
  | disk (reason : String)
  deriving DecidableEq, Repr

/-- Wording of an operation fault. -/
def OperationFault.message : OperationFault → String
  | .streamExhausted none => "Stream already exhausted"
  | .streamExhausted (some tick) => s!"Stream already exhausted after tick {tick}"
  | .writeFailed core region address reason =>
    let target := (region.map toString).getD "-"
    s!"Write of region {target} at 0x{Text.hex 8 address.toNat} on core {core} failed: {reason}"
  | .readFailed chip address length reason =>
    s!"Read of {length} bytes at 0x{Text.hex 8 address.toNat} on chip {chip} failed: {reason}"
  | .refused opcode core code =>
    s!"Command {opcode} to core {core} failed with {code.name} (0x{Text.hex 2 code.toNat})"
  | .timeout opcode core => s!"Command {opcode} to core {core} timed out"
  | .malformedReply opcode core reason =>
    s!"Malformed response to command {opcode} from core {core}: {reason}"
  | .transport reason => s!"Transport error: {reason}"
  | .reportDirectory path reason => s!"Could not create report directory {path}: {reason}"
  | .disk reason => s!"I/O error: {reason}"

mutual

/-- Everything that can go wrong. -/
inductive Fault where
  | configuration (cause : ConfigurationFault)
  | operation (cause : OperationFault)
  /-- Of `total` requests sent as a batch, these failed. -/
  | batch (total : Nat) (failures : List FailedRequest)

/-- A request of a batch and how it failed. -/
structure FailedRequest where
  core : Core
  opcode : UInt16
  fault : Fault

end

namespace Fault

mutual

/-- Wording of a fault. -/
def message : Fault → String
  | .configuration cause => cause.message
  | .operation cause => cause.message
  | .batch total failures =>
    s!"{failures.length} of {total} requests failed: " ++ "; ".intercalate (messages failures)

/-- Wording of each failure of a batch, with the request it belongs to. -/
def messages : List FailedRequest → List String
  | [] => []
  | ⟨core, opcode, fault⟩ :: rest =>
    s!"[{core} cmd {opcode}] {message fault}" :: messages rest

end

mutual

/-- Faults can be compared. -/
def decideEq : (a b : Fault) → Decidable (a = b)
  | .configuration a, .configuration b =>
    if h : a = b then .isTrue (h ▸ rfl) else .isFalse fun e => h (Fault.configuration.inj e)
  | .operation a, .operation b =>
    if h : a = b then .isTrue (h ▸ rfl) else .isFalse fun e => h (Fault.operation.inj e)
  | .batch m as, .batch n bs =>
    match decideEqList as bs with
    | .isTrue h =>
      if k : m = n then .isTrue (by rw [h, k]) else .isFalse fun e => k (Fault.batch.inj e).1
    | .isFalse h => .isFalse fun e => h (Fault.batch.inj e).2
  | .configuration _, .operation _ | .configuration _, .batch .. | .operation _, .configuration _
  | .operation _, .batch .. | .batch .., .configuration _ | .batch .., .operation _ =>
    .isFalse nofun

/-- Lists of failures can be compared. -/
def decideEqList : (as bs : List FailedRequest) → Decidable (as = bs)
  | [], [] => .isTrue rfl
  | ⟨c, o, f⟩ :: as, ⟨d, p, g⟩ :: bs =>
    match decideEq f g, decideEqList as bs with
    | .isTrue h, .isTrue k =>
      if l : c = d ∧ o = p then .isTrue (by rw [h, k, l.1, l.2])
      else .isFalse fun e => l (by cases e; exact ⟨rfl, rfl⟩)
    | .isFalse h, _ => .isFalse fun e => h (by cases e; rfl)
    | _, .isFalse k => .isFalse fun e => k (by cases e; rfl)
  | [], _ :: _ => .isFalse nofun
  | _ :: _, [] => .isFalse nofun

end

instance : DecidableEq Fault := decideEq

/-- True for faults that are found before anything is sent. -/
def isConfiguration : Fault → Bool
  | .configuration _ => true
  | .operation _ | .batch .. => false

/-- The cores whose requests failed, when this is the failure of a batch. -/
def failedCores : Fault → List Core
  | .batch _ failures => failures.map (·.core)
  | .configuration _ | .operation _ => []

/-- A fault of the specification. -/
abbrev specification (cause : SpecificationFault) : Fault := .configuration (.specification cause)

/-- A fault that the transport reports. -/
abbrev transport (reason : String) : Fault := .operation (.transport reason)

end Fault

instance : DecidableEq FailedRequest := fun ⟨c, o, f⟩ ⟨d, p, g⟩ =>
  if h : c = d ∧ o = p ∧ f = g then .isTrue (by rw [h.1, h.2.1, h.2.2])
  else .isFalse fun e => h (by cases e; exact ⟨rfl, rfl, rfl⟩)

/-- The core at the given coordinates, or the fault that its chip has no core of that number. -/
def Core.at (x y p : UInt8) : Except Fault Core :=
  match Core.at? x y p with
  | some core => .ok core
  | none => .error (.configuration (.invalidCore x y p))

instance {α : Type} [DecidableEq α] : DecidableEq (Except Fault α)
  | .ok a, .ok b => if h : a = b then .isTrue (h ▸ rfl) else .isFalse fun e => h (Except.ok.inj e)
  | .error a, .error b =>
    if h : a = b then .isTrue (h ▸ rfl) else .isFalse fun e => h (Except.error.inj e)
  | .ok _, .error _ | .error _, .ok _ => .isFalse nofun

end MeshControl
