import MeshControl.Bytes
import MeshControl.Fault
import MeshControl.Scp.Command

/-!
# Requests and replies

A datagram opens with a packet header of eight bytes and a command header of four:

| offset | size | field |
|--------|------|-------|
| 0 | 1 | flags: reply expected `0x87`, not expected `0x07` |
| 1 | 1 | tag, `0xFF` on traffic of the host |
| 2 | 1 | destination port and core |
| 3 | 1 | source port and core |
| 4, 5 | 1 each | destination row and column |
| 6, 7 | 1 each | source row and column |
| 8 | 2 | command of a request, result code of a reply |
| 10 | 2 | sequence number |
| 12 | | payload |

Every request expects one reply, which carries the sequence number of the request.
-/

namespace MeshControl.Scp

/-- A port in the high three bits and a core number in the low five bits of one byte. -/
def packPort (port p : UInt8) : UInt8 := (port <<< 5) ||| (p &&& 0x1F)

/-- The port packed in a byte. -/
def packedPort (packed : UInt8) : UInt8 := packed >>> 5

/-- The core number packed in a byte. -/
def packedCore (packed : UInt8) : UInt8 := packed &&& 0x1F

/-- Flags of a packet that expects a reply. -/
def replyExpected : UInt8 := 0x87

/-- Flags of a packet that expects none. -/
def replyNotExpected : UInt8 := 0x07

/-- The tag on packets of the host. -/
def hostTag : UInt8 := 0xFF

/-- The port and core by which packets name the host. -/
def hostPort : UInt8 := 0xFF

/-- The row and column by which packets name the host. -/
def hostChip : UInt8 := 0

/-- The port on which the monitor takes its commands. -/
def monitorPort : UInt8 := 6

/-- The port on which cores take data for their send buffers. -/
def inputPort : UInt8 := 1

/-- Bytes ahead of the payload. -/
def headerSize : Nat := 12

/-- A command addressed to a core. -/
structure Request where
  destination : Core
  port : UInt8
  opcode : Opcode
  deriving DecidableEq, Repr

/-- A reply: its result code, the sequence number of its request, and what follows. -/
structure Reply where
  code : ResultCode
  sequence : UInt16
  payload : Bytes
  deriving DecidableEq, Repr

namespace Request

/-- A command for the monitor at `destination`. -/
def monitor (destination : Core) (command : Command) : Request :=
  ⟨destination, monitorPort, command.opcode⟩

/-- The datagram of a request with its sequence number. -/
def encode (request : Request) (sequence : UInt16) : Bytes :=
  [replyExpected, hostTag, packPort request.port request.destination.p, hostPort,
    request.destination.y, request.destination.x, hostChip, hostChip] ++
    Bytes.ofHalf request.opcode ++ Bytes.ofHalf sequence

/-- The request of a datagram, with its sequence number. -/
def decode : Bytes → Except Fault (Request × UInt16)
  | _ :: _ :: port :: _ :: y :: x :: _ :: _ :: o₀ :: o₁ :: s₀ :: s₁ :: _ => do
    let destination ← Core.at x y (packedCore port)
    return (⟨destination, packedPort port, Bytes.half o₀ o₁⟩, Bytes.half s₀ s₁)
  | datagram => .error (.transport s!"SCP request too short: {datagram.length} bytes")

end Request

namespace Reply

/-- The datagram of a reply without payload from `source` to the host. -/
def encode (source : Core) (code : ResultCode) (sequence : UInt16) : Bytes :=
  [replyNotExpected, hostTag, hostPort, packPort monitorPort source.p, hostChip, hostChip,
    source.y, source.x] ++ Bytes.ofHalf code ++ Bytes.ofHalf sequence

/-- A reply to `request` that makes no sense. -/
def malformed (request : Request) (reason : String) : Fault :=
  .operation (.malformedReply request.opcode request.destination reason)

/-- The reply to `request`, which was sent with the given sequence number. -/
def decode (request : Request) (sequence : UInt16) : Bytes → Except Fault Reply
  | _ :: _ :: _ :: _ :: _ :: _ :: _ :: _ :: c₀ :: c₁ :: s₀ :: s₁ :: payload =>
    let got := Bytes.half s₀ s₁
    if got = sequence then .ok ⟨Bytes.half c₀ c₁, got, payload⟩
    else .error (malformed request s!"sequence {got} does not match request {sequence}")
  | datagram =>
    .error (malformed request s!"{datagram.length} bytes is shorter than the SCP header")

/-- Check that a reply reports success. -/
def check (reply : Reply) (request : Request) : Except Fault Unit :=
  if reply.code = ResultCode.ok then .ok ()
  else .error (.operation (.refused request.opcode request.destination reply.code))

end Reply

end MeshControl.Scp
