import MeshControl.Ordered.Map
import MeshControl.SendBuffer.Block

/-!
# Keys to send, by tick

A `SendBuffer` is the host's copy of the events that a core will emit. It is filled before a
run and only read while streaming: `SendBuffer.pack` takes as many whole ticks as fit in a
given space.
-/

namespace MeshControl

/-- Keys to send, by tick, for a core that holds `capacity` bytes of them at once. -/
structure SendBuffer where
  capacity : UInt32
  ticks : OrderedMap Tick (List Key)
  /-- Running count of the keys of all ticks. -/
  keyCount : Nat
  deriving DecidableEq

namespace SendBuffer

/-- What was packed: the encoded blocks, how many ticks they hold, and the first tick that is
left, if any. -/
structure Chunk where
  bytes : Bytes
  tickCount : Nat
  next : Option Tick
  deriving DecidableEq, Repr

/-- A buffer with no keys. -/
def empty (capacity : UInt32) : SendBuffer := ⟨capacity, .empty, 0⟩

/-- The keys at exactly `tick`. -/
def keysAt? (buffer : SendBuffer) (tick : Tick) : Option (List Key) := buffer.ticks.get? tick

/-- Add keys at the end of a tick. Adding no keys makes no tick. -/
def addKeys (buffer : SendBuffer) (tick : Tick) (keys : List Key) : SendBuffer :=
  if keys.isEmpty then buffer
  else
    { buffer with
      ticks := buffer.ticks.insert tick ((buffer.keysAt? tick).getD [] ++ keys)
      keyCount := buffer.keyCount + keys.length }

/-- Add one key at the end of a tick. -/
def addKey (buffer : SendBuffer) (tick : Tick) (key : Key) : SendBuffer :=
  { buffer with
    ticks := buffer.ticks.insert tick ((buffer.keysAt? tick).getD [] ++ [key])
    keyCount := buffer.keyCount + 1 }

/-- Remove every key. -/
def clear (buffer : SendBuffer) : SendBuffer := empty buffer.capacity

/-- True if no tick has keys. -/
def isEmpty (buffer : SendBuffer) : Bool := buffer.ticks.isEmpty

/-- Number of ticks with keys. -/
def tickCount (buffer : SendBuffer) : Nat := buffer.ticks.size

/-- The earliest tick with keys. -/
def firstTick? (buffer : SendBuffer) : Option Tick := buffer.ticks.firstKey?

/-- The latest tick with keys. -/
def lastTick? (buffer : SendBuffer) : Option Tick := buffer.ticks.lastKey?

/-- Encoded size of the keys at `tick`. -/
def bytesAt? (buffer : SendBuffer) (tick : Tick) : Option Nat :=
  (buffer.keysAt? tick).map fun keys => tickSize keys.length

/-- Ticks with their keys, ascending, from `tick` on. -/
def ticksFrom (buffer : SendBuffer) (tick : Tick) : List (Tick × List Key) :=
  buffer.ticks.entriesFrom tick

/-- Encoded size of the whole buffer. -/
def bytesRequired (buffer : SendBuffer) : Nat :=
  buffer.ticks.values.foldr (fun keys total => tickSize keys.length + total) 0

/-- True if the core can hold the whole buffer at once. -/
def fits (buffer : SendBuffer) : Bool := buffer.bytesRequired ≤ buffer.capacity.toNat

/-- Pack ticks in the order given while each fits whole in the space that is left. -/
def packTicks (space : Nat) : List (Tick × List Key) → Chunk
  | [] => ⟨[], 0, none⟩
  | (tick, keys) :: rest =>
    let size := tickSize keys.length
    if size ≤ space then
      let chunk := packTicks (space - size) rest
      ⟨encodeTick tick keys ++ chunk.bytes, chunk.tickCount + 1, chunk.next⟩
    else ⟨[], 0, some tick⟩

/-- Pack whole ticks, from `tick` on, into at most `space` bytes. -/
def pack (buffer : SendBuffer) (tick : Tick) (space : Nat) : Chunk :=
  packTicks space (buffer.ticksFrom tick)

/-- Pack as `packAll` does, into at most `limit` chunks. -/
def packUpTo (buffer : SendBuffer) (limit : Nat) (tick : Tick) (space : Nat) : List Chunk :=
  match limit with
  | 0 => []
  | limit + 1 =>
    let chunk := buffer.pack tick space
    match chunk.next with
    | some next =>
      chunk :: if chunk.tickCount = 0 then [] else buffer.packUpTo limit next space
    | none => [chunk]

/-- Pack everything from `tick` on into chunks of at most `space` bytes. A tick that does not fit
into any chunk ends this with an empty one. Every other chunk takes a tick, so there are at most
as many chunks as ticks and one more. -/
def packAll (buffer : SendBuffer) (tick : Tick) (space : Nat) : List Chunk :=
  buffer.packUpTo (buffer.tickCount + 1) tick space

end SendBuffer

end MeshControl
