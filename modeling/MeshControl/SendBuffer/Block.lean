import MeshControl.Bytes
import MeshControl.Key.Block
import MeshControl.Timing

/-!
# Timed key blocks

The keys to send at one tick travel as timed key blocks:

| offset | size | field |
|--------|------|-------|
| 0 | 2 | header `0x4005` |
| 2 | 2 | number of keys, at most 65535 |
| 4 | 4 | tick |
| 8 | 4 each | keys |

A tick with more keys takes several blocks, one after the other.
-/

namespace MeshControl.SendBuffer

/-- The half word that opens a timed key block. -/
def blockHeader : UInt16 := 0x4005

/-- Bytes ahead of the keys of a block. -/
def blockOverhead : Nat := 8

/-- The largest number of keys in one block. -/
def keysPerBlock : Nat := 65535

/-- Bytes of one block of `keyCount` keys. -/
def blockSize (keyCount : Nat) : Nat := blockOverhead + 4 * keyCount

/-- Bytes that the `keyCount` keys of one tick take, in as many blocks as they need. -/
def tickSize (keyCount : Nat) : Nat :=
  let blocks := max ((keyCount + (keysPerBlock - 1)) / keysPerBlock) 1
  blockSize keyCount + (blocks - 1) * blockOverhead

/-- One block: its header, its count, its tick and its keys. -/
def encodeBlock (tick : Tick) (keys : List Key) : Bytes :=
  Bytes.ofHalf blockHeader ++ Bytes.ofHalf (UInt16.ofNat keys.length) ++ Bytes.ofWord tick ++
    Bytes.ofWords keys

/-- The keys of one tick, split into blocks of which every one but the last is full. -/
def keyBlocks : List Key → List (List Key)
  | [] => []
  | key :: rest =>
    (key :: rest).take keysPerBlock :: keyBlocks ((key :: rest).drop keysPerBlock)
termination_by keys => keys.length
decreasing_by
  rw [List.length_drop, List.length_cons, keysPerBlock]
  omega

/-- The blocks of one tick, one after the other. No keys need no block. -/
def encodeTick (tick : Tick) (keys : List Key) : Bytes :=
  (keyBlocks keys).flatMap (encodeBlock tick)

end MeshControl.SendBuffer
