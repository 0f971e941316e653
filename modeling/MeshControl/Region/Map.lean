import MeshControl.Bytes
import MeshControl.Fault
import MeshControl.Ordered.Map
import MeshControl.Region.Basic

/-!
# Memory maps and layouts

A `MemoryMap` holds the regions that a core has declared. Within one generation of the map a
region keeps its size; a new generation forgets every declaration. `MemoryMap.layout` places
the regions behind a pointer table:

| offset | field |
|--------|-------|
| 0 | magic number |
| 4 | version |
| 8 + 4 r | address of region r, 0 if it is not declared |
| 72 | the regions by number, each at a whole word |
-/

namespace MeshControl

/-- The word that opens a pointer table. -/
def PointerTable.magic : UInt32 := 0xAD130AD6

/-- The format of a pointer table. -/
def PointerTable.version : UInt32 := 0x00010000

/-- Bytes of a pointer table. -/
def PointerTable.size : Nat := 72

/-- Offset of a region's pointer within the table. -/
def PointerTable.offset (region : RegionId) : UInt32 := 8 + 4 * region.toUInt32

/-- Addresses of the regions of one core. -/
structure RegionLayout where
  /-- Address of the pointer table. -/
  base : UInt32
  /-- Start of every declared region. -/
  addresses : OrderedMap RegionId UInt32
  /-- Bytes from the table to the end of the last region. -/
  totalBytes : UInt32
  deriving DecidableEq

namespace RegionLayout

/-- The pointers of a table, one for each region it has room for. -/
def pointers (layout : RegionLayout) : List UInt32 :=
  (List.range RegionId.limit.toNat).map fun id =>
    (layout.addresses.get? (UInt8.ofNat id)).getD 0

/-- The bytes of the pointer table. -/
def tableBytes (layout : RegionLayout) : Bytes :=
  Bytes.ofWords (PointerTable.magic :: PointerTable.version :: layout.pointers)

end RegionLayout

/-- The declared regions of one core. -/
structure MemoryMap where
  core : Core
  generation : Nat
  regions : OrderedMap RegionId Region
  /-- Every region is filed under its own number. -/
  filed : ∀ {id region}, regions.get? id = some region → region.id = id
  deriving DecidableEq

namespace MemoryMap

/-- A map without declarations. -/
def empty (core : Core) : MemoryMap := ⟨core, 0, .empty, nofun⟩

/-- Forget every declaration, so that new sizes may be declared. -/
def newGeneration (map : MemoryMap) : MemoryMap :=
  { map with generation := map.generation + 1, regions := .empty, filed := nofun }

/-- The declared region of a number. -/
def region? (map : MemoryMap) (id : RegionId) : Option Region := map.regions.get? id

/-- Check that a region may be declared: the table has room for it, and it is not declared with
another size. -/
def check (map : MemoryMap) (region : Region) : Except Fault Unit :=
  if ¬ region.id < RegionId.limit then .error (.specification (.beyondTable region.id))
  else
    match map.region? region.id with
    | some declared =>
      if declared.size = region.size then .ok ()
      else .error (.configuration
        (.regionSizeConflict map.core region.id declared.size region.size))
    | none => .ok ()

/-- Declare a region that may be declared. A region that is declared already stays as it is. -/
def record (map : MemoryMap) (region : Region) : MemoryMap :=
  if map.regions.contains region.id then map
  else { map with
    regions := map.regions.insert region.id region
    filed := fun {id found} h => by
      rw [OrderedMap.get?_insert] at h
      split at h
      · cases h
        assumption
      · exact map.filed h }

/-- Declare a region. -/
def declare (map : MemoryMap) (region : Region) : Except Fault MemoryMap := do
  map.check region
  return map.record region

/-- Declare regions one after the other up to the first fault. -/
def declareAll (map : MemoryMap) : List Region → Except Fault Unit × MemoryMap
  | [] => (.ok (), map)
  | region :: rest =>
    match map.declare region with
    | .ok map => map.declareAll rest
    | .error fault => (.error fault, map)

/-- Declare regions: each of them is checked against the map as it is, and only then are they
declared one after the other. -/
def reserve (map : MemoryMap) (regions : List Region) : Except Fault Unit × MemoryMap :=
  match regions.forM map.check with
  | .ok () => map.declareAll regions
  | .error fault => (.error fault, map)

/-- A number of bytes rounded up to whole words. -/
def wordAligned (size : Nat) : Nat := (size + 3) / 4 * 4

/-- Addresses of regions placed from `cursor` on, and the end of the last. The end may be the
last address and no more. -/
def place (cursor : Nat) : List Region → Except Fault (List (RegionId × UInt32) × Nat)
  | [] => .ok ([], cursor)
  | region :: rest => do
    let after := cursor + wordAligned region.size.toNat
    if UInt32.size ≤ after then throw (.specification .layoutOverflow)
    let (placed, finish) ← place after rest
    return ((region.id, UInt32.ofNat cursor) :: placed, finish)

/-- Place the declared regions by number behind a pointer table at `base`. -/
def layout (map : MemoryMap) (base : UInt32) : Except Fault RegionLayout := do
  let start := base.toNat + PointerTable.size
  if UInt32.size ≤ start then throw (.specification .layoutOverflow)
  let (placed, finish) ← place start map.regions.values
  return ⟨base, .ofList placed, UInt32.ofNat (finish - base.toNat)⟩

end MemoryMap

end MeshControl
