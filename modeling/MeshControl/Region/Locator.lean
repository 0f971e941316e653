import MeshControl.Region.Map
import MeshControl.Transport

/-!
# Finding the regions of a core

The address of a region is either known ahead of time or read back from the pointer table of
its core. A `Locator` does one or the other.
-/

namespace MeshControl

/-- How the regions of cores are found. -/
inductive Locator where
  /-- Addresses known ahead of time. -/
  | known (addresses : OrderedMap (Core × RegionId) UInt32)
  /-- Pointer tables at known places, read anew for every look-up. -/
  | pointerTables (bases : OrderedMap Core UInt32)

namespace Locator

/-- Addresses together with those of a core's layout. -/
def addLayout (addresses : OrderedMap (Core × RegionId) UInt32) (core : Core)
    (layout : RegionLayout) : OrderedMap (Core × RegionId) UInt32 :=
  addresses.insertAll (layout.addresses.entries.map fun (region, address) =>
    ((core, region), address))

/-- The locator of the regions of one layout. -/
def ofLayout (core : Core) (layout : RegionLayout) : Locator :=
  .known (addLayout .empty core layout)

variable {σ : Type} [Transport σ]

/-- The fault that a region is not there. -/
def notReserved (core : Core) (region : RegionId) : Fault :=
  .configuration (.regionNotReserved core region)

/-- The address of a region in the pointer table at `base`. -/
def readPointer (core : Core) (region : RegionId) (base : UInt32) : Action σ UInt32 := do
  let magic ← Transport.readWord core.chip base
  if magic ≠ PointerTable.magic then
    throw (Transport.readFault core.chip base 4
      s!"bad pointer table magic 0x{Text.hex 8 magic.toNat}")
  let address ← Transport.readWord core.chip (base + PointerTable.offset region)
  if address = 0 then throw (notReserved core region)
  return address

/-- The address of a region on a core. -/
def locate (locator : Locator) (core : Core) (region : RegionId) : Action σ UInt32 :=
  match locator with
  | .known addresses =>
    match addresses.get? (core, region) with
    | some address => return address
    | none => throw (notReserved core region)
  | .pointerTables bases =>
    match bases.get? core with
    | some base =>
      if region < RegionId.limit then readPointer core region base
      else throw (notReserved core region)
    | none => throw (notReserved core region)

end Locator

end MeshControl
