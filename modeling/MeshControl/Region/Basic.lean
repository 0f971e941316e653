/-!
# Regions of a core's memory

The memory of a core is split into at most sixteen numbered regions.
-/

namespace MeshControl

/-- The number of a region, which is its place in the pointer table. -/
abbrev RegionId := UInt8

/-- Regions that a core may declare. -/
def RegionId.limit : UInt8 := 16

/-- A declared region. -/
structure Region where
  id : RegionId
  /-- Reserved bytes. -/
  size : UInt32
  label : String
  /-- Reserved, and left as it is by the specification. -/
  unfilled : Bool
  deriving DecidableEq, Repr

end MeshControl
