import MeshControl.Key.Allocation
import MeshControl.Tag
import MeshControl.Timing

/-!
# What a vertex is told when its regions are made

The timing of the run, the tags that were allocated for it, and the key that routing assigned.
-/

namespace MeshControl

/-- The context in which the contents of regions are made. -/
structure Context where
  timing : Timing
  ipTags : List IpTag := []
  /-- Key and mask assigned by routing, for vertices that ask for no key of their own. -/
  routed : Option Key.Pattern := none
  deriving DecidableEq

namespace Context

/-- The words with which every vertex tells its core the timing of the run. -/
def timingWords (context : Context) : List UInt32 :=
  [context.timing.stepMicros, context.timing.scale, context.timing.runLength]

end Context

/-- A number for a truth value, as configuration regions store it. -/
def flagWord (flag : Bool) : UInt32 := if flag then 1 else 0

end MeshControl
