/-!
# Simulation time

A run advances in ticks of a fixed length and is active in a window of ticks that includes its
first tick and excludes its last. Events are scheduled in milliseconds; an event belongs to the
tick in which it has happened (`Timing.tickOf`).
-/

namespace MeshControl

/-- A step of simulation time. -/
abbrev Tick := UInt32

/-- Timing of a run. -/
structure Timing where
  /-- Length of a tick in microseconds. -/
  stepMicros : UInt32
  /-- Slow-down against real time. -/
  scale : UInt32
  /-- First tick of the active window. -/
  first : Tick
  /-- End of the active window, itself outside, if the run is bounded. -/
  last : Option Tick
  deriving DecidableEq, Repr

namespace Timing

/-- An unbounded run from tick 0; step and slow-down are at least 1. -/
def unbounded (stepMicros scale : UInt32) : Timing :=
  ⟨max stepMicros 1, max scale 1, 0, none⟩

/-- Ticks of one millisecond in real time. -/
def standard : Timing := unbounded 1000 1

/-- The same run with another window. -/
def withWindow (timing : Timing) (first : Tick) (last : Option Tick) : Timing :=
  { timing with first, last }

/-- True if `tick` is inside the active window. -/
def inWindow (timing : Timing) (tick : Tick) : Bool :=
  timing.first ≤ tick && match timing.last with
    | some last => tick < last
    | none => true

/-- Ticks in the window; an unbounded run counts the largest number. -/
def runLength (timing : Timing) : UInt32 :=
  match timing.last with
  | some last => if timing.first ≤ last then last - timing.first else 0
  | none => 0xFFFFFFFF

/-- The largest whole number up to a number that is not negative. From 2^53 on all are whole. -/
def wholeBelow (number : Float) : Float :=
  if number < 9007199254740992 then number.toUInt64.toFloat else number

/-- The smallest whole number from a number that is not negative on. -/
def wholeAbove (number : Float) : Float :=
  let below := wholeBelow number
  if below < number then below + 1 else below

/-- The tick of a time in milliseconds: whole microseconds, divided by the length of a tick and
rounded up. Times that are negative or not finite, and those past the last tick, have none. -/
def tickOf (timing : Timing) (milliseconds : Float) : Option Tick :=
  if !milliseconds.isFinite || milliseconds < 0 then none
  else
    let micros := wholeBelow (milliseconds * 1000)
    let tick := wholeAbove (micros / timing.stepMicros.toNat.toFloat)
    if tick > 4294967295 then none else some tick.toUInt32

end Timing

end MeshControl
