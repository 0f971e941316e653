import MeshControl.SendBuffer.Basic

/-!
# Filling a send buffer from a schedule

A schedule gives the times at which keys are sent, either one list of times for each key of
the channel or one list for all of them. `Schedule.sendings` spells out what is sent at which
tick of the active window, and `SendBuffer.fill` adds all of it. How a time becomes a tick is
a parameter, so nothing here depends on how times are measured.
-/

namespace MeshControl

/-- Times at which the keys of a channel are sent. -/
inductive Schedule (τ : Type) where
  /-- One list of times for each key. -/
  | perKey (times : List (List τ))
  /-- One list of times at which every key is sent. -/
  | shared (times : List τ)

namespace Schedule

variable {τ : Type}

/-- True if no time is given at all. -/
def isEmpty : Schedule τ → Bool
  | .perKey times => times.all List.isEmpty
  | .shared times => times.isEmpty

/-- Number of times that concern a channel of `count` keys. -/
def timeCount (count : Nat) : Schedule τ → Nat
  | .perKey times => (times.take count).flatten.length
  | .shared times => times.length

/-- The ticks inside the window at which the given times fall, in the order of the times. -/
def windowTicks (tickOf : τ → Option Tick) (timing : Timing) (times : List τ) : List Tick :=
  times.filterMap fun time => (tickOf time).filter timing.inWindow

/-- The keys of a channel: `count` of them from `base` on, around the end of the key space. -/
def channelKeys (base : Key) (count : Nat) : List Key :=
  (List.range count).map fun channel => base + UInt32.ofNat channel

/-- What a channel of `count` keys from `base` on sends inside the window: the keys to add, by
tick. Lists of times beyond the channel are left out. -/
def sendings (schedule : Schedule τ) (tickOf : τ → Option Tick) (timing : Timing)
    (base : Key) (count : Nat) : List (Tick × List Key) :=
  match schedule with
  | .perKey times => (times.take count).zipIdx.flatMap fun (channelTimes, channel) =>
      (windowTicks tickOf timing channelTimes).map fun tick => (tick, [base + UInt32.ofNat channel])
  | .shared times =>
      (windowTicks tickOf timing times).map fun tick => (tick, channelKeys base count)

end Schedule

namespace SendBuffer

/-- Outcome of a fill: keys inserted, and times dropped for having no tick in the window. -/
structure FillCount where
  inserted : Nat
  dropped : Nat
  deriving DecidableEq, Repr

/-- Add the keys of each pair at its tick. -/
def addAll (buffer : SendBuffer) (sendings : List (Tick × List Key)) : SendBuffer :=
  sendings.foldl (fun buffer sending => buffer.addKeys sending.1 sending.2) buffer

/-- Replace the contents by what `schedule` sends inside the window. -/
def fill {τ : Type} (buffer : SendBuffer) (tickOf : τ → Option Tick) (timing : Timing)
    (schedule : Schedule τ) (base : Key) (count : UInt32) : SendBuffer × FillCount :=
  let sendings := schedule.sendings tickOf timing base count.toNat
  (buffer.clear.addAll sendings,
    { inserted := (sendings.flatMap Prod.snd).length
      dropped := schedule.timeCount count.toNat - sendings.length })

end SendBuffer

end MeshControl
