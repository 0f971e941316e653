import Mathlib.Data.List.GetD
import MeshControl.Proofs.SendBuffer.Contents

/-!
# What a fill leaves in a buffer

What a schedule sends at a tick does not depend on the window (`Schedule.keysAt`): the window only
says whether the tick is taken (`sentAt_sendings`). At the ticks that are, a filled buffer has the
keys that the schedule sends then, in that order (`mem_entries_fill`), and these are the keys of the
channels with a time that falls to the tick (`mem_keysAt?_fill`).
-/

namespace MeshControl

namespace Timing

/-- A tick of the window: the first or a later one, and before the last if there is one. -/
def Within (timing : Timing) (tick : Tick) : Prop :=
  timing.first ≤ tick ∧ ∀ last ∈ timing.last, tick < last

theorem inWindow_iff (timing : Timing) (tick : Tick) :
    timing.inWindow tick = true ↔ timing.Within tick := by
  rw [inWindow, Within, Bool.and_eq_true, decide_eq_true_eq]
  cases timing.last with
  | none => exact and_congr_right fun _ => ⟨fun _ => nofun, fun _ => rfl⟩
  | some last =>
    refine and_congr_right fun _ => ⟨fun below other same => ?_, fun below => ?_⟩
    · cases same
      exact of_decide_eq_true below
    · exact decide_eq_true (below last rfl)

instance (timing : Timing) : DecidablePred timing.Within := fun tick =>
  decidable_of_iff (timing.inWindow tick = true) (timing.inWindow_iff tick)

end Timing

namespace SendBuffer

/-- The keys that are sent at a tick, in order. -/
def sentAt (sendings : List (Tick × List Key)) (tick : Tick) : List Key :=
  (sendings.filter fun sending => sending.1 = tick).flatMap Prod.snd

theorem keysAt?_addKeys (buffer : SendBuffer) (tick probe : Tick) (keys : List Key) :
    ((buffer.addKeys tick keys).keysAt? probe).getD [] =
      (buffer.keysAt? probe).getD [] ++ if tick = probe then keys else [] := by
  unfold addKeys
  split
  · rename_i none
    rw [List.isEmpty_iff.1 none, ite_self, List.append_nil]
  · rw [keysAt?, OrderedMap.get?_insert]
    by_cases same : tick = probe
    · rw [if_pos same, if_pos same, Option.getD_some, same]
    · rw [if_neg same, if_neg same, List.append_nil, keysAt?]

/-- **What additions leave at a tick**: the keys that were there, and then what was added for it,
in the order of the additions. -/
theorem keysAt?_addAll (buffer : SendBuffer) (sendings : List (Tick × List Key)) (probe : Tick) :
    ((buffer.addAll sendings).keysAt? probe).getD [] =
      (buffer.keysAt? probe).getD [] ++ sentAt sendings probe := by
  induction sendings generalizing buffer with
  | nil => rw [sentAt, List.filter_nil, List.flatMap_nil, List.append_nil]; rfl
  | cons sending rest ih =>
    have later := ih (buffer.addKeys sending.1 sending.2)
    rw [keysAt?_addKeys, List.append_assoc] at later
    refine later.trans ?_
    congr 1
    rw [sentAt, sentAt, List.filter_cons]
    by_cases same : sending.1 = probe
    · simp only [same, if_true, decide_true, List.flatMap_cons]
    · simp only [same, if_false, decide_false, Bool.false_eq_true, List.nil_append]

/-- A fill replaces what was there by what the schedule sends. -/
theorem keysAt?_fill {τ : Type} (buffer : SendBuffer) (tickOf : τ → Option Tick) (timing : Timing)
    (schedule : Schedule τ) (base : Key) (count : UInt32) (tick : Tick) :
    ((buffer.fill tickOf timing schedule base count).1.keysAt? tick).getD [] =
      sentAt (schedule.sendings tickOf timing base count.toNat) tick :=
  keysAt?_addAll buffer.clear _ tick

end SendBuffer

namespace Schedule

variable {τ : Type} (tickOf : τ → Option Tick) (timing : Timing) (base : Key) (count : Nat)
  (tick : Tick)

/-- How many of the given times fall to a tick. -/
def occurrences (times : List τ) : Nat := times.countP fun time => tickOf time = some tick

/-- What a schedule sends at a tick, with the keys of the channel numbered from the base key on. Of
lists for the keys, each that belongs to the channel adds its key as often as one of its times falls
to the tick. One list for all adds the keys in turn, as often as one of its times does. -/
def keysAt (schedule : Schedule τ) : List Key :=
  match schedule with
  | .perKey times => (List.range (min count times.length)).flatMap fun channel =>
      List.replicate (occurrences tickOf tick (times.getD channel [])) (base + UInt32.ofNat channel)
  | .shared times => (List.replicate (occurrences tickOf tick times)
      ((List.range count).map fun channel => base + UInt32.ofNat channel)).flatten

/-- A channel is to send at a tick: a time of its own list, or of the one list for all, falls to the
tick. -/
def Sends (schedule : Schedule τ) (channel : Nat) : Prop :=
  match schedule with
  | .perKey times => ∃ list, times[channel]? = some list ∧ ∃ time ∈ list, tickOf time = some tick
  | .shared times => ∃ time ∈ times, tickOf time = some tick

theorem occurrences_ne_zero (times : List τ) :
    occurrences tickOf tick times ≠ 0 ↔ ∃ time ∈ times, tickOf time = some tick := by
  rw [occurrences, ← Nat.pos_iff_ne_zero, List.countP_pos_iff]
  simp only [decide_eq_true_eq]

/-- **Whose keys are sent at a tick**: those of the channels that are to send then. -/
theorem mem_keysAt {schedule : Schedule τ} {key : Key} :
    key ∈ schedule.keysAt tickOf base count tick ↔
      ∃ channel < count, schedule.Sends tickOf tick channel ∧ key = base + UInt32.ofNat channel := by
  cases schedule with
  | perKey times =>
    simp only [keysAt, List.mem_flatMap, List.mem_range, List.mem_replicate, occurrences_ne_zero]
    constructor
    · rintro ⟨channel, few, sends, same⟩
      have listed : channel < times.length := by omega
      rw [List.getD_eq_getElem _ _ listed] at sends
      exact ⟨channel, by omega, ⟨_, List.getElem?_eq_getElem listed, sends⟩, same⟩
    · rintro ⟨channel, few, ⟨list, own, sends⟩, same⟩
      obtain ⟨listed, rfl⟩ := List.getElem?_eq_some_iff.1 own
      refine ⟨channel, by omega, ?_, same⟩
      rwa [List.getD_eq_getElem _ _ listed]
  | shared times =>
    simp only [keysAt, List.mem_flatten, List.mem_replicate, occurrences_ne_zero]
    constructor
    · rintro ⟨_, ⟨sends, rfl⟩, member⟩
      obtain ⟨channel, few, rfl⟩ := List.mem_map.1 member
      exact ⟨channel, List.mem_range.1 few, sends, rfl⟩
    · rintro ⟨channel, few, sends, rfl⟩
      exact ⟨_, ⟨sends, rfl⟩, List.mem_map_of_mem (List.mem_range.2 few)⟩

/-- The lists that belong to a channel, with their numbers. -/
theorem zipIdx_take (times : List (List τ)) :
    (times.take count).zipIdx =
      (List.range (min count times.length)).map fun channel => (times.getD channel [], channel) := by
  apply List.ext_getElem
  · simp
  · intro channel inside _
    rw [List.length_zipIdx, List.length_take] at inside
    have listed : channel < times.length := by omega
    simp [listed]

/-- A window takes all the times that fall to a tick, or none. -/
theorem count_windowTicks (times : List τ) :
    (windowTicks tickOf timing times).count tick =
      if timing.Within tick then occurrences tickOf tick times else 0 := by
  rw [windowTicks, List.count_filterMap, occurrences]
  split
  · rename_i inside
    apply List.countP_congr
    intro time _
    rw [beq_iff_eq, decide_eq_true_eq, Option.filter_eq_some_iff, Timing.inWindow_iff]
    exact and_iff_left inside
  · rename_i outside
    apply List.countP_eq_zero.2
    intro time _ found
    rw [beq_iff_eq, Option.filter_eq_some_iff, Timing.inWindow_iff] at found
    exact outside found.2

/-- What is sent at a tick if the same keys are sent at each of some ticks. -/
theorem sentAt_map_pair (ticks : List Tick) (keys : List Key) :
    SendBuffer.sentAt (ticks.map fun tick => (tick, keys)) tick =
      (List.replicate (ticks.count tick) keys).flatten := by
  induction ticks with
  | nil => rfl
  | cons head rest ih =>
    rw [SendBuffer.sentAt, List.map_cons, List.filter_cons, List.count_cons]
    by_cases same : head = tick
    · simp only [same, decide_true, if_true, beq_self_eq_true, List.flatMap_cons,
        List.replicate_succ, List.flatten_cons]
      exact congrArg (keys ++ ·) ih
    · simp only [same, decide_false, Bool.false_eq_true, if_false, beq_iff_eq, Nat.add_zero]
      exact ih

theorem sentAt_flatMap {α : Type} (items : List α) (sends : α → List (Tick × List Key)) :
    SendBuffer.sentAt (items.flatMap sends) tick =
      items.flatMap fun item => SendBuffer.sentAt (sends item) tick := by
  simp only [SendBuffer.sentAt, List.filter_flatMap, List.flatMap_assoc]

/-- **What is sent at a tick.** Inside of the window it is what the schedule sends then, outside it
is nothing. -/
theorem sentAt_sendings (schedule : Schedule τ) :
    SendBuffer.sentAt (schedule.sendings tickOf timing base count) tick =
      if timing.Within tick then schedule.keysAt tickOf base count tick else [] := by
  cases schedule with
  | perKey times =>
    rw [sendings, sentAt_flatMap, zipIdx_take, List.flatMap_map]
    simp only [sentAt_map_pair, count_windowTicks]
    split
    · simp only [keysAt, List.flatten_replicate_singleton]
    · simp
  | shared times =>
    rw [sendings, sentAt_map_pair, count_windowTicks]
    split
    · rfl
    · rfl

end Schedule

namespace SendBuffer

variable {τ : Type} (buffer : SendBuffer) (tickOf : τ → Option Tick) (timing : Timing)
  (schedule : Schedule τ) (base : Key) (count : UInt32)

/-- **The ticks of a filled buffer** are those of the window at which something is sent. -/
theorem mem_entries_fill (tick : Tick) (keys : List Key) :
    (tick, keys) ∈ (buffer.fill tickOf timing schedule base count).1.ticks.entries ↔
      timing.Within tick ∧ schedule.keysAt tickOf base count.toNat tick = keys ∧ keys ≠ [] := by
  have full : (buffer.fill tickOf timing schedule base count).1.NoEmptyTick :=
    (noEmptyTick_empty buffer.capacity).addAll _
  have sent := keysAt?_fill buffer tickOf timing schedule base count tick
  rw [Schedule.sentAt_sendings] at sent
  constructor
  · intro member
    have some := full _ member
    have found := (OrderedMap.mem_entries_iff _ _ _).1 member
    rw [keysAt?, found, Option.getD_some] at sent
    split at sent
    · rename_i inside
      exact ⟨inside, sent.symm, some⟩
    · exact absurd sent some
  · rintro ⟨inside, rfl, some⟩
    rw [if_pos inside] at sent
    rw [OrderedMap.mem_entries_iff]
    show keysAt? _ tick = _
    cases found : keysAt? (buffer.fill tickOf timing schedule base count).1 tick with
    | none =>
      rw [found] at sent
      exact absurd sent.symm some
    | some keys =>
      rw [found, Option.getD_some] at sent
      rw [sent]

/-- A key is in a filled buffer at the ticks of the window at which its channel is to send. -/
theorem mem_keysAt?_fill (tick : Tick) (key : Key) :
    (∃ keys, (buffer.fill tickOf timing schedule base count).1.keysAt? tick = some keys ∧
        key ∈ keys) ↔
      timing.Within tick ∧ ∃ channel < count.toNat,
        schedule.Sends tickOf tick channel ∧ key = base + UInt32.ofNat channel := by
  rw [← Schedule.mem_keysAt]
  simp only [keysAt?, ← OrderedMap.mem_entries_iff, mem_entries_fill]
  constructor
  · rintro ⟨_, ⟨inside, rfl, -⟩, member⟩
    exact ⟨inside, member⟩
  · rintro ⟨inside, member⟩
    exact ⟨_, ⟨inside, rfl, List.ne_nil_of_mem member⟩, member⟩

end SendBuffer

end MeshControl
