import Mathlib.Data.List.Perm.Basic
import MeshControl.Proofs.SendBuffer.Windows

/-!
# What a fill counts

A fill makes the same of a schedule whatever the buffer held before and in whatever order times are
listed (`fill_determined`). It inserts as many keys as the buffer then holds, since every addition
keeps the running count right (`Counted.addKeys`), and it drops the times that fall to no tick of
the window (`Schedule.length_sendings`).
-/

namespace MeshControl

namespace OrderedMap

variable {κ ν : Type} [SortKey κ] [DecidableEq κ]

omit [DecidableEq κ] in
/-- A map is what it lists. -/
theorem eq_of_entries {a b : OrderedMap κ ν} (same : a.entries = b.entries) : a = b := by
  cases a
  cases b
  cases same
  rfl

/-- Nothing is listed under a key ahead of the first. -/
theorem lookupEntry_of_before {key : κ} {head : κ × ν} {rest : List (κ × ν)}
    (ascending : (head :: rest).Pairwise fun a b => SortKey.before a.1 b.1)
    (first : SortKey.before key head.1) : lookupEntry key (head :: rest) = none := by
  cases found : lookupEntry key (head :: rest) with
  | none => rfl
  | some value =>
    rcases List.mem_cons.1 (mem_of_lookupEntry found) with same | later
    · rw [← same] at first
      exact absurd first (SortKey.irrefl key)
    · have above := (List.pairwise_cons.1 ascending).1 _ later
      exact absurd (SortKey.trans first above) (SortKey.irrefl key)

end OrderedMap

namespace SendBuffer

/-! ## The running count -/

/-- Number of keys of some ticks. -/
def keysHeld (entries : List (Tick × List Key)) : Nat := (entries.flatMap Prod.snd).length

theorem keysHeld_cons (entry : Tick × List Key) (rest : List (Tick × List Key)) :
    keysHeld (entry :: rest) = entry.2.length + keysHeld rest := by
  rw [keysHeld, List.flatMap_cons, List.length_append, keysHeld]

/-- Adding keys at the end of a tick adds their number. -/
theorem keysHeld_insertEntry {entries : List (Tick × List Key)}
    (ascending : entries.Pairwise fun a b => SortKey.before a.1 b.1) (tick : Tick)
    (more : List Key) :
    keysHeld (OrderedMap.insertEntry tick
        ((OrderedMap.lookupEntry tick entries).getD [] ++ more) entries) =
      keysHeld entries + more.length := by
  induction entries with
  | nil => rw [OrderedMap.insertEntry, keysHeld_cons, Nat.add_comm]; rfl
  | cons head rest ih =>
    by_cases first : SortKey.before tick head.1
    · rw [OrderedMap.lookupEntry_of_before ascending first, OrderedMap.insertEntry, if_pos first,
        keysHeld_cons, Nat.add_comm]
      rfl
    by_cases later : SortKey.before head.1 tick
    · have other : head.1 ≠ tick := SortKey.ne later
      have tail := ih (List.pairwise_cons.1 ascending).2
      rw [OrderedMap.lookupEntry, if_neg other, OrderedMap.insertEntry, if_neg first, if_pos later,
        keysHeld_cons, keysHeld_cons, tail, Nat.add_assoc]
    · have same : head.1 = tick := SortKey.total later first
      rw [OrderedMap.lookupEntry, if_pos same, OrderedMap.insertEntry, if_neg first, if_neg later,
        keysHeld_cons, keysHeld_cons, Option.getD_some, List.length_append]
      omega

/-- The running count is the number of keys that are held. -/
def Counted (buffer : SendBuffer) : Prop := buffer.keyCount = keysHeld buffer.ticks.entries

theorem counted_empty (capacity : UInt32) : (empty capacity).Counted := rfl

/-- A buffer that counts right is determined by its size and what it holds. -/
theorem Counted.eq_of_entries {a b : SendBuffer} (first : a.Counted) (second : b.Counted)
    (capacity : a.capacity = b.capacity) (entries : a.ticks.entries = b.ticks.entries) : a = b := by
  have keyCount : a.keyCount = b.keyCount := by rw [first, second, entries]
  have ticks : a.ticks = b.ticks := OrderedMap.eq_of_entries entries
  cases a
  cases b
  simp only at capacity ticks keyCount
  rw [capacity, ticks, keyCount]

theorem Counted.addKeys {buffer : SendBuffer} (counted : buffer.Counted) (tick : Tick)
    (keys : List Key) : (buffer.addKeys tick keys).Counted := by
  unfold SendBuffer.addKeys
  split
  · exact counted
  · exact (congrArg (· + keys.length) counted).trans
      (keysHeld_insertEntry buffer.ticks.ascending tick keys).symm

theorem Counted.addKey {buffer : SendBuffer} (counted : buffer.Counted) (tick : Tick) (key : Key) :
    (buffer.addKey tick key).Counted :=
  counted.addKeys tick [key]

theorem Counted.addAll {buffer : SendBuffer} (counted : buffer.Counted)
    (sendings : List (Tick × List Key)) : (buffer.addAll sendings).Counted := by
  induction sendings generalizing buffer with
  | nil => exact counted
  | cons sending rest ih => exact ih (counted.addKeys sending.1 sending.2)

theorem keyCount_addKeys (buffer : SendBuffer) (tick : Tick) (keys : List Key) :
    (buffer.addKeys tick keys).keyCount = buffer.keyCount + keys.length := by
  unfold addKeys
  split
  · rename_i none
    rw [List.isEmpty_iff.1 none, List.length_nil, Nat.add_zero]
  · rfl

theorem keyCount_addAll (buffer : SendBuffer) (sendings : List (Tick × List Key)) :
    (buffer.addAll sendings).keyCount = buffer.keyCount + keysHeld sendings := by
  induction sendings generalizing buffer with
  | nil => rfl
  | cons sending rest ih =>
    rw [keysHeld_cons, ← Nat.add_assoc, ← keyCount_addKeys]
    exact ih (buffer.addKeys sending.1 sending.2)

end SendBuffer

/-! ## The times of a schedule -/

namespace Schedule

variable {τ : Type} (tickOf : τ → Option Tick) (timing : Timing) (base : Key) (count : Nat)

/-- The times that concern a channel of `count` keys. -/
def considered (count : Nat) : Schedule τ → List τ
  | .perKey times => (times.take count).flatten
  | .shared times => times

theorem timeCount_eq (schedule : Schedule τ) :
    schedule.timeCount count = (schedule.considered count).length := by
  cases schedule with
  | perKey times => rfl
  | shared times => rfl

/-- Something is sent once for each time with a tick in the window, in the order of the times. -/
theorem map_fst_sendings (schedule : Schedule τ) :
    (schedule.sendings tickOf timing base count).map Prod.fst =
      windowTicks tickOf timing (schedule.considered count) := by
  have own : ∀ (ticks : List Tick) (keys : List Key),
      (ticks.map fun tick => (tick, keys)).map Prod.fst = ticks := by
    intro ticks keys
    rw [List.map_map]
    exact List.map_id ticks
  cases schedule with
  | perKey times =>
    rw [sendings, considered, windowTicks, List.map_flatMap, List.filterMap_flatten,
      ← List.flatMap_def]
    simp only [own]
    conv_rhs => rw [← List.zipIdx_map_fst 0 (times.take count), List.flatMap_map]
    rfl
  | shared times => exact own _ _

/-- **What is dropped.** The times with a tick in the window are sent, and no others. -/
theorem length_sendings (schedule : Schedule τ) :
    (schedule.sendings tickOf timing base count).length =
      (schedule.considered count).countP fun time => ∃ tick ∈ tickOf time, timing.Within tick := by
  rw [← List.length_map Prod.fst, map_fst_sendings, windowTicks, List.length_filterMap_eq_countP]
  apply List.countP_congr
  intro time _
  simp only [Option.isSome_filter, Option.any_eq_true, Timing.inWindow_iff, decide_eq_true_eq,
    Option.mem_def]

theorem considered_reordered {schedule other : Schedule τ} (same : Reordered schedule other) :
    (schedule.considered count).Perm (other.considered count) := by
  cases same with
  | perKey lists => exact List.Perm.flatten_congr (List.forall₂_take count lists)
  | shared list => exact list

end Schedule

namespace SendBuffer

variable {τ : Type} (tickOf : τ → Option Tick) (timing : Timing) (base : Key) (count : UInt32)

/-- A fill starts from nothing, so that it does not matter what was there. -/
theorem fill_of_capacity_eq {buffer earlier : SendBuffer}
    (same : earlier.capacity = buffer.capacity) (schedule : Schedule τ) :
    earlier.fill tickOf timing schedule base count =
      buffer.fill tickOf timing schedule base count := by
  have cleared : earlier.clear = buffer.clear := congrArg empty same
  rw [fill, cleared, fill]

theorem capacity_fill (buffer : SendBuffer) (schedule : Schedule τ) :
    (buffer.fill tickOf timing schedule base count).1.capacity = buffer.capacity :=
  capacity_addAll buffer.clear _

theorem counted_fill (buffer : SendBuffer) (schedule : Schedule τ) :
    (buffer.fill tickOf timing schedule base count).1.Counted :=
  (counted_empty buffer.capacity).addAll _

theorem inserted_fill (buffer : SendBuffer) (schedule : Schedule τ) :
    (buffer.fill tickOf timing schedule base count).2.inserted =
      (buffer.fill tickOf timing schedule base count).1.keyCount := by
  have run := keyCount_addAll buffer.clear (schedule.sendings tickOf timing base count.toNat)
  exact ((Nat.zero_add _).symm.trans run.symm)

theorem dropped_fill (buffer : SendBuffer) (schedule : Schedule τ) :
    (buffer.fill tickOf timing schedule base count).2.dropped =
      (schedule.considered count.toNat).countP fun time =>
        ¬ ∃ tick ∈ tickOf time, timing.Within tick := by
  have parted := (schedule.considered count.toNat).length_eq_countP_add_countP
    fun time => ∃ tick ∈ tickOf time, timing.Within tick
  rw [fill]
  dsimp only
  rw [Schedule.timeCount_eq, Schedule.length_sendings, parted, Nat.add_sub_cancel_left]
  apply List.countP_congr
  intro time _
  rw [decide_eq_true_eq, decide_eq_true_eq, decide_eq_true_eq]

/-- The order of times shows neither in the buffer nor in the counts. -/
theorem fill_reordered (buffer : SendBuffer) {schedule other : Schedule τ}
    (same : Schedule.Reordered schedule other) :
    buffer.fill tickOf timing schedule base count = buffer.fill tickOf timing other base count := by
  have entries := entries_fill_reordered buffer tickOf timing base count same
  have buffers := Counted.eq_of_entries (counted_fill tickOf timing base count buffer schedule)
    (counted_fill tickOf timing base count buffer other)
    ((capacity_fill ..).trans (capacity_fill ..).symm) entries
  have inserted : (buffer.fill tickOf timing schedule base count).2.inserted =
      (buffer.fill tickOf timing other base count).2.inserted := by
    rw [inserted_fill, inserted_fill, buffers]
  have dropped : (buffer.fill tickOf timing schedule base count).2.dropped =
      (buffer.fill tickOf timing other base count).2.dropped := by
    rw [dropped_fill, dropped_fill]
    exact (Schedule.considered_reordered count.toNat same).countP_eq _
  exact Prod.ext buffers (congrArg₂ FillCount.mk inserted dropped)

/-- What a fill makes of a schedule. -/
structure Filled (capacity : UInt32) (schedule : Schedule τ) (result : SendBuffer × FillCount) :
    Prop where
  capacity_eq : result.1.capacity = capacity
  /-- The ticks are those of the window at which the schedule sends something, with what it sends. -/
  holds : ∀ tick keys, result.1.keysAt? tick = some keys ↔
    timing.Within tick ∧ schedule.keysAt tickOf base count.toNat tick = keys ∧ keys ≠ []
  /-- As many keys were inserted as the buffer counts, -/
  inserted : result.2.inserted = result.1.keyCount
  /-- and it counts what it holds. -/
  counted : result.1.keyCount = (result.1.ticks.entries.flatMap Prod.snd).length
  /-- Of the times that concern the channel, those were dropped that have no tick in the window. -/
  dropped : result.2.dropped =
    (schedule.considered count.toNat).countP fun time =>
      ¬ ∃ tick ∈ tickOf time, timing.Within tick

/-- **What a fill does**, and that it always does the same: from any earlier content, from the times
in any order, and a second time. -/
theorem fill_determined (buffer : SendBuffer) (schedule : Schedule τ) :
    Filled tickOf timing base count buffer.capacity schedule
        (buffer.fill tickOf timing schedule base count) ∧
      (∀ ticks keyCount (other : Schedule τ), Schedule.Reordered schedule other →
        { buffer with ticks, keyCount }.fill tickOf timing other base count =
          buffer.fill tickOf timing schedule base count) ∧
      (buffer.fill tickOf timing schedule base count).1.fill tickOf timing schedule base count =
        buffer.fill tickOf timing schedule base count := by
  refine ⟨⟨?_, ?_, ?_, ?_, ?_⟩, ?_, ?_⟩
  · exact capacity_fill tickOf timing base count buffer schedule
  · intro tick keys
    rw [keysAt?, ← OrderedMap.mem_entries_iff, mem_entries_fill]
  · exact inserted_fill tickOf timing base count buffer schedule
  · exact counted_fill tickOf timing base count buffer schedule
  · exact dropped_fill tickOf timing base count buffer schedule
  · intro ticks keyCount other reordered
    rw [fill_reordered tickOf timing base count buffer reordered]
    exact fill_of_capacity_eq tickOf timing base count rfl other
  · exact fill_of_capacity_eq tickOf timing base count
      (capacity_fill tickOf timing base count buffer schedule) schedule

/-- Times that are given as their ticks, out of order: one is before the window and one where it ends,
one has no tick and one comes twice. Sorted or not they leave the same in a buffer that held something
else. As one list for three keys, of which the first is the last of the key space, they send all three
each time. -/
theorem fill_determined_unsorted :
    Schedule.Reordered
        (.perKey [[some 5, some 10, some 15, some 15, some 20], [none, some 10]])
        (.perKey [[some 20, some 15, some 5, some 10, some 15], [some 10, none]] :
          Schedule (Option Tick)) ∧
      ((empty 64).addKey 3 7).fill id (Timing.standard.withWindow 10 (some 20))
          (.perKey [[some 20, some 15, some 5, some 10, some 15], [some 10, none]]) 0x100 9 =
        (⟨64, .ofList [(10, [0x100, 0x101]), (15, [0x100, 0x100])], 4⟩, ⟨4, 3⟩) ∧
      ((empty 64).fill id (Timing.standard.withWindow 10 (some 20))
          (.shared [some 20, some 15, none, some 10, some 15]) 0xFFFFFFFF 3).1.keysAt? 15 =
        some [0xFFFFFFFF, 0, 1, 0xFFFFFFFF, 0, 1] ∧
      ((empty 64).fill id (Timing.standard.withWindow 10 (some 20))
          (.shared [some 20, some 15, none, some 10, some 15]) 0xFFFFFFFF 3).2 = ⟨9, 2⟩ := by
  have reordered : Schedule.Reordered
      (.perKey [[some 5, some 10, some 15, some 15, some 20], [none, some 10]])
      (.perKey [[some 20, some 15, some 5, some 10, some 15], [some 10, none]] :
        Schedule (Option Tick)) :=
    .perKey (.cons (by decide) (.cons (by decide) .nil))
  have same := (fill_determined id (Timing.standard.withWindow 10 (some 20)) 0x100 9 (empty 64) _).2.1
    ((empty 64).addKey 3 7).ticks 1 _ reordered
  have shared := (fill_determined id (Timing.standard.withWindow 10 (some 20)) 0xFFFFFFFF 3
    (empty 64) (.shared [some 20, some 15, none, some 10, some 15])).1
  refine ⟨reordered, same.trans (by decide), ?_, by decide⟩
  exact (shared.holds 15 _).2 ⟨by decide, by decide, by decide⟩

end SendBuffer

end MeshControl
