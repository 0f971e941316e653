import Mathlib.Data.List.Forall2
import MeshControl.Proofs.Ordered.Split
import MeshControl.Proofs.SendBuffer.Filling

/-!
# Filling window by window

A run can be cut in two at any tick, and what is sent in the one part and then in the other is what
is sent in the whole (`entries_fill_append`). The order in which times are listed does not matter
either (`entries_fill_reordered`).
-/

namespace MeshControl

namespace Timing

/-- Ticks of a bounded window lie between its first tick and that plus the length of the run. -/
theorem lt_add_runLength (timing : Timing) {first last tick : Tick}
    (inside : (timing.withWindow first (some last)).Within tick) :
    first ≤ tick ∧
      tick.toNat < first.toNat + (timing.withWindow first (some last)).runLength.toNat := by
  have low : first ≤ tick := inside.1
  have below := UInt32.lt_iff_toNat_lt.1 (inside.2 last rfl)
  have ordered : first ≤ last := UInt32.le_iff_toNat_le.2 (by
    have := UInt32.le_iff_toNat_le.1 low
    omega)
  refine ⟨low, ?_⟩
  rw [runLength]
  show tick.toNat < first.toNat + (if first ≤ last then last - first else 0).toNat
  rw [if_pos ordered, UInt32.toNat_sub_of_le _ _ ordered]
  omega

/-- The lengths of two runs, the second from where the first ends, add up. -/
theorem runLength_add (timing : Timing) {first middle last : Tick} (early : first ≤ middle)
    (late : middle ≤ last) :
    (timing.withWindow first (some last)).runLength.toNat =
      (timing.withWindow first (some middle)).runLength.toNat +
        (timing.withWindow middle (some last)).runLength.toNat := by
  have earlyNat := UInt32.le_iff_toNat_le.1 early
  have lateNat := UInt32.le_iff_toNat_le.1 late
  have whole : first ≤ last := UInt32.le_iff_toNat_le.2 (by omega)
  show (if first ≤ last then last - first else 0).toNat =
    (if first ≤ middle then middle - first else 0).toNat +
      (if middle ≤ last then last - middle else 0).toNat
  rw [if_pos whole, if_pos early, if_pos late, UInt32.toNat_sub_of_le _ _ whole,
    UInt32.toNat_sub_of_le _ _ early, UInt32.toNat_sub_of_le _ _ late]
  omega

end Timing

namespace Schedule

variable {τ : Type} (tickOf : τ → Option Tick) (base : Key) (count : Nat) (tick : Tick)

/-- The same times, listed in another order. -/
inductive Reordered : Schedule τ → Schedule τ → Prop where
  | perKey {times others : List (List τ)} (lists : List.Forall₂ List.Perm times others) :
      Reordered (.perKey times) (.perKey others)
  | shared {times others : List τ} (list : times.Perm others) :
      Reordered (.shared times) (.shared others)

/-- The order in which times are listed does not matter. -/
theorem keysAt_reordered {schedule other : Schedule τ} (same : Reordered schedule other) :
    schedule.keysAt tickOf base count tick = other.keysAt tickOf base count tick := by
  have occurs : ∀ {times others : List τ}, times.Perm others →
      occurrences tickOf tick times = occurrences tickOf tick others :=
    fun list => list.countP_eq _
  cases same with
  | shared list => rw [keysAt, keysAt, occurs list]
  | @perKey times others lists =>
    have lengths : times.length = others.length := lists.length_eq
    rw [keysAt, keysAt, lengths]
    refine List.flatMap_congr fun channel inside => ?_
    have few := List.mem_range.1 inside
    have listed : channel < times.length := by omega
    have listed' : channel < others.length := by omega
    have same : times[channel].Perm others[channel] := lists.get listed listed'
    rw [List.getD_eq_getElem _ _ listed, List.getD_eq_getElem _ _ listed', occurs same]

end Schedule

namespace SendBuffer

variable {τ : Type} (buffer : SendBuffer) (tickOf : τ → Option Tick) (timing : Timing)
  (schedule : Schedule τ) (base : Key) (count : UInt32)

/-- **Filling in two windows.** The ticks of a window are those of its first part and then those of
its second. A tick at which the parts meet belongs to the second. -/
theorem entries_fill_append {first middle : Tick} {last : Option Tick} (early : first ≤ middle)
    (late : ∀ limit ∈ last, middle ≤ limit) :
    (buffer.fill tickOf (timing.withWindow first last) schedule base count).1.ticks.entries =
      (buffer.fill tickOf (timing.withWindow first (some middle)) schedule base
          count).1.ticks.entries ++
        (buffer.fill tickOf (timing.withWindow middle last) schedule base
          count).1.ticks.entries := by
  apply OrderedMap.eq_of_ascending (OrderedMap.ascending _)
  · refine List.pairwise_append.2 ⟨OrderedMap.ascending _, OrderedMap.ascending _, ?_⟩
    rintro ⟨tick, keys⟩ member ⟨other, others⟩ memberOther
    obtain ⟨⟨-, below⟩, -⟩ := (mem_entries_fill ..).1 member
    obtain ⟨⟨above, -⟩, -⟩ := (mem_entries_fill ..).1 memberOther
    rw [before_word, decide_eq_true_eq]
    exact UInt32.lt_of_lt_of_le (below middle rfl) above
  · rintro ⟨tick, keys⟩
    rw [List.mem_append, mem_entries_fill, mem_entries_fill, mem_entries_fill, ← or_and_right]
    refine and_congr_left fun _ => ?_
    constructor
    · rintro ⟨low, high⟩
      by_cases below : tick < middle
      · refine .inl ⟨low, ?_⟩
        rintro limit ⟨⟩
        exact below
      · exact .inr ⟨UInt32.not_lt.1 below, high⟩
    · rintro (⟨low, high⟩ | ⟨low, high⟩)
      · exact ⟨low, fun limit bound => UInt32.lt_of_lt_of_le (high middle rfl) (late limit bound)⟩
      · exact ⟨UInt32.le_trans early low, high⟩

/-- Times may be listed in any order. -/
theorem entries_fill_reordered {schedule other : Schedule τ}
    (same : Schedule.Reordered schedule other) :
    (buffer.fill tickOf timing schedule base count).1.ticks.entries =
      (buffer.fill tickOf timing other base count).1.ticks.entries := by
  apply OrderedMap.eq_of_ascending (OrderedMap.ascending _) (OrderedMap.ascending _)
  rintro ⟨tick, keys⟩
  rw [mem_entries_fill, mem_entries_fill, Schedule.keysAt_reordered _ _ _ _ same]

end SendBuffer

end MeshControl
