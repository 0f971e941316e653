import MeshControl.SendBuffer.Schedule

/-!
# What a send buffer can hold

`Reachable` are the buffers that the operations make, in any order and number. None of them has
a tick without keys (`Reachable.noEmptyTick`): such a tick would count in the sizes and take no
bytes when it is sent.
-/

namespace MeshControl.SendBuffer

/-- The buffers that the operations on buffers make. -/
inductive Reachable : SendBuffer → Prop where
  | empty (capacity : UInt32) : Reachable (.empty capacity)
  | addKey {buffer : SendBuffer} (tick : Tick) (key : Key) :
      Reachable buffer → Reachable (buffer.addKey tick key)
  | addKeys {buffer : SendBuffer} (tick : Tick) (keys : List Key) :
      Reachable buffer → Reachable (buffer.addKeys tick keys)
  | clear {buffer : SendBuffer} : Reachable buffer → Reachable buffer.clear
  | fill {buffer : SendBuffer} {τ : Type} (tickOf : τ → Option Tick) (timing : Timing)
      (schedule : Schedule τ) (base : Key) (count : UInt32) :
      Reachable buffer → Reachable (buffer.fill tickOf timing schedule base count).1

/-- Every tick has keys. -/
def NoEmptyTick (buffer : SendBuffer) : Prop := ∀ entry ∈ buffer.ticks.entries, entry.2 ≠ []

theorem noEmptyTick_empty (capacity : UInt32) : (empty capacity).NoEmptyTick := by
  intro entry h
  cases h

/-- Putting keys at a tick leaves no empty tick. -/
theorem NoEmptyTick.insert {buffer : SendBuffer} (full : buffer.NoEmptyTick) {tick : Tick}
    {keys : List Key} (some : keys ≠ []) (count : Nat) :
    NoEmptyTick { buffer with ticks := buffer.ticks.insert tick keys, keyCount := count } := by
  intro entry h
  rcases OrderedMap.mem_insertEntry h with rfl | old
  · exact some
  · exact full entry old

theorem NoEmptyTick.addKey {buffer : SendBuffer} (full : buffer.NoEmptyTick) (tick : Tick)
    (key : Key) : (buffer.addKey tick key).NoEmptyTick :=
  full.insert (by simp) _

theorem NoEmptyTick.addKeys {buffer : SendBuffer} (full : buffer.NoEmptyTick) (tick : Tick)
    (keys : List Key) : (buffer.addKeys tick keys).NoEmptyTick := by
  unfold SendBuffer.addKeys
  split
  · exact full
  · rename_i some
    refine full.insert ?_ _
    intro none
    simp_all

theorem NoEmptyTick.addAll {buffer : SendBuffer} (full : buffer.NoEmptyTick)
    (sendings : List (Tick × List Key)) : (buffer.addAll sendings).NoEmptyTick := by
  induction sendings generalizing buffer with
  | nil => exact full
  | cons sending rest ih => exact ih (full.addKeys sending.1 sending.2)

/-- The space on the core stays as it is. -/
theorem capacity_addAll (buffer : SendBuffer) (sendings : List (Tick × List Key)) :
    (buffer.addAll sendings).capacity = buffer.capacity := by
  induction sendings generalizing buffer with
  | nil => rfl
  | cons sending rest ih =>
    have first : (buffer.addKeys sending.1 sending.2).capacity = buffer.capacity := by
      unfold addKeys
      split
      · rfl
      · rfl
    exact (ih _).trans first

/-- **No operation makes a tick without keys.** -/
theorem Reachable.noEmptyTick {buffer : SendBuffer} (h : buffer.Reachable) :
    buffer.NoEmptyTick := by
  induction h with
  | empty capacity => exact noEmptyTick_empty capacity
  | addKey tick key _ ih => exact ih.addKey tick key
  | addKeys tick keys _ ih => exact ih.addKeys tick keys
  | clear _ _ => exact noEmptyTick_empty _
  | fill tickOf timing schedule base count _ _ => exact (noEmptyTick_empty _).addAll _

end MeshControl.SendBuffer
