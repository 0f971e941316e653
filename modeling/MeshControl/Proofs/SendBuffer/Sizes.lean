import MeshControl.Proofs.Ordered.Insertion
import MeshControl.Proofs.SendBuffer.Chunking
import MeshControl.Proofs.SendBuffer.Counting

/-!
# Counts and sizes of a buffer

A buffer keeps a running count of its keys, predicts what their encoding takes and decides from that
whether a core can hold it all at once. None of this is computed from an encoding. It is all exact
(`Sized`) for every buffer that the operations make (`sizes_exact`): the running count follows each
operation, and since no tick is without keys the prediction is right for each of them.
-/

namespace MeshControl.SendBuffer

variable {buffer : SendBuffer}

/-- The running count is right in every buffer that the operations make. -/
theorem Reachable.counted (reachable : buffer.Reachable) : buffer.Counted := by
  induction reachable with
  | empty capacity => exact counted_empty capacity
  | addKey tick key _ ih => exact ih.addKey tick key
  | addKeys tick keys _ ih => exact ih.addKeys tick keys
  | clear _ _ => exact counted_empty _
  | fill tickOf timing schedule base count _ _ =>
    exact counted_fill tickOf timing base count _ schedule

/-! ## Keys -/

theorem keysHeld_eq (entries : List Entry) :
    keysHeld entries = entries.foldr (fun entry total => entry.2.length + total) 0 := by
  induction entries with
  | nil => rfl
  | cons entry rest ih => rw [keysHeld_cons, ih, List.foldr_cons]

/-- Where every tick has keys, there are no ticks if there are no keys. -/
theorem NoEmptyTick.isEmpty_iff (full : buffer.NoEmptyTick) :
    buffer.isEmpty = true ↔ keysHeld buffer.ticks.entries = 0 := by
  rw [isEmpty, OrderedMap.isEmpty, List.isEmpty_iff, keysHeld, List.length_eq_zero_iff,
    List.flatMap_eq_nil_iff]
  constructor
  · intro none entry member
    rw [none] at member
    cases member
  · intro none
    rw [List.eq_nil_iff_forall_not_mem]
    exact fun entry member => full entry member (none entry member)

/-! ## Bytes -/

/-- No tick is ahead of the first one. -/
theorem ticksFrom_zero (buffer : SendBuffer) : buffer.ticksFrom 0 = buffer.ticks.entries := by
  rw [ticksFrom, OrderedMap.entriesFrom, List.filter_eq_self]
  intro entry _
  rw [before_word]
  simp

theorem bytesRequired_eq (buffer : SendBuffer) :
    buffer.bytesRequired = entriesSize buffer.ticks.entries := by
  rw [bytesRequired, OrderedMap.values, List.foldr_map]
  rfl

theorem NoEmptyTick.length_encode (full : buffer.NoEmptyTick) :
    (encode (buffer.ticksFrom 0)).length = buffer.bytesRequired := by
  rw [ticksFrom_zero, bytesRequired_eq]
  exact SendBuffer.length_encode full

/-- A buffer is packed whole if the predicted size fits, and not otherwise. -/
theorem NoEmptyTick.pack_next_eq_none_iff (full : buffer.NoEmptyTick) (space : Nat) :
    (buffer.pack 0 space).next = none ↔ buffer.bytesRequired ≤ space := by
  have longest := full.longest 0 space
  have all := longest.longest _ (Nat.le_refl _)
  rw [List.take_length, full.length_encode] at all
  rw [longest.ends, all]
  exact ⟨fun every => Nat.le_of_eq every.symm, fun every => Nat.le_antisymm longest.taken every⟩

theorem bytesAt?_eq_some_iff {tick : Tick} {size : Nat} :
    buffer.bytesAt? tick = some size ↔
      ∃ keys, buffer.keysAt? tick = some keys ∧ tickSize keys.length = size :=
  Option.map_eq_some_iff

/-- Each tick that is listed has the size that is predicted for its keys. -/
theorem map_bytesAt?_keys (buffer : SendBuffer) :
    buffer.ticks.keys.map buffer.bytesAt? =
      (buffer.ticks.values.map fun keys => tickSize keys.length).map some := by
  rw [OrderedMap.keys, OrderedMap.values, List.map_map, List.map_map, List.map_map]
  apply List.map_congr_left
  intro entry member
  exact bytesAt?_eq_some_iff.2 ⟨entry.2, (buffer.ticks.mem_entries_iff _ _).1 member, rfl⟩

/-! ## Together -/

/-- What a buffer says of its size is what its keys and their encoding come to. -/
structure Sized (buffer : SendBuffer) : Prop where
  keys_ne_nil : ∀ tick keys, buffer.keysAt? tick = some keys → keys ≠ []
  keyCount : buffer.keyCount =
    buffer.ticks.values.foldr (fun keys total => keys.length + total) 0
  isEmpty : buffer.isEmpty = true ↔ buffer.keyCount = 0
  /-- Sizes are those of the ticks that are listed, -/
  listed : ∀ tick, (∃ size, buffer.bytesAt? tick = some size) ↔ tick ∈ buffer.ticks.keys
  /-- each of them once, -/
  distinct : buffer.ticks.keys.Nodup
  /-- and they add up. -/
  bytesAt : ∃ sizes : List Nat, buffer.ticks.keys.map buffer.bytesAt? = sizes.map some ∧
    buffer.bytesRequired = sizes.foldr (· + ·) 0
  bytesRequired : ∀ space, buffer.bytesRequired ≤ space →
    (buffer.pack 0 space).bytes.length = buffer.bytesRequired
  fits : buffer.fits = true ↔ (buffer.pack 0 buffer.capacity.toNat).next = none

/-- **The sizes of a buffer are exact**, whatever operations made it. -/
theorem sizes_exact (reachable : buffer.Reachable) : buffer.Sized where
  keys_ne_nil tick keys found :=
    reachable.noEmptyTick (tick, keys) ((buffer.ticks.mem_entries_iff tick keys).2 found)
  keyCount := by
    rw [reachable.counted, keysHeld_eq, OrderedMap.values, List.foldr_map]
  isEmpty := by
    rw [reachable.counted]
    exact reachable.noEmptyTick.isEmpty_iff
  listed tick := by
    rw [OrderedMap.mem_keys_iff]
    constructor
    · rintro ⟨size, found⟩
      obtain ⟨keys, held, -⟩ := bytesAt?_eq_some_iff.1 found
      exact ⟨keys, held⟩
    · rintro ⟨keys, held⟩
      exact ⟨_, bytesAt?_eq_some_iff.2 ⟨keys, held, rfl⟩⟩
  distinct := buffer.ticks.keys_nodup
  bytesAt := by
    refine ⟨_, buffer.map_bytesAt?_keys, ?_⟩
    rw [bytesRequired, List.foldr_map]
  bytesRequired space room := by
    have full := reachable.noEmptyTick
    rw [← full.length_encode] at room ⊢
    rw [(full.longest 0 space).unlimited room]
  fits := by
    rw [reachable.noEmptyTick.pack_next_eq_none_iff, fits, decide_eq_true_iff]

theorem TwoBlocks.bytesRequired_bufferOf {keys : List Key} (some : keys ≠ [])
    (size : tickSize keys.length = 262164) : (bufferOf keys).bytesRequired = 262176 := by
  rw [bytesRequired_eq, ← ticksFrom_zero, (ticksFrom_bufferOf some).1, entriesSize_cons, size]
  rfl

/-- The tick of two blocks takes two headers. All of the buffer is packed into just the bytes that
it requires, and the core, which has less space, cannot hold it. -/
theorem sizes_exact_twoBlocks :
    (TwoBlocks.bufferOf TwoBlocks.keys).Reachable ∧
      (TwoBlocks.bufferOf TwoBlocks.keys).bytesRequired = (8 + 4 * 65535) + (8 + 4 * 2) + (8 + 4) ∧
      ((TwoBlocks.bufferOf TwoBlocks.keys).pack 0 262176).bytes.length = 262176 ∧
      ((TwoBlocks.bufferOf TwoBlocks.keys).pack 0 64).next ≠ none := by
  have sized := sizes_exact TwoBlocks.reachable
  have size := TwoBlocks.bytesRequired_bufferOf TwoBlocks.keys_ne_nil TwoBlocks.tickSize_keys
  have large : (TwoBlocks.bufferOf TwoBlocks.keys).fits = false := by
    rw [fits, size]
    rfl
  refine ⟨TwoBlocks.reachable, size, ?_, ?_⟩
  · rw [sized.bytesRequired 262176 (Nat.le_of_eq size), size]
  · intro whole
    rw [sized.fits.2 whole] at large
    cases large

end MeshControl.SendBuffer
