import MeshControl.Proofs.SendBuffer.Contents
import MeshControl.Proofs.SendBuffer.Decoding

/-!
# Packing whole ticks

The size that is predicted for a tick is the length of its encoding (`length_encodeTick`), across
every split into blocks. `packTicks` takes the longest run of ticks from the first on whose
encoding fits: `Packed` says what it takes and why it stops, and `packTicks_packed` that it does
so.
-/

namespace MeshControl.SendBuffer

/-- The encodings of some ticks, one after the other. -/
def encode (entries : List Entry) : Bytes :=
  entries.flatMap fun entry => encodeTick entry.1 entry.2

/-- Predicted size of some ticks. -/
def entriesSize (entries : List Entry) : Nat :=
  entries.foldr (fun entry total => tickSize entry.2.length + total) 0

@[simp] theorem encode_cons (entry : Entry) (entries : List Entry) :
    encode (entry :: entries) = encodeTick entry.1 entry.2 ++ encode entries := rfl

@[simp] theorem encode_append (early late : List Entry) :
    encode (early ++ late) = encode early ++ encode late := List.flatMap_append

@[simp] theorem entriesSize_nil : entriesSize [] = 0 := rfl

@[simp] theorem entriesSize_cons (entry : Entry) (entries : List Entry) :
    entriesSize (entry :: entries) = tickSize entry.2.length + entriesSize entries := rfl

/-! ## Sizes -/

theorem length_keyBlocks (keys : List Key) :
    (keyBlocks keys).length = (keys.length + (keysPerBlock - 1)) / keysPerBlock := by
  induction keys using keyBlocks.induct with
  | case1 => simp [keyBlocks, keysPerBlock]
  | case2 key rest ih =>
    rw [keyBlocks, List.length_cons, ih, List.length_drop]
    simp only [List.length_cons, keysPerBlock]
    omega

theorem length_flatMap_encodeBlock (tick : Tick) (blocks : List (List Key)) :
    (blocks.flatMap (encodeBlock tick)).length =
      blockOverhead * blocks.length + 4 * blocks.flatten.length := by
  induction blocks with
  | nil => rfl
  | cons block blocks ih =>
    rw [List.flatMap_cons, List.length_append, ih, length_encodeBlock, List.length_cons,
      List.flatten_cons, List.length_append]
    simp only [blockSize, blockOverhead]
    omega

/-- **The predicted size of a tick with keys is the length of its encoding.** -/
theorem length_encodeTick (tick : Tick) {keys : List Key} (nonempty : keys ≠ []) :
    (encodeTick tick keys).length = tickSize keys.length := by
  have some : 0 < keys.length := List.length_pos_iff.2 nonempty
  have blocks : 1 ≤ (keyBlocks keys).length := List.length_pos_iff.2 (keyBlocks_ne_nil nonempty)
  have count := length_keyBlocks keys
  rw [encodeTick, length_flatMap_encodeBlock, flatten_keyBlocks, tickSize, ← count]
  simp only [blockSize, blockOverhead]
  omega

theorem length_encode {entries : List Entry} (nonempty : ∀ entry ∈ entries, entry.2 ≠ []) :
    (encode entries).length = entriesSize entries := by
  induction entries with
  | nil => rfl
  | cons entry entries ih =>
    have first := nonempty entry (List.mem_cons_self ..)
    have later := ih fun e he => nonempty e (List.mem_cons_of_mem _ he)
    rw [encode_cons, List.length_append, length_encodeTick _ first, later, entriesSize_cons]

/-- Encoded ticks are whole words. -/
theorem four_dvd_length_encode (entries : List Entry) : 4 ∣ (encode entries).length := by
  induction entries with
  | nil => exact Nat.dvd_zero 4
  | cons entry entries ih =>
    rw [encode_cons, List.length_append, encodeTick, length_flatMap_encodeBlock, blockOverhead]
    omega

theorem tickSize_pos (keyCount : Nat) : 0 < tickSize keyCount := by
  simp only [tickSize, blockSize, blockOverhead]
  omega

theorem tickSize_le_entriesSize {entries : List Entry} {entry : Entry} (h : entry ∈ entries) :
    tickSize entry.2.length ≤ entriesSize entries := by
  induction entries with
  | nil => cases h
  | cons head entries ih =>
    rw [entriesSize_cons]
    rcases List.mem_cons.1 h with rfl | later
    · exact Nat.le_add_right ..
    · exact Nat.le_trans (ih later) (Nat.le_add_left ..)

theorem encode_ne_nil {entries : List Entry} (nonempty : ∀ entry ∈ entries, entry.2 ≠ [])
    (some : entries ≠ []) : encode entries ≠ [] := by
  obtain ⟨entry, rest, rfl⟩ := List.exists_cons_of_ne_nil some
  have positive := tickSize_pos entry.2.length
  rw [← List.length_pos_iff, length_encode nonempty, entriesSize_cons]
  omega

/-! ## The longest run that fits -/

/-- `chunk` holds the ticks `taken`, the first of `taken ++ left`; they fit into `space`, and one
more would not. -/
structure Packed (space : Nat) (taken left : List Entry) (chunk : Chunk) : Prop where
  bytes : chunk.bytes = encode taken
  tickCount : chunk.tickCount = taken.length
  next : chunk.next = left.head?.map Prod.fst
  fits : entriesSize taken ≤ space
  stops : ∀ entry ∈ left.head?, space < entriesSize taken + tickSize entry.2.length

/-- If the first tick fits, it is taken. -/
theorem Packed.taken_ne_nil {space : Nat} {taken left rest : List Entry} {entry : Entry}
    {chunk : Chunk} (packed : Packed space taken left chunk) (split : entry :: rest = taken ++ left)
    (fits : tickSize entry.2.length ≤ space) : taken ≠ [] := by
  rintro rfl
  have first : entry ∈ left.head? := by
    rw [List.nil_append] at split
    rw [← split]
    rfl
  have := packed.stops entry first
  rw [entriesSize_nil] at this
  omega

theorem packTicks_packed (space : Nat) (entries : List Entry) :
    ∃ taken left, entries = taken ++ left ∧ Packed space taken left (packTicks space entries) := by
  induction entries generalizing space with
  | nil => exact ⟨[], [], rfl, rfl, rfl, rfl, Nat.zero_le _, by simp⟩
  | cons entry entries ih =>
    rw [packTicks]
    by_cases fits : tickSize entry.2.length ≤ space
    · obtain ⟨taken, left, split, packed⟩ := ih (space - tickSize entry.2.length)
      have room := packed.fits
      refine ⟨entry :: taken, left, by rw [split, List.cons_append], ?_⟩
      rw [if_pos fits]
      refine ⟨?_, ?_, packed.next, ?_, ?_⟩
      · simp only [packed.bytes, encode_cons]
      · simp only [packed.tickCount, List.length_cons]
      · rw [entriesSize_cons]
        omega
      · intro next isNext
        have := packed.stops next isNext
        rw [entriesSize_cons]
        omega
    · refine ⟨[], entry :: entries, rfl, ?_⟩
      rw [if_neg fits]
      refine ⟨rfl, rfl, rfl, Nat.zero_le _, ?_⟩
      intro next isNext
      cases isNext
      rw [entriesSize_nil]
      omega

theorem NoEmptyTick.ticksFrom {buffer : SendBuffer} (full : buffer.NoEmptyTick) (tick : Tick) :
    ∀ entry ∈ buffer.ticksFrom tick, entry.2 ≠ [] :=
  fun entry member => full entry (List.mem_filter.1 member).1

theorem ticksFrom_distinct (buffer : SendBuffer) (tick : Tick) :
    (buffer.ticksFrom tick).Pairwise fun a b => a.1 ≠ b.1 :=
  (buffer.ticks.ascending.filter _).imp SortKey.ne

/-- What a buffer packs from a tick on. -/
theorem exists_packed {buffer : SendBuffer} (full : buffer.NoEmptyTick) (tick : Tick)
    (space : Nat) :
    ∃ taken left, buffer.ticksFrom tick = taken ++ left ∧
      Packed space taken left (buffer.pack tick space) ∧ (∀ entry ∈ taken, entry.2 ≠ []) ∧
      taken.Pairwise fun a b => a.1 ≠ b.1 := by
  obtain ⟨taken, left, split, packed⟩ := packTicks_packed space (buffer.ticksFrom tick)
  have nonempty := full.ticksFrom tick
  have distinct := buffer.ticksFrom_distinct tick
  rw [split] at nonempty distinct
  refine ⟨taken, left, split, packed, ?_, (List.pairwise_append.1 distinct).1⟩
  exact fun entry member => nonempty entry (List.mem_append_left _ member)

end MeshControl.SendBuffer
