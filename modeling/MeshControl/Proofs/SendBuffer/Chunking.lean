import MeshControl.Proofs.Ordered.Split
import MeshControl.Proofs.SendBuffer.Packing

/-!
# Chunks of any sizes

A buffer is sent in chunks: each is packed into the space that there is at the time, from the first
tick that the last one left (`chunks`). One chunk is the longest run of whole ticks that fits, and
it reads back as those ticks (`Longest`). Chunks one after the other are a part of what a single
chunk without a limit would hold, and all of it once no tick is left (`Pieces`).

Main statement: `chunked_ticks_read_back`, for every buffer that the operations make, every first
tick and every sequence of spaces.
-/

namespace MeshControl.SendBuffer

/-- Pack into each space in turn, at first from `tick` on and then from the first tick that is left,
until none is. -/
def chunks (buffer : SendBuffer) (tick : Tick) : List Nat → List Chunk
  | [] => []
  | space :: spaces =>
    let chunk := buffer.pack tick space
    match chunk.next with
    | none => [chunk]
    | some next => chunk :: buffer.chunks next spaces

/-- `chunk` holds the first of `entries`, as many as there is `space` for. -/
structure Longest (entries : List Entry) (space : Nat) (chunk : Chunk) : Prop where
  taken : chunk.tickCount ≤ entries.length
  bytes : chunk.bytes = encode (entries.take chunk.tickCount)
  /-- A number of ticks fits if and only if it is no more than the chunk takes. -/
  longest : ∀ count ≤ entries.length,
    (encode (entries.take count)).length ≤ space ↔ count ≤ chunk.tickCount
  /-- The next tick is the first that is left. -/
  next : chunk.next = entries[chunk.tickCount]?.map Prod.fst
  ends : chunk.next = none ↔ chunk.tickCount = entries.length
  /-- A reader finds the ticks that were taken, with all of their keys. -/
  read : decodeTicks chunk.bytes = some (entries.take chunk.tickCount)

/-- `chunks`, one after the other, are the beginning of `whole`, and all of it if the last of them
leaves no tick. -/
structure Pieces (whole : Bytes) (chunks : List Chunk) : Prop where
  part : chunks.flatMap Chunk.bytes <+: whole
  all : (∃ chunk ∈ chunks, chunk.next = none) → chunks.flatMap Chunk.bytes = whole

/-! ## The ticks of a buffer -/

theorem ticksFrom_ascending (buffer : SendBuffer) (tick : Tick) :
    (buffer.ticksFrom tick).Pairwise fun a b => a.1 < b.1 := by
  refine (buffer.ticks.ascending.filter _).imp ?_
  intro a b before
  rw [before_word] at before
  exact of_decide_eq_true before

theorem mem_ticksFrom {buffer : SendBuffer} {tick due : Tick} {keys : List Key} :
    (due, keys) ∈ buffer.ticksFrom tick ↔ tick ≤ due ∧ buffer.keysAt? due = some keys := by
  rw [ticksFrom, OrderedMap.entriesFrom, List.mem_filter, OrderedMap.mem_entries_iff, before_word,
    decide_eq_true_iff, decide_eq_true_iff, UInt32.not_lt, and_comm]
  rfl

/-! ## One chunk -/

theorem encode_take_le (entries : List Entry) {few many : Nat} (less : few ≤ many) :
    encode (entries.take few) <+: encode (entries.take many) := by
  have shorter : entries.take few <+: entries.take many := List.take_prefix_take_left less
  obtain ⟨more, split⟩ := shorter
  rw [← split, encode_append]
  exact List.prefix_append ..

variable {entries taken left : List Entry} {space : Nat} {chunk : Chunk}

theorem Packed.longest (packed : Packed space taken left chunk)
    (nonempty : ∀ entry ∈ taken ++ left, entry.2 ≠ [])
    (distinct : (taken ++ left).Pairwise fun a b => a.1 ≠ b.1) :
    Longest (taken ++ left) space chunk := by
  have first_taken : (taken ++ left).take chunk.tickCount = taken := by
    rw [packed.tickCount, List.take_left]
  have keys : ∀ entry ∈ taken, entry.2 ≠ [] := fun e he =>
    nonempty e (List.mem_append_left _ he)
  have first : (taken ++ left)[chunk.tickCount]? = left.head? := by
    rw [packed.tickCount, List.getElem?_append_right (Nat.le_refl _), Nat.sub_self,
      List.head?_eq_getElem?]
  refine
    { taken := ?_, bytes := ?_, longest := ?_, next := ?_, ends := ?_, read := ?_ }
  · rw [packed.tickCount, List.length_append]
    exact Nat.le_add_right ..
  · rw [first_taken, packed.bytes]
  · intro count inside
    constructor
    · -- one tick more than was taken is already too much
      intro fits
      refine Nat.le_of_not_lt ?_
      intro beyond
      have shorter := (encode_take_le (taken ++ left) beyond).length_le
      cases left with
      | nil =>
        rw [List.append_nil, ← packed.tickCount] at inside
        omega
      | cons entry rest =>
        have one : (taken ++ entry :: rest).take (chunk.tickCount + 1) = taken ++ [entry] := by
          rw [packed.tickCount, List.take_length_add_append, List.take_succ_cons, List.take_zero]
        have own : entry.2 ≠ [] := nonempty entry (by simp)
        have tooMuch := packed.stops entry rfl
        rw [one, encode_append, List.length_append, length_encode keys, encode_cons,
          List.length_append, length_encodeTick _ own] at shorter
        omega
    · intro few
      have shorter := (encode_take_le (taken ++ left) few).length_le
      rw [first_taken, length_encode keys] at shorter
      exact Nat.le_trans shorter packed.fits
  · rw [first, packed.next]
  · rw [packed.next, packed.tickCount, List.length_append]
    cases left with
    | nil => simp
    | cons entry rest => simp
  · rw [first_taken, packed.bytes]
    exact decodeTicks_flatMap keys (List.pairwise_append.1 distinct).1

/-- **A buffer packs the longest run of whole ticks that fits.** -/
theorem NoEmptyTick.longest {buffer : SendBuffer} (full : buffer.NoEmptyTick) (tick : Tick)
    (space : Nat) : Longest (buffer.ticksFrom tick) space (buffer.pack tick space) := by
  obtain ⟨taken, left, split, packed⟩ := packTicks_packed space (buffer.ticksFrom tick)
  have nonempty := full.ticksFrom tick
  have distinct := buffer.ticksFrom_distinct tick
  rw [pack]
  rw [split] at nonempty distinct packed ⊢
  exact packed.longest nonempty distinct

/-- With space for all of the ticks the chunk takes them all. -/
theorem Longest.unlimited (longest : Longest entries space chunk)
    (room : (encode entries).length ≤ space) : chunk = ⟨encode entries, entries.length, none⟩ := by
  have every : entries.length ≤ chunk.tickCount := by
    refine (longest.longest entries.length (Nat.le_refl _)).1 ?_
    rw [List.take_length]
    exact room
  have count : chunk.tickCount = entries.length := Nat.le_antisymm longest.taken every
  have none := longest.ends.2 count
  have bytes := longest.bytes
  rw [count, List.take_length] at bytes
  cases chunk
  cases bytes
  cases count
  cases none
  rfl

/-! ## One chunk after another -/

/-- The ticks that are left when a chunk names the next one. -/
theorem Longest.ticksFrom_next {buffer : SendBuffer} {tick next : Tick}
    (longest : Longest (buffer.ticksFrom tick) space chunk) (more : chunk.next = some next) :
    buffer.ticksFrom next = (buffer.ticksFrom tick).drop chunk.tickCount := by
  have listed := longest.next
  rw [more] at listed
  obtain ⟨entry, found, rfl⟩ := Option.map_eq_some_iff.1 listed.symm
  obtain ⟨inside, same⟩ := List.getElem?_eq_some_iff.1 found
  have split := (List.take_append_drop chunk.tickCount (buffer.ticksFrom tick)).symm
  rw [List.drop_eq_getElem_cons inside, same] at split
  rw [List.drop_eq_getElem_cons inside, same]
  exact OrderedMap.entriesFrom_of_entriesFrom split

/-- A chunk ahead of pieces of what it leaves. -/
theorem Longest.pieces_cons (longest : Longest entries space chunk) {next : Tick}
    (more : chunk.next = some next) {later : List Chunk}
    (pieces : Pieces (encode (entries.drop chunk.tickCount)) later) :
    Pieces (encode entries) (chunk :: later) := by
  have whole : encode entries = chunk.bytes ++ encode (entries.drop chunk.tickCount) := by
    rw [longest.bytes, ← encode_append, List.take_append_drop]
  refine ⟨?_, ?_⟩
  · rw [List.flatMap_cons, whole]
    exact (List.prefix_append_right_inj _).2 pieces.part
  · rintro ⟨last, member, done⟩
    rcases List.mem_cons.1 member with rfl | behind
    · rw [more] at done
      cases done
    · rw [List.flatMap_cons, pieces.all ⟨last, behind, done⟩, whole]

/-- Induction on the spaces: each chunk leaves the ticks that the next one starts with. -/
theorem NoEmptyTick.pieces {buffer : SendBuffer} (full : buffer.NoEmptyTick) (tick : Tick)
    (spaces : List Nat) :
    Pieces (encode (buffer.ticksFrom tick)) (buffer.chunks tick spaces) := by
  induction spaces generalizing tick with
  | nil => exact ⟨List.nil_prefix, by simp [chunks]⟩
  | cons space spaces ih =>
    have longest := full.longest tick space
    rw [chunks]
    split
    · rename_i done
      have all : (buffer.pack tick space).bytes = encode (buffer.ticksFrom tick) := by
        rw [longest.bytes, longest.ends.1 done, List.take_length]
      rw [← all]
      refine ⟨by simp, fun _ => by simp⟩
    · rename_i next more
      refine longest.pieces_cons more ?_
      rw [← longest.ticksFrom_next more]
      exact ih next

/-- **Ticks read back as they were added, whatever the chunks they are sent in.** For every buffer
that the operations make and every first tick: the ticks to send are those from there on that have
keys; every chunk takes the longest run of them that fits, says how many these are and which tick is
next, and reads back as them; and chunks of any sizes, one after the other, are the beginning of
the one chunk that takes all, and the whole of it as soon as no tick is left. -/
theorem chunked_ticks_read_back {buffer : SendBuffer} (reachable : buffer.Reachable)
    (tick : Tick) :
    ((buffer.ticksFrom tick).Pairwise fun a b => a.1 < b.1) ∧
      (∀ due keys, (due, keys) ∈ buffer.ticksFrom tick ↔
        tick ≤ due ∧ buffer.keysAt? due = some keys) ∧
      (∀ space, Longest (buffer.ticksFrom tick) space (buffer.pack tick space)) ∧
      ∃ whole : Bytes,
        (∀ room, whole.length ≤ room →
          buffer.pack tick room = ⟨whole, (buffer.ticksFrom tick).length, none⟩) ∧
        ∀ spaces, Pieces whole (buffer.chunks tick spaces) := by
  have full := reachable.noEmptyTick
  refine ⟨buffer.ticksFrom_ascending tick, fun _ _ => mem_ticksFrom, full.longest tick,
    encode (buffer.ticksFrom tick), ?_, full.pieces tick⟩
  intro room enough
  exact (full.longest tick room).unlimited enough

/-! ## A tick of two blocks -/

namespace TwoBlocks

/-- More keys than a block holds. -/
def keys : List Key := List.replicate 65537 7

theorem keys_ne_nil : keys ≠ [] := List.cons_ne_nil 7 (List.replicate 65536 7)

theorem tickSize_keys : tickSize keys.length = 262164 := by
  rw [keys, List.length_replicate]
  rfl

/-- Some keys at tick 5, and one key at tick 9. -/
def bufferOf (keys : List Key) : SendBuffer := ((empty 64).addKey 9 1).addKeys 5 keys

/-- Too little space at first, then enough for the first tick, none, and enough for the other. -/
def spaces : List Nat := [262163, 262164, 0, 12]

theorem reachable : (bufferOf keys).Reachable := .addKeys 5 keys (.addKey 9 1 (.empty 64))

section

variable {keys : List Key} (some : keys ≠ [])

include some

theorem ticksFrom_bufferOf :
    (bufferOf keys).ticksFrom 0 = [(5, keys), (9, [1])] ∧
      (bufferOf keys).ticksFrom 5 = [(5, keys), (9, [1])] ∧
      (bufferOf keys).ticksFrom 9 = [(9, [1])] := by
  have more : keys.isEmpty = false := List.isEmpty_eq_false_iff.2 some
  rw [bufferOf, addKeys, more]
  exact ⟨rfl, rfl, rfl⟩

theorem exists_chunk_next_none (size : tickSize keys.length = 262164) :
    ∃ chunk ∈ (bufferOf keys).chunks 0 spaces, chunk.next = none := by
  obtain ⟨fromStart, fromFive, fromNine⟩ := ticksFrom_bufferOf some
  have one : tickSize 1 = 12 := rfl
  refine ⟨⟨encodeTick 9 [1], 1, none⟩, ?_, rfl⟩
  simp [spaces, chunks, pack, fromStart, fromFive, fromNine, packTicks, size, one]

end

end TwoBlocks

/-- The tick of two blocks does not fit into the first space and reads back whole from the four
chunks. -/
theorem chunked_ticks_read_back_twoBlocks :
    (TwoBlocks.bufferOf TwoBlocks.keys).Reachable ∧
      decodeTicks (((TwoBlocks.bufferOf TwoBlocks.keys).chunks 0 TwoBlocks.spaces).flatMap
        Chunk.bytes) = some [(5, TwoBlocks.keys), (9, [1])] := by
  obtain ⟨-, -, longest, whole, unlimited, pieces⟩ :=
    chunked_ticks_read_back TwoBlocks.reachable 0
  have all := (pieces TwoBlocks.spaces).all
    (TwoBlocks.exists_chunk_next_none TwoBlocks.keys_ne_nil TwoBlocks.tickSize_keys)
  have read := (longest whole.length).read
  rw [unlimited whole.length (Nat.le_refl _), List.take_length,
    (TwoBlocks.ticksFrom_bufferOf TwoBlocks.keys_ne_nil).1] at read
  rw [all]
  exact ⟨TwoBlocks.reachable, read⟩

end MeshControl.SendBuffer
