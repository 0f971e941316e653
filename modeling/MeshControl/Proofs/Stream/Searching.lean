import MeshControl.Proofs.Stream.Delivery

/-!
# The search for a chunk

A stream searches for its next chunk in rounds. A round looks at the tick at the cursor alone: it
ends the search, or drops the tick and moves the cursor on. `Streamer.take` is one walk over the
ticks ahead instead. The rounds come to an end, after no more of them than there are ticks ahead and
one, and it is that of the walk (`search_eq_take`). The ways in which it can end are `Searched`
(`exists_searched`).
-/

namespace MeshControl

/-- The first tick with keys after `tick`. The greatest tick has none after it. -/
def SendBuffer.tickAfter? (buffer : SendBuffer) (tick : Tick) : Option Tick :=
  if tick = 4294967295 then none else (buffer.ticksFrom (tick + 1)).head?.map Prod.fst

namespace Stream

open SendBuffer (Entry tickSize)

namespace Streamer

/-- The ticks from the cursor on. -/
def ahead (streamer : Streamer) : List Entry :=
  match streamer.next with
  | none => []
  | some tick => streamer.buffer.ticksFrom tick

/-- One round of the search: the stream to go on with, or the result. -/
def round (streamer : Streamer) (space : Nat) : Streamer ⊕ (Option Bytes × Streamer) :=
  match streamer.next with
  | none => .inr (none, streamer.finish)
  | some tick =>
    let chunk := streamer.buffer.pack tick space
    let size := if chunk.tickCount = 0 then streamer.buffer.bytesAt? tick else none
    if size.any fun size => streamer.flow.capacity.toNat < size then
      .inl { streamer with
        next := streamer.buffer.tickAfter? tick
        dropped := streamer.dropped + 1 }
    else
      .inr (if chunk.tickCount = 0 then none else some chunk.bytes, streamer.moveTo chunk.next)

/-- The search, if it ends within some rounds. -/
def search (streamer : Streamer) (space : Nat) : Nat → Option (Option Bytes × Streamer)
  | 0 => none
  | rounds + 1 =>
    match streamer.round space with
    | .inl streamer => streamer.search space rounds
    | .inr result => some result

/-- Some more ticks are dropped. -/
def skip (streamer : Streamer) (count : Nat) : Streamer :=
  { streamer with dropped := streamer.dropped + count }

theorem ahead_sublist (streamer : Streamer) :
    streamer.ahead.Sublist streamer.buffer.ticks.entries := by
  unfold ahead
  split
  · exact List.nil_sublist _
  · exact List.filter_sublist

theorem take_eq_takeTicks (streamer : Streamer) (space : Nat) :
    streamer.take space = streamer.takeTicks space streamer.ahead := by
  unfold take ahead
  cases streamer.next <;> rfl

section Moving

variable (streamer : Streamer) (next : Option Tick)

@[simp] theorem moveTo_next : (streamer.moveTo next).next = next := by
  unfold moveTo
  split <;> rfl

@[simp] theorem moveTo_buffer : (streamer.moveTo next).buffer = streamer.buffer := by
  unfold moveTo
  split <;> rfl

theorem moveTo_flow : (streamer.moveTo next).flow =
    if next.isNone then streamer.flow.finish streamer.buffer.lastTick? else streamer.flow := by
  unfold moveTo
  split <;> rfl

end Moving

/-- A cursor that stands on one of the ticks ahead of another. -/
theorem ahead_of_split {streamer later : Streamer} (same : later.buffer = streamer.buffer)
    {front rest : List Entry} (split : streamer.ahead = front ++ rest)
    (next : later.next = rest.head?.map Prod.fst) : later.ahead = rest := by
  unfold ahead
  cases rest with
  | nil =>
    rw [next]
    rfl
  | cons entry rest =>
    rw [next]
    change later.buffer.ticks.entriesFrom entry.1 = entry :: rest
    rw [same]
    unfold ahead at split
    split at split
    · cases (List.append_eq_nil_iff.1 split.symm).2
    · exact OrderedMap.entriesFrom_of_entriesFrom split

end Streamer

section Rounds

variable {buffer : SendBuffer} {capacity : UInt32} {behind ahead rest : List Entry} {sent : Bytes}
  {streamer : Streamer} {tick : Tick} {keys : List Key}

theorem At.ahead_eq (h : At buffer capacity behind ahead sent streamer) :
    streamer.ahead = ahead := by
  unfold Streamer.ahead
  rw [h.next]
  cases ahead with
  | nil => rfl
  | cons entry rest =>
    rw [h.source]
    exact OrderedMap.entriesFrom_of_split h.split

/-- After the tick at the cursor comes the next of those ahead. -/
theorem At.tickAfter? (h : At buffer capacity behind ((tick, keys) :: rest) sent streamer) :
    buffer.tickAfter? tick = rest.head?.map Prod.fst := by
  unfold SendBuffer.tickAfter?
  split
  · rename_i top
    rw [OrderedMap.eq_nil_of_split_top h.split top]
    rfl
  · rename_i more
    rw [SendBuffer.ticksFrom, OrderedMap.entriesFrom_succ_of_split h.split more]

/-- A round with a tick at the cursor goes by the size of that tick. -/
theorem At.round (h : At buffer capacity behind ((tick, keys) :: rest) sent streamer)
    (space : Nat) :
    streamer.round space =
      if tickSize keys.length ≤ space then
        let chunk := SendBuffer.packTicks space ((tick, keys) :: rest)
        .inr (some chunk.bytes, streamer.moveTo chunk.next)
      else if streamer.flow.capacity.toNat < tickSize keys.length then
        .inl { streamer with
          next := rest.head?.map Prod.fst
          dropped := streamer.dropped + 1 }
      else .inr (none, streamer.moveTo (some tick)) := by
  have next : streamer.next = some tick := h.next
  have listed : (tick, keys) ∈ buffer.ticks.entries := by
    rw [h.split]
    exact List.mem_append_right _ (List.mem_cons_self ..)
  have held : buffer.keysAt? tick = some keys := (OrderedMap.mem_entries_iff ..).1 listed
  have size : buffer.bytesAt? tick = some (tickSize keys.length) := by
    rw [SendBuffer.bytesAt?, held, Option.map_some]
  have chunk : buffer.pack tick space = SendBuffer.packTicks space ((tick, keys) :: rest) :=
    congrArg _ (OrderedMap.entriesFrom_of_split h.split)
  unfold Streamer.round
  simp only [next, h.source, size, chunk, h.tickAfter?]
  rw [SendBuffer.packTicks]
  by_cases fits : tickSize keys.length ≤ space
  · simp only [if_pos fits, Nat.add_one_ne_zero, if_false, Option.any_none, Bool.false_eq_true]
  · rw [if_neg fits, if_neg fits]
    dsimp only
    rw [if_pos rfl, Option.any_some, if_pos rfl]
    by_cases large : streamer.flow.capacity.toNat < tickSize keys.length
    · rw [if_pos (decide_eq_true large), if_pos large]
    · rw [if_neg (mt of_decide_eq_true large), if_neg large]

/-- Induction on the ticks ahead: a round that does not end the search drops the first of them. -/
theorem search_eq_takeTicks (h : At buffer capacity behind ahead sent streamer) (space : Nat)
    {rounds : Nat} (enough : ahead.length < rounds) :
    streamer.search space rounds = some (streamer.takeTicks space ahead) := by
  induction ahead generalizing behind streamer rounds with
  | nil =>
    obtain ⟨rounds, rfl⟩ := Nat.exists_eq_add_one.2 enough
    have next : streamer.next = none := h.next
    have here : { streamer with next := none } = streamer := by rw [← next]
    rw [Streamer.search, Streamer.round, next, Streamer.takeTicks, Streamer.moveTo]
    simp [here]
  | cons entry rest ih =>
    obtain ⟨tick, keys⟩ := entry
    obtain ⟨rounds, rfl⟩ := Nat.exists_eq_add_one.2 (Nat.zero_lt_of_lt enough)
    rw [Streamer.search, h.round, Streamer.takeTicks]
    by_cases fits : tickSize keys.length ≤ space
    · rw [if_pos fits, if_pos fits]
    · rw [if_neg fits, if_neg fits]
      by_cases large : streamer.flow.capacity.toNat < tickSize keys.length
      · rw [if_pos large, if_pos large]
        rw [h.room] at large
        exact ih (h.drop (decide_eq_false (Nat.not_le.2 large))) (Nat.lt_of_succ_lt_succ enough)
      · rw [if_neg large, if_neg large]

/-- **The search for a chunk comes to an end** within one round more than the buffer has ticks. -/
theorem search_eq_take (h : Placed buffer capacity sent streamer) (space : Nat) :
    streamer.search space (buffer.tickCount + 1) = some (streamer.take space) := by
  obtain ⟨behind, ahead, h⟩ := h
  have most := streamer.ahead_sublist.length_le
  rw [h.source, h.ahead_eq] at most
  rw [Streamer.take_eq_takeTicks, h.ahead_eq]
  exact search_eq_takeTicks h space (Nat.lt_succ_of_le most)

end Rounds

/-- How the search ends with `rest` ahead: with the stream, at a tick that has to wait for more
space, or with a chunk of some ticks. -/
inductive Searched (streamer : Streamer) (space : Nat) :
    List Entry → Option Bytes × Streamer → Prop
  | ended : Searched streamer space [] (none, streamer.moveTo none)
  | waits {entry : Entry} {rest : List Entry} (small : space < tickSize entry.2.length)
      (room : tickSize entry.2.length ≤ streamer.flow.capacity.toNat) :
      Searched streamer space (entry :: rest) (none, streamer.moveTo (some entry.1))
  | sends {taken left : List Entry} {chunk : SendBuffer.Chunk} (more : taken ≠ [])
      (packed : SendBuffer.Packed space taken left chunk) :
      Searched streamer space (taken ++ left) (some chunk.bytes, streamer.moveTo chunk.next)

/-- However it ends, the cursor is moved. -/
theorem Searched.exists_moveTo {streamer : Streamer} {space : Nat} {rest : List Entry}
    {result : Option Bytes × Streamer} (h : Searched streamer space rest result) :
    ∃ next, result.2 = streamer.moveTo next := by
  cases h with
  | ended => exact ⟨none, rfl⟩
  | @waits entry => exact ⟨some entry.1, rfl⟩
  | @sends _ _ chunk => exact ⟨chunk.next, rfl⟩

/-- Where the cursor was does not matter once it is moved. -/
theorem Searched.withNext {streamer : Streamer} {space : Nat} {rest : List Entry}
    {result : Option Bytes × Streamer} (h : Searched streamer space rest result)
    (next : Option Tick) : Searched { streamer with next } space rest result := by
  cases h with
  | ended => exact .ended
  | waits small room => exact .waits small room
  | sends more packed => exact .sends more packed

/-- The search skips some ticks that are larger than the whole buffer of the core. -/
theorem exists_searched (streamer : Streamer) (space : Nat) :
    ∃ skipped rest, streamer.ahead = skipped ++ rest ∧
      (∀ entry ∈ skipped, streamer.flow.capacity.toNat < tickSize entry.2.length) ∧
      Searched (streamer.skip skipped.length) space rest (streamer.take space) := by
  rw [Streamer.take_eq_takeTicks]
  generalize streamer.ahead = ahead
  induction ahead generalizing streamer with
  | nil => exact ⟨[], [], rfl, by simp, .ended⟩
  | cons entry later ih =>
    obtain ⟨tick, keys⟩ := entry
    rw [Streamer.takeTicks]
    by_cases fits : tickSize keys.length ≤ space
    · rw [if_pos fits]
      obtain ⟨taken, left, split, packed⟩ :=
        SendBuffer.packTicks_packed space ((tick, keys) :: later)
      refine ⟨[], _, rfl, by simp, ?_⟩
      rw [split] at packed ⊢
      exact .sends (packed.taken_ne_nil split fits) packed
    · rw [if_neg fits]
      by_cases large : streamer.flow.capacity.toNat < tickSize keys.length
      · rw [if_pos large]
        obtain ⟨skipped, rest, split, all, searched⟩ := ih
          { streamer with next := later.head?.map Prod.fst, dropped := streamer.dropped + 1 }
        refine ⟨(tick, keys) :: skipped, rest, by rw [split, List.cons_append], ?_, ?_⟩
        · intro entry member
          rcases List.mem_cons.1 member with rfl | member
          · exact large
          · exact all entry member
        · have same : { Streamer.skip { streamer with
              next := later.head?.map Prod.fst
              dropped := streamer.dropped + 1 } skipped.length with next := streamer.next } =
              streamer.skip (skipped.length + 1) := by
            simp only [Streamer.skip, Nat.add_assoc, Nat.add_comm 1]
          rw [List.length_cons, ← same]
          exact searched.withNext streamer.next
      · rw [if_neg large]
        refine ⟨[], (tick, keys) :: later, rfl, by simp, ?_⟩
        exact @Searched.waits (streamer.skip 0) space (tick, keys) later (Nat.not_le.1 fits)
          (Nat.not_lt.1 large)

/-- A search that ends without a chunk and not with the stream has skipped some ticks. -/
theorem exists_skipped_of_take {streamer later : Streamer} {space : Nat}
    (quiet : streamer.take space = (none, later)) (waits : later.next ≠ none) :
    ∃ skipped, streamer.ahead = skipped ++ later.ahead ∧
      (∀ entry ∈ skipped, streamer.flow.capacity.toNat < tickSize entry.2.length) ∧
      later = { streamer with
        next := later.next
        dropped := streamer.dropped + skipped.length } := by
  obtain ⟨skipped, rest, split, large, searched⟩ := exists_searched streamer space
  rw [quiet] at searched
  cases searched with
  | ended => exact absurd (Streamer.moveTo_next ..) waits
  | @waits entry left =>
    have here := Streamer.ahead_of_split
      ((streamer.skip skipped.length).moveTo_buffer (some entry.1)) split rfl
    refine ⟨skipped, ?_, large, rfl⟩
    rw [here]
    exact split

end Stream

end MeshControl
