import MeshControl.Proofs.Ordered.Split
import MeshControl.Proofs.SendBuffer.Packing
import MeshControl.Stream.Streamer

/-!
# A stream delivers each tick once

A stream is driven by requests, for the initial fill or with a report of free space, in any order
and number. Main statement: `Delivery`, for every buffer that can be made and every sequence of
requests. The chunks sent so far, read back, are the ticks below the cursor that the core has
room for, in order and each once with all its keys; the ticks below the cursor that it has no
room for are those that were counted as dropped.

The cursor splits the ticks of the buffer into those behind it and those ahead (`At`); a chunk,
a wait, a drop and the end each move the split.
-/

namespace MeshControl.Stream

open SendBuffer (Entry encode entriesSize tickSize)

/-- What a stream is asked for. -/
inductive Request where
  | initialFill
  /-- A report of free space. -/
  | refill (free : UInt32)
  deriving DecidableEq, Repr

/-- The answer to a request: a chunk to send, or none. -/
abbrev Answer := Except Fault (Option Bytes)

/-- The bytes that an answer sends. -/
def Answer.bytes : Answer → Bytes
  | .ok (some bytes) => bytes
  | .ok none | .error _ => []

theorem Answer.bytes_ok (chunk : Option Bytes) : Answer.bytes (.ok chunk) = chunk.getD [] := by
  cases chunk <;> rfl

namespace Streamer

/-- Answer a request. -/
def serve (streamer : Streamer) : Request → Answer × Streamer
  | .initialFill =>
    let (answer, streamer) := streamer.initialFill
    (answer.map some, streamer)
  | .refill free => streamer.refill free

/-- Answer requests in turn; each is listed with its answer. -/
def run (streamer : Streamer) : List Request → List (Request × Answer) × Streamer
  | [] => ([], streamer)
  | request :: rest =>
    let (answer, streamer) := streamer.serve request
    let (answers, streamer) := streamer.run rest
    ((request, answer) :: answers, streamer)

end Streamer

/-- The bytes that some answers send, in order. -/
def sentBytes (answers : List (Request × Answer)) : Bytes :=
  answers.flatMap fun answered => answered.2.bytes

/-- True if a cursor has passed a tick; a cursor past the end has passed all. -/
def passed (next : Option Tick) (tick : Tick) : Bool :=
  match next with
  | some next => tick < next
  | none => true

/-- True if a core that holds `capacity` bytes has room for the keys of a tick. -/
def hasRoom (capacity : UInt32) (entry : Entry) : Bool :=
  tickSize entry.2.length ≤ capacity.toNat

/-- What has become of the ticks of a buffer once a stream of it has given some answers. -/
structure Delivery (buffer : SendBuffer) (capacity : UInt32)
    (answers : List (Request × Answer)) (streamer : Streamer) : Prop where
  /-- The chunks read back as the ticks behind the cursor that the core has room for. -/
  delivered : ∃ ticks, SendBuffer.decodeTicks (sentBytes answers) = some ticks ∧
    ticks.Pairwise (fun a b => a.1 < b.1) ∧
    ∀ tick keys, (tick, keys) ∈ ticks ↔
      buffer.keysAt? tick = some keys ∧ passed streamer.next tick ∧
        tickSize keys.length ≤ capacity.toNat
  /-- The ticks behind the cursor that the core has no room for were dropped. -/
  dropped : streamer.dropped = buffer.ticks.entries.countP fun (tick, keys) =>
    passed streamer.next tick && capacity.toNat < tickSize keys.length
  /-- A chunk that answers a report fits into the space that was reported. -/
  refills : ∀ free bytes, (.refill free, .ok (some bytes)) ∈ answers →
    bytes ≠ [] ∧ bytes.length ≤ min free.toNat capacity.toNat
  /-- An initial fill fits into the buffer of the core. -/
  initialFills : ∀ bytes, (.initialFill, .ok (some bytes)) ∈ answers →
    bytes.length ≤ capacity.toNat

/-! ## The cursor -/

/-- The stream of `buffer` has the ticks `behind` behind its cursor and `ahead` ahead of it, and
has sent `sent`. -/
structure At (buffer : SendBuffer) (capacity : UInt32) (behind ahead : List Entry) (sent : Bytes)
    (streamer : Streamer) : Prop where
  source : streamer.buffer = buffer
  room : streamer.flow.capacity = capacity
  split : buffer.ticks.entries = behind ++ ahead
  next : streamer.next = ahead.head?.map Prod.fst
  sent : sent = encode (behind.filter (hasRoom capacity))
  dropped : streamer.dropped = behind.countP fun entry => !hasRoom capacity entry

/-- The cursor is somewhere. -/
def Placed (buffer : SendBuffer) (capacity : UInt32) (sent : Bytes) (streamer : Streamer) : Prop :=
  ∃ behind ahead, At buffer capacity behind ahead sent streamer

section Cursor

variable {buffer : SendBuffer} {capacity : UInt32} {behind ahead : List Entry} {sent : Bytes}
  {streamer : Streamer}

theorem toNat_min (a b : UInt32) : (min a b).toNat = min a.toNat b.toNat := by
  rw [show min a b = if a ≤ b then a else b from rfl]
  split
  · rename_i less
    exact (Nat.min_eq_left (UInt32.le_iff_toNat_le.1 less)).symm
  · rename_i more
    have := UInt32.lt_iff_toNat_lt.1 (UInt32.not_le.1 more)
    omega

theorem Flow.finish_capacity (flow : Flow) (after : Option Tick) :
    (flow.finish after).capacity = flow.capacity := by
  unfold Flow.finish
  split <;> rfl

theorem At.moveTo (h : At buffer capacity behind ahead sent streamer) :
    At buffer capacity behind ahead sent (streamer.moveTo streamer.next) := by
  unfold Streamer.moveTo
  split
  · exact ⟨h.source, (Flow.finish_capacity _ _).trans h.room, h.split, h.next, h.sent,
      h.dropped⟩
  · exact h

/-- The same with the flow changed, as long as the capacity stays. -/
theorem At.withFlow (h : At buffer capacity behind ahead sent streamer) {flow : Flow}
    (same : flow.capacity = streamer.flow.capacity) :
    At buffer capacity behind ahead sent { streamer with flow } :=
  ⟨h.source, same.trans h.room, h.split, h.next, h.sent, h.dropped⟩

/-- Ticks that fit together are each small enough for the core. -/
theorem filter_hasRoom_of_fits {taken : List Entry} {space : Nat}
    (fits : entriesSize taken ≤ space) (most : space ≤ capacity.toNat) :
    ∀ entry ∈ taken, hasRoom capacity entry = true := by
  intro entry h
  have := SendBuffer.tickSize_le_entriesSize h
  exact decide_eq_true (by omega)

/-- A chunk moves its ticks behind the cursor. -/
theorem At.send {taken left : List Entry} (h : At buffer capacity behind (taken ++ left) sent streamer)
    {space : Nat} (most : space ≤ capacity.toNat) {chunk : SendBuffer.Chunk}
    (packed : SendBuffer.Packed space taken left chunk) :
    At buffer capacity (behind ++ taken) left (sent ++ chunk.bytes)
      (streamer.moveTo chunk.next) := by
  have small := filter_hasRoom_of_fits packed.fits most
  have kept : taken.filter (hasRoom capacity) = taken := List.filter_eq_self.2 small
  have none : taken.countP (fun entry => !hasRoom capacity entry) = 0 := by
    rw [List.countP_eq_zero]
    intro entry he
    simp [small entry he]
  have moved : At buffer capacity (behind ++ taken) left (sent ++ chunk.bytes)
      { streamer with next := chunk.next } := by
    refine ⟨h.source, h.room, by rw [h.split, List.append_assoc], packed.next, ?_, ?_⟩
    · rw [List.filter_append, kept, SendBuffer.encode_append, h.sent, packed.bytes]
    · rw [List.countP_append, none, Nat.add_zero, ← h.dropped]
  exact moved.moveTo

/-- A tick that the core has no room for is dropped behind the cursor. -/
theorem At.drop {entry : Entry} {rest : List Entry}
    (h : At buffer capacity behind (entry :: rest) sent streamer)
    (large : hasRoom capacity entry = false) :
    At buffer capacity (behind ++ [entry]) rest sent
      { streamer with next := rest.head?.map Prod.fst, dropped := streamer.dropped + 1 } := by
  refine ⟨h.source, h.room, by rw [h.split, List.append_assoc]; rfl, rfl, ?_, ?_⟩
  · simp [List.filter_append, large, ← h.sent]
  · simp [List.countP_append, large, ← h.dropped]

/-- What taking a chunk does: the chunk, if there is one, is not empty and fits into the space, and
the cursor moves on over the ticks it holds. -/
structure Taken (buffer : SendBuffer) (capacity : UInt32) (sent : Bytes) (space : Nat)
    (result : Option Bytes × Streamer) : Prop where
  placed : Placed buffer capacity (sent ++ result.1.getD []) result.2
  chunk : ∀ bytes ∈ result.1, bytes ≠ [] ∧ bytes.length ≤ space

theorem Taken.nothing (h : At buffer capacity behind ahead sent streamer) (space : Nat) :
    Taken buffer capacity sent space (none, streamer) := by
  refine ⟨⟨behind, ahead, ?_⟩, by simp⟩
  rw [Option.getD_none, List.append_nil]
  exact h

/-- A chunk of at least one tick. -/
theorem Taken.packed (full : buffer.NoEmptyTick) {space : Nat} (most : space ≤ capacity.toNat)
    {taken left : List Entry} (h : At buffer capacity behind (taken ++ left) sent streamer)
    {chunk : SendBuffer.Chunk} (packed : SendBuffer.Packed space taken left chunk)
    (more : taken ≠ []) :
    Taken buffer capacity sent space (some chunk.bytes, streamer.moveTo chunk.next) := by
  have keys : ∀ entry ∈ taken, entry.2 ≠ [] := by
    intro entry he
    refine full entry ?_
    rw [h.split]
    exact List.mem_append_right _ (List.mem_append_left _ he)
  refine ⟨⟨_, left, h.send most packed⟩, ?_⟩
  intro bytes isChunk
  rw [← Option.some.inj isChunk, packed.bytes]
  refine ⟨SendBuffer.encode_ne_nil keys more, ?_⟩
  rw [SendBuffer.length_encode keys]
  exact packed.fits

/-- Induction on the ticks ahead: each that is dropped leaves the others to be looked at. -/
theorem takeTicks_taken (full : buffer.NoEmptyTick) {space : Nat} (most : space ≤ capacity.toNat)
    (h : At buffer capacity behind ahead sent streamer) :
    Taken buffer capacity sent space (streamer.takeTicks space ahead) := by
  induction ahead generalizing behind streamer with
  | nil =>
    have ended : streamer.moveTo none = streamer.moveTo streamer.next := by rw [h.next]; rfl
    rw [Streamer.takeTicks, ended]
    exact .nothing h.moveTo space
  | cons entry rest ih =>
    obtain ⟨tick, keys⟩ := entry
    rw [Streamer.takeTicks]
    by_cases fits : tickSize keys.length ≤ space
    · rw [if_pos fits]
      obtain ⟨taken, left, split, packed⟩ := SendBuffer.packTicks_packed space ((tick, keys) :: rest)
      rw [split] at h
      exact .packed full most h packed (packed.taken_ne_nil split fits)
    · rw [if_neg fits]
      by_cases large : streamer.flow.capacity.toNat < tickSize keys.length
      · rw [if_pos large]
        refine ih (h.drop ?_)
        rw [h.room] at large
        exact decide_eq_false (Nat.not_le.2 large)
      · rw [if_neg large]
        have waits : streamer.moveTo (some tick) = streamer.moveTo streamer.next := by
          rw [h.next]; rfl
        rw [waits]
        exact .nothing h.moveTo space

theorem take_taken (full : buffer.NoEmptyTick) {space : Nat} (most : space ≤ capacity.toNat)
    (h : Placed buffer capacity sent streamer) :
    Taken buffer capacity sent space (streamer.take space) := by
  obtain ⟨behind, ahead, h⟩ := h
  unfold Streamer.take
  cases ahead with
  | nil =>
    have ended : streamer.next = none := h.next
    rw [ended]
    exact takeTicks_taken full most h
  | cons entry rest =>
    have next : streamer.next = some entry.1 := h.next
    have from_cursor : streamer.buffer.ticksFrom entry.1 = entry :: rest := by
      rw [h.source]
      exact OrderedMap.entriesFrom_of_split h.split
    rw [next]
    simp only [from_cursor]
    exact takeTicks_taken full most h

/-- Behind the cursor are the ticks that it has passed. -/
theorem At.filter_passed (h : At buffer capacity behind ahead sent streamer) :
    buffer.ticks.entries.filter (fun entry => passed streamer.next entry.1) = behind := by
  rw [h.next]
  cases ahead with
  | nil =>
    rw [h.split, List.append_nil, List.filter_eq_self]
    intro entry _
    rfl
  | cons entry rest =>
    rw [← OrderedMap.filter_before_of_split h.split]
    apply List.filter_congr
    intro tick _
    exact (before_word tick.1 entry.1).symm

end Cursor

/-! ## Requests -/

/-- An answer sends no more than its request has room for. -/
def Suits (capacity : UInt32) (request : Request) (answer : Answer) : Prop :=
  ∀ bytes, answer = .ok (some bytes) →
    match request with
    | .initialFill => bytes.length ≤ capacity.toNat
    | .refill free => bytes ≠ [] ∧ bytes.length ≤ min free.toNat capacity.toNat

section Run

variable {buffer : SendBuffer} {capacity : UInt32} {sent : Bytes} {streamer : Streamer}

theorem Placed.quiet (h : Placed buffer capacity sent streamer) {answer : Answer}
    (silent : answer.bytes = []) : Placed buffer capacity (sent ++ answer.bytes) streamer := by
  rw [silent, List.append_nil]
  exact h

theorem Placed.capacity_eq (h : Placed buffer capacity sent streamer) :
    streamer.flow.capacity = capacity := by
  obtain ⟨behind, ahead, h⟩ := h
  exact h.room

theorem serve_initialFill (full : buffer.NoEmptyTick) (h : Placed buffer capacity sent streamer) :
    Placed buffer capacity (sent ++ (streamer.serve .initialFill).1.bytes)
        (streamer.serve .initialFill).2 ∧
      Suits capacity .initialFill (streamer.serve .initialFill).1 := by
  simp only [Streamer.serve, Streamer.initialFill]
  split
  · exact ⟨h.quiet rfl, nofun⟩
  · have taken := take_taken full (Nat.le_refl _) h
    rw [h.capacity_eq]
    refine ⟨taken.placed, ?_⟩
    intro bytes isAnswer
    cases chunk : (streamer.take capacity.toNat).1 with
    | none =>
      rw [chunk] at isAnswer
      cases isAnswer
      exact Nat.zero_le _
    | some found =>
      rw [chunk] at isAnswer
      cases isAnswer
      exact (taken.chunk _ chunk).2

theorem Flow.eq_of_record {flow flow' : Flow} {free : UInt32} (h : flow.record free = .ok flow') :
    flow' = { flow with lastFree := min free flow.capacity } := by
  unfold Flow.record at h
  cases live : flow.ensureLive with
  | error fault =>
    rw [live] at h
    cases h
  | ok _ =>
    rw [live] at h
    cases h
    rfl

theorem serve_refill (full : buffer.NoEmptyTick) (h : Placed buffer capacity sent streamer)
    (free : UInt32) :
    Placed buffer capacity (sent ++ (streamer.serve (.refill free)).1.bytes)
        (streamer.serve (.refill free)).2 ∧
      Suits capacity (.refill free) (streamer.serve (.refill free)).1 := by
  simp only [Streamer.serve, Streamer.refill]
  split
  · exact ⟨h.quiet rfl, nofun⟩
  · rename_i flow recorded
    have reported := Flow.eq_of_record recorded
    have least : flow.lastFree.toNat = min free.toNat capacity.toNat := by
      rw [reported, ← h.capacity_eq]
      exact toNat_min free streamer.flow.capacity
    have moved : Placed buffer capacity sent { streamer with flow } := by
      obtain ⟨behind, ahead, h⟩ := h
      refine ⟨behind, ahead, h.withFlow ?_⟩
      rw [reported]
    split
    · have taken := take_taken full (by omega : flow.lastFree.toNat ≤ capacity.toNat) moved
      constructor
      · rw [Answer.bytes_ok]
        exact taken.placed
      · intro bytes isAnswer
        have chunk := taken.chunk bytes (Except.ok.inj isAnswer)
        rw [least] at chunk
        exact chunk
    · exact ⟨moved.quiet rfl, nofun⟩

theorem serve_placed (full : buffer.NoEmptyTick) (h : Placed buffer capacity sent streamer)
    (request : Request) :
    Placed buffer capacity (sent ++ (streamer.serve request).1.bytes) (streamer.serve request).2 ∧
      Suits capacity request (streamer.serve request).1 := by
  cases request with
  | initialFill => exact serve_initialFill full h
  | refill free => exact serve_refill full h free

/-- Induction on the requests, which each go on from where the cursor is. -/
theorem run_placed (full : buffer.NoEmptyTick) (requests : List Request)
    (h : Placed buffer capacity sent streamer) :
    Placed buffer capacity (sent ++ sentBytes (streamer.run requests).1)
        (streamer.run requests).2 ∧
      ∀ answered ∈ (streamer.run requests).1, Suits capacity answered.1 answered.2 := by
  induction requests generalizing sent streamer with
  | nil =>
    refine ⟨?_, by simp [Streamer.run]⟩
    simpa [Streamer.run, sentBytes] using h
  | cons request rest ih =>
    obtain ⟨placed, suits⟩ := serve_placed full h request
    obtain ⟨later, suit⟩ := ih placed
    constructor
    · rw [List.append_assoc] at later
      exact later
    · intro answered isAnswered
      rcases List.mem_cons.1 isAnswered with rfl | isLater
      · exact suits
      · exact suit answered isLater

end Run

theorem start_placed (buffer : SendBuffer) (capacity threshold : UInt32) :
    Placed buffer capacity [] (.start buffer (.start capacity threshold)) :=
  ⟨[], buffer.ticks.entries, rfl, rfl, rfl, rfl, rfl, rfl⟩

/-- What the place of the cursor says about the ticks of the buffer. -/
theorem Placed.delivery {buffer : SendBuffer} {capacity : UInt32} {streamer : Streamer}
    {answers : List (Request × Answer)} (full : buffer.NoEmptyTick)
    (h : Placed buffer capacity (sentBytes answers) streamer)
    (suits : ∀ answered ∈ answers, Suits capacity answered.1 answered.2) :
    Delivery buffer capacity answers streamer := by
  obtain ⟨behind, ahead, h⟩ := h
  have behindIs := h.filter_passed
  have ascending : (behind.filter (hasRoom capacity)).Pairwise fun a b => a.1 < b.1 := by
    have all := buffer.ticks.ascending
    rw [h.split] at all
    refine ((List.pairwise_append.1 all).1.filter _).imp ?_
    intro a b before
    rw [before_word] at before
    exact of_decide_eq_true before
  refine ⟨⟨behind.filter (hasRoom capacity), ?_, ascending, ?_⟩, ?_, ?_, ?_⟩
  · rw [h.sent]
    refine SendBuffer.decodeTicks_flatMap ?_ (ascending.imp UInt32.ne_of_lt)
    intro entry isDelivered
    refine full entry ?_
    rw [h.split]
    exact List.mem_append_left _ (List.mem_filter.1 isDelivered).1
  · intro tick keys
    rw [List.mem_filter, ← behindIs, List.mem_filter, OrderedMap.mem_entries_iff, and_assoc,
      hasRoom, decide_eq_true_iff]
    rfl
  · rw [h.dropped, ← behindIs, List.countP_filter]
    apply List.countP_congr
    intro entry _
    simp [hasRoom, and_comm]
  · intro free bytes isAnswer
    exact suits _ isAnswer bytes rfl
  · intro bytes isAnswer
    exact suits _ isAnswer bytes rfl

/-- **A stream delivers each tick once**, whatever it is asked for and in whatever order. -/
theorem run_delivery {buffer : SendBuffer} (reachable : buffer.Reachable)
    (capacity threshold : UInt32) (requests : List Request) :
    let result := (Streamer.start buffer (.start capacity threshold)).run requests
    Delivery buffer capacity result.1 result.2 := by
  have full := reachable.noEmptyTick
  obtain ⟨placed, suits⟩ := run_placed full requests (start_placed buffer capacity threshold)
  exact placed.delivery full suits

/-- Two ticks that are too large, one of them the last that there is, and one that is sent. -/
def unevenBuffer : SendBuffer :=
  (((SendBuffer.empty 32).addKeys 1 (List.replicate 10 7)).addKeys 2 [10, 11]).addKeys 4294967295
    (List.replicate 10 8)

theorem run_delivery_uneven :
    unevenBuffer.Reachable ∧
      let result := (Streamer.start unevenBuffer (.start 32 12)).run
        [.refill 8, .initialFill, .refill 32, .refill 32]
      Delivery unevenBuffer 32 result.1 result.2 ∧ result.2.dropped = 2 ∧ result.2.next = none := by
  have reachable : unevenBuffer.Reachable :=
    (((SendBuffer.Reachable.empty 32).addKeys _ _).addKeys _ _).addKeys _ _
  exact ⟨reachable, run_delivery reachable 32 12 _, by decide, by decide⟩

end MeshControl.Stream
