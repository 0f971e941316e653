import MeshControl.Proofs.Stream.Searching

/-!
# A stream gets to its end and stays there

What holds of a stream in every state that requests can bring it to. Main statement: `Progress`,
for every buffer that can be made and every sequence of requests. A report of all space free moves
a live stream on, so that no more such reports than there are ticks and one end it; a stream that
sends nothing is where it was but for ticks that could never be sent; and it ends once it was asked
for data and none is left, for good.

What a request does is said once for a live stream (`Streamer.serve_initialFill_of_live`,
`Streamer.refill_of_live`) and once for one that has ended (`Streamer.serve_of_ended`). `Standing`
is what requests preserve.
-/

namespace MeshControl.Stream

open SendBuffer (tickSize)

/-- True for a request that is answered by a search: an initial fill, or a report of at least
`level` bytes. -/
def Request.asks (level : UInt32) : Request → Bool
  | .initialFill => true
  | .refill free => level ≤ free

/-- Where a stream is with its end, once it got some requests. -/
structure Progress (buffer : SendBuffer) (capacity threshold : UInt32) (requests : List Request)
    (streamer : Streamer) : Prop where
  /-- The search for a chunk comes to an end. -/
  searches : ∀ space,
    streamer.search space (buffer.tickCount + 1) = some (streamer.take space)
  /-- If all space is free a live stream sends something or ends. -/
  sends : streamer.flow.isEnded = false → ∀ free, capacity ≤ free →
    ∃ chunk later, streamer.refill free = (.ok chunk, later) ∧
      ((∃ bytes ∈ chunk, bytes ≠ []) ∨ later.flow.isEnded = true)
  /-- So it ends after that many reports. -/
  ends : ∀ reports : List UInt32, buffer.tickCount + 1 ≤ reports.length →
    (∀ free ∈ reports, capacity ≤ free) →
    (streamer.run (reports.map .refill)).2.flow.isEnded = true
  /-- A live stream that sends nothing has noted the report, and skipped ticks that are larger than
  the whole buffer of the core. -/
  waits : ∀ free later, streamer.refill free = (.ok none, later) → later.flow.isEnded = false →
    ∃ skipped, streamer.ahead = skipped ++ later.ahead ∧
      (∀ entry ∈ skipped, capacity.toNat < tickSize entry.2.length) ∧
      later = { streamer with
        flow := { streamer.flow with lastFree := min free capacity }
        next := later.next
        dropped := streamer.dropped + skipped.length }
  /-- It has ended if it was asked for data and has none left. -/
  ended : streamer.flow.isEnded = true ↔
    (∃ request ∈ requests, request.asks (min threshold capacity) = true) ∧ streamer.next = none
  /-- The end is after the last tick, and nothing changes from then on. -/
  final : streamer.flow.isEnded = true →
    streamer.flow.endedAfter = buffer.lastTick? ∧ ∀ later : List Request,
      streamer.run later = (later.map fun request =>
        (request, .error (.operation (.streamExhausted buffer.lastTick?))), streamer)

/-! ## What a request does -/

namespace Streamer

/-- A report of free space is noted. -/
def note (streamer : Streamer) (free : UInt32) : Streamer :=
  { streamer with flow := { streamer.flow with lastFree := min free streamer.flow.capacity } }

variable {streamer : Streamer}

theorem serve_initialFill_of_live (live : streamer.flow.phase = .live) :
    streamer.serve .initialFill =
      (.ok (some ((streamer.take streamer.flow.capacity.toNat).1.getD [])),
        (streamer.take streamer.flow.capacity.toNat).2) := by
  unfold serve initialFill Flow.ensureLive
  rw [live]
  rfl

theorem refill_of_live (live : streamer.flow.phase = .live) (free : UInt32) :
    streamer.refill free =
      if streamer.flow.threshold ≤ free then
        let result := (streamer.note free).take (min free streamer.flow.capacity).toNat
        (.ok result.1, result.2)
      else (.ok none, streamer.note free) := by
  have isLive : streamer.flow.ensureLive = .ok () := by
    unfold Flow.ensureLive
    rw [live]
  have recorded : streamer.flow.record free = .ok (streamer.note free).flow := by
    unfold Flow.record
    rw [isLive]
    rfl
  have wants : (streamer.note free).flow.wantsRefill free =
      decide (streamer.flow.threshold ≤ free) := by
    unfold Flow.wantsRefill
    rw [show (streamer.note free).flow.phase = .live from live, decide_eq_true rfl, Bool.true_and]
    rfl
  unfold refill
  rw [recorded]
  dsimp only
  rw [wants]
  by_cases enough : streamer.flow.threshold ≤ free
  · rw [if_pos (decide_eq_true enough), if_pos enough]
    rfl
  · rw [if_neg (mt of_decide_eq_true enough), if_neg enough]
    rfl

theorem serve_of_ended {after : Option Tick} (ended : streamer.flow.phase = .ended after)
    (request : Request) :
    streamer.serve request = (.error (.operation (.streamExhausted after)), streamer) := by
  have refuses : streamer.flow.ensureLive = .error (.operation (.streamExhausted after)) := by
    unfold Flow.ensureLive
    rw [ended]
  cases request with
  | initialFill =>
    unfold serve initialFill
    rw [refuses]
    rfl
  | refill free =>
    unfold serve refill Flow.record
    rw [refuses]
    rfl

/-- Induction on the requests: each leaves the stream as it is. -/
theorem run_of_ended {after : Option Tick} (ended : streamer.flow.phase = .ended after)
    (requests : List Request) :
    streamer.run requests = (requests.map fun request =>
      (request, .error (.operation (.streamExhausted after))), streamer) := by
  induction requests with
  | nil => rfl
  | cons request rest ih =>
    rw [run, serve_of_ended ended]
    dsimp only
    rw [ih, List.map_cons]

end Streamer

theorem Flow.isEnded_eq_false_iff {flow : Flow} : flow.isEnded = false ↔ flow.phase = .live := by
  unfold isEnded
  cases flow.phase <;> simp

/-! ## What requests preserve -/

/-- The stream of `buffer` is at its end if it was `asked` for data and has none left. -/
structure Standing (buffer : SendBuffer) (capacity threshold : UInt32) (asked : Bool)
    (streamer : Streamer) : Prop where
  source : streamer.buffer = buffer
  room : streamer.flow.capacity = capacity
  level : streamer.flow.threshold = min threshold capacity
  phase : streamer.flow.phase =
    if asked && streamer.next.isNone then .ended buffer.lastTick? else .live

section Requests

variable {buffer : SendBuffer} {capacity threshold : UInt32} {asked : Bool} {streamer : Streamer}

theorem start_standing (buffer : SendBuffer) (capacity threshold : UInt32) :
    Standing buffer capacity threshold false (.start buffer (.start capacity threshold)) :=
  ⟨rfl, rfl, rfl, rfl⟩

theorem Standing.note (h : Standing buffer capacity threshold asked streamer) (free : UInt32) :
    Standing buffer capacity threshold asked (streamer.note free) :=
  ⟨h.source, h.room, h.level, h.phase⟩

/-- A live stream that moves on was asked. -/
theorem Standing.moveTo (h : Standing buffer capacity threshold asked streamer)
    (live : streamer.flow.phase = .live) (next : Option Tick) :
    Standing buffer capacity threshold true (streamer.moveTo next) := by
  have flow := streamer.moveTo_flow next
  unfold Flow.finish at flow
  rw [live] at flow
  refine ⟨(streamer.moveTo_buffer next).trans h.source, ?_, ?_, ?_⟩
  · rw [flow, ← h.room]
    split <;> rfl
  · rw [flow, ← h.level]
    split <;> rfl
  · rw [flow, streamer.moveTo_next, Bool.true_and, h.source]
    split
    · rfl
    · exact live

theorem Standing.take (h : Standing buffer capacity threshold asked streamer)
    (live : streamer.flow.phase = .live) (space : Nat) :
    Standing buffer capacity threshold true (streamer.take space).2 := by
  obtain ⟨skipped, rest, -, -, searched⟩ := exists_searched streamer space
  have skips : Standing buffer capacity threshold asked (streamer.skip skipped.length) :=
    ⟨h.source, h.room, h.level, h.phase⟩
  obtain ⟨next, moved⟩ := searched.exists_moveTo
  rw [moved]
  exact skips.moveTo live next

theorem Standing.refill (h : Standing buffer capacity threshold asked streamer)
    (live : streamer.flow.phase = .live) (free : UInt32) :
    Standing buffer capacity threshold (asked || decide (min threshold capacity ≤ free))
      (streamer.refill free).2 := by
  rw [Streamer.refill_of_live live, ← h.level]
  by_cases enough : streamer.flow.threshold ≤ free
  · rw [if_pos enough, decide_eq_true enough, Bool.or_true]
    exact (h.note free).take live _
  · rw [if_neg enough, decide_eq_false enough, Bool.or_false]
    exact h.note free

theorem Standing.serve (h : Standing buffer capacity threshold asked streamer)
    (request : Request) :
    Standing buffer capacity threshold (asked || request.asks (min threshold capacity))
      (streamer.serve request).2 := by
  cases phase : streamer.flow.phase with
  | ended after =>
    rw [Streamer.serve_of_ended phase]
    have was : asked = true := by
      cases asked with
      | true => rfl
      | false => cases phase.symm.trans h.phase
    rw [was, Bool.true_or, ← was]
    exact h
  | live =>
    cases request with
    | initialFill =>
      rw [Streamer.serve_initialFill_of_live phase, Request.asks, Bool.or_true]
      exact h.take phase _
    | refill free => exact h.refill phase free

/-- Induction on the requests. -/
theorem Standing.run (h : Standing buffer capacity threshold asked streamer)
    (requests : List Request) :
    Standing buffer capacity threshold
      (asked || requests.any fun request => request.asks (min threshold capacity))
      (streamer.run requests).2 := by
  induction requests generalizing asked streamer with
  | nil =>
    rw [List.any_nil, Bool.or_false]
    exact h
  | cons request rest ih =>
    rw [List.any_cons, ← Bool.or_assoc]
    exact ih (h.serve request)

theorem Standing.ended_iff (h : Standing buffer capacity threshold asked streamer) :
    streamer.flow.isEnded = true ↔ asked = true ∧ streamer.next = none := by
  unfold Flow.isEnded
  rw [h.phase, ← Option.isNone_iff_eq_none, ← Bool.and_eq_true]
  cases asked && streamer.next.isNone <;> simp

theorem Standing.phase_of_isEnded (h : Standing buffer capacity threshold asked streamer)
    (ended : streamer.flow.isEnded = true) : streamer.flow.phase = .ended buffer.lastTick? := by
  obtain ⟨was, none⟩ := h.ended_iff.1 ended
  rw [h.phase, was, none]
  rfl

/-! ## Reports -/

/-- If all space is free nothing waits: the search sends some of the ticks ahead, or comes to the
end of the stream. -/
theorem take_all_free (full : buffer.NoEmptyTick) (source : streamer.buffer = buffer) :
    let result := streamer.take streamer.flow.capacity.toNat
    result.1 = none ∧ result.2.next = none ∨
      ∃ bytes, result.1 = some bytes ∧ bytes ≠ [] ∧
        result.2.ahead.length < streamer.ahead.length := by
  obtain ⟨skipped, rest, split, -, searched⟩ :=
    exists_searched streamer streamer.flow.capacity.toNat
  dsimp only
  generalize streamer.take streamer.flow.capacity.toNat = result at searched ⊢
  cases searched with
  | ended => exact .inl ⟨rfl, Streamer.moveTo_next ..⟩
  | waits small room => exact absurd small (Nat.not_lt.2 room)
  | @sends taken left chunk more packed =>
    have nonempty : ∀ entry ∈ taken, entry.2 ≠ [] := by
      intro entry member
      have listed : entry ∈ streamer.ahead := by
        rw [split]
        exact List.mem_append_right _ (List.mem_append_left _ member)
      refine full entry ?_
      rw [← source]
      exact streamer.ahead_sublist.subset listed
    refine .inr ⟨chunk.bytes, rfl, ?_, ?_⟩
    · rw [packed.bytes]
      exact SendBuffer.encode_ne_nil nonempty more
    · rw [← List.append_assoc] at split
      have left_ahead : ((streamer.skip skipped.length).moveTo chunk.next).ahead = left :=
        Streamer.ahead_of_split (Streamer.moveTo_buffer ..) split
          ((Streamer.moveTo_next ..).trans packed.next)
      have some := List.length_pos_iff.2 more
      rw [left_ahead, split, List.length_append, List.length_append]
      omega

theorem Standing.refill_all_free (full : buffer.NoEmptyTick)
    (h : Standing buffer capacity threshold asked streamer)
    (live : streamer.flow.phase = .live) {free : UInt32} (all : capacity ≤ free) :
    ∃ chunk later, streamer.refill free = (.ok chunk, later) ∧
      (later.flow.isEnded = true ∨
        (∃ bytes ∈ chunk, bytes ≠ []) ∧ later.ahead.length < streamer.ahead.length) := by
  have most : capacity.toNat ≤ free.toNat := UInt32.le_iff_toNat_le.1 all
  have enough : streamer.flow.threshold ≤ free := by
    rw [h.level, UInt32.le_iff_toNat_le, toNat_min]
    omega
  have space : (min free streamer.flow.capacity).toNat = streamer.flow.capacity.toNat := by
    rw [toNat_min, h.room]
    omega
  have standing := (h.note free).take live streamer.flow.capacity.toNat
  have taken := take_all_free full (h.note free).source
  rw [Streamer.refill_of_live live, if_pos enough, space]
  refine ⟨_, _, rfl, ?_⟩
  rcases taken with ⟨-, none⟩ | ⟨bytes, chunk, more, less⟩
  · exact .inl (standing.ended_iff.2 ⟨rfl, none⟩)
  · exact .inr ⟨⟨bytes, chunk, more⟩, less⟩

/-- Nothing changes after the end. -/
theorem Standing.run_of_isEnded (h : Standing buffer capacity threshold asked streamer)
    (ended : streamer.flow.isEnded = true) (requests : List Request) :
    streamer.run requests = (requests.map fun request =>
      (request, .error (.operation (.streamExhausted buffer.lastTick?))), streamer) :=
  Streamer.run_of_ended (h.phase_of_isEnded ended) requests

/-- Induction on the reports: each leaves fewer ticks ahead, or ends the stream. -/
theorem Standing.run_all_free (full : buffer.NoEmptyTick) (reports : List UInt32)
    (h : Standing buffer capacity threshold asked streamer)
    (enough : streamer.ahead.length < reports.length)
    (all : ∀ free ∈ reports, capacity ≤ free) :
    (streamer.run (reports.map .refill)).2.flow.isEnded = true := by
  induction reports generalizing asked streamer with
  | nil => cases enough
  | cons free rest ih =>
    by_cases ended : streamer.flow.isEnded = true
    · rw [h.run_of_isEnded ended]
      exact ended
    · have live := Flow.isEnded_eq_false_iff.1 (Bool.not_eq_true _ ▸ ended)
      obtain ⟨chunk, later, refilled, moves⟩ :=
        h.refill_all_free full live (all free (List.mem_cons_self ..))
      have standing := h.refill live free
      rw [refilled] at standing
      change ((streamer.refill free).2.run (rest.map .refill)).2.flow.isEnded = true
      rw [refilled]
      rcases moves with ends | ⟨-, less⟩
      · rw [standing.run_of_isEnded ends]
        exact ends
      · rw [List.length_cons] at enough
        have fewer : later.ahead.length < rest.length := by omega
        exact ih standing fewer fun free member => all free (List.mem_cons_of_mem _ member)

/-- A report that is answered by nothing, and does not end the stream. -/
theorem Standing.refill_quiet (h : Standing buffer capacity threshold asked streamer)
    {free : UInt32} {later : Streamer} (quiet : streamer.refill free = (.ok none, later))
    (goesOn : later.flow.isEnded = false) :
    ∃ skipped, streamer.ahead = skipped ++ later.ahead ∧
      (∀ entry ∈ skipped, capacity.toNat < tickSize entry.2.length) ∧
      later = { streamer with
        flow := { streamer.flow with lastFree := min free capacity }
        next := later.next
        dropped := streamer.dropped + skipped.length } := by
  cases phase : streamer.flow.phase with
  | ended after =>
    have refused := Streamer.serve_of_ended phase (.refill free)
    cases quiet.symm.trans refused
  | live =>
    rw [Streamer.refill_of_live phase] at quiet
    rw [← h.room]
    by_cases enough : streamer.flow.threshold ≤ free
    · rw [if_pos enough] at quiet
      obtain ⟨answer, after⟩ := Prod.mk.inj quiet
      have taken : (streamer.note free).take (min free streamer.flow.capacity).toNat =
          (none, later) := Prod.ext (Except.ok.inj answer) after
      have standing := (h.note free).take phase (min free streamer.flow.capacity).toNat
      rw [taken] at standing
      have more : later.next ≠ none := by
        intro none
        cases goesOn.symm.trans (standing.ended_iff.2 ⟨rfl, none⟩)
      exact exists_skipped_of_take taken more
    · rw [if_neg enough] at quiet
      cases quiet
      exact ⟨[], rfl, by simp, rfl⟩

end Requests

/-- **A stream gets to its end and stays there**, whatever it is asked for and in whatever order. -/
theorem run_progress {buffer : SendBuffer} (reachable : buffer.Reachable)
    (capacity threshold : UInt32) (requests : List Request) :
    Progress buffer capacity threshold requests
      ((Streamer.start buffer (.start capacity threshold)).run requests).2 := by
  have full := reachable.noEmptyTick
  obtain ⟨placed, -⟩ := run_placed full requests (start_placed buffer capacity threshold)
  have standing := (start_standing buffer capacity threshold).run requests
  generalize ((Streamer.start buffer (.start capacity threshold)).run requests).2 = streamer
    at placed standing ⊢
  have ahead := streamer.ahead_sublist.length_le
  rw [standing.source] at ahead
  refine ⟨search_eq_take placed, ?_, ?_, ?_, ?_, ?_⟩
  · intro live free all
    obtain ⟨chunk, later, refilled, moves⟩ :=
      standing.refill_all_free full (Flow.isEnded_eq_false_iff.1 live) all
    exact ⟨chunk, later, refilled, moves.symm.imp_left And.left⟩
  · intro reports enough all
    exact standing.run_all_free full reports (Nat.lt_of_le_of_lt ahead enough) all
  · intro free later quiet goesOn
    exact standing.refill_quiet quiet goesOn
  · rw [standing.ended_iff, Bool.false_or, List.any_eq_true]
  · intro ended
    refine ⟨?_, standing.run_of_isEnded ended⟩
    unfold Flow.endedAfter
    rw [standing.phase_of_isEnded ended]

/-- One tick is dropped and the next waits for space, then that one is sent and then the last, which
is the greatest there is, is dropped. -/
theorem run_progress_uneven :
    unevenBuffer.Reachable ∧
      let streamer := ((Streamer.start unevenBuffer (.start 32 12)).run [.refill 12]).2
      Progress unevenBuffer 32 12 [.refill 12] streamer ∧
        streamer.next = some 2 ∧ streamer.dropped = 1 ∧ streamer.flow.isEnded = false ∧
        (streamer.run [.refill 32, .refill 32]).2.flow.endedAfter = some 4294967295 := by
  have reachable : unevenBuffer.Reachable :=
    (((SendBuffer.Reachable.empty 32).addKeys _ _).addKeys _ _).addKeys _ _
  exact ⟨reachable, run_progress reachable 32 12 _, by decide, by decide, by decide, by decide⟩

end MeshControl.Stream
