import MeshControl.Batch.Pool
import MeshControl.Proofs.Bytes
import MeshControl.Proofs.Outcome
import MeshControl.Proofs.Watching

/-!
# Workers on a batch

What a pool of workers makes of a batch, whichever of them steps when. No step loses a request
or a failure (`Pool.Accounts.step`), and every step of a worker that is not done brings the end
nearer, so the pool comes to an end with every request exchanged once (`Pool.finish_accounts`).
-/

namespace MeshControl.Batch

/-! ## One request -/

namespace Queued

/-- What is sent for a request. -/
def call (queued : Queued) : ExchangeCall :=
  ⟨queued.request.destination, queued.request.encode queued.sequence⟩

/-- A reply of success: a packet header, the code of success, the number of the request, and any
payload. -/
def Succeeds (queued : Queued) (answer : Except Fault (Option Bytes)) : Prop :=
  ∃ header payload : Bytes, header.length = 8 ∧
    answer = .ok (some (header ++ Bytes.ofHalf 0x80 ++ Bytes.ofHalf queued.sequence ++ payload))

/-- What the host makes of the answer to a request. -/
def judge (queued : Queued) (answer : Except Fault (Option Bytes)) : Except Fault Unit := do
  match ← answer with
  | none => throw (.operation (.timeout queued.request.opcode queued.request.destination))
  | some datagram =>
    (← Scp.Reply.decode queued.request queued.sequence datagram).check queued.request

/-- The failure of a request, under its own core and command, if there is one. -/
def failureOf (queued : Queued) : Except Fault Unit → Option FailedRequest
  | .ok () => none
  | .error fault => some ⟨queued.request.destination, queued.request.opcode, fault⟩

/-- The failure of a request that gets some answer. -/
def failure? (queued : Queued) (answer : Except Fault (Option Bytes)) : Option FailedRequest :=
  queued.failureOf (queued.judge answer)

theorem judge_eq_ok_iff {queued : Queued} {answer : Except Fault (Option Bytes)} :
    queued.judge answer = .ok () ↔ queued.Succeeds answer := by
  constructor
  · intro ok
    obtain ⟨datagram?, rfl, judged⟩ := exists_of_bind_eq_ok ok
    cases datagram? with
    | none => cases judged
    | some datagram =>
      obtain ⟨reply, decoded, checked⟩ := exists_of_bind_eq_ok judged
      unfold Scp.Reply.decode at decoded
      split at decoded
      · rename_i b₀ b₁ b₂ b₃ b₄ b₅ b₆ b₇ c₀ c₁ s₀ s₁ payload
        dsimp only at decoded
        split at decoded
        · rename_i matching
          cases decoded
          unfold Scp.Reply.check at checked
          split at checked
          · rename_i success
            refine ⟨[b₀, b₁, b₂, b₃, b₄, b₅, b₆, b₇], payload, rfl, ?_⟩
            have code : Bytes.ofHalf 0x80 = [c₀, c₁] := by
              rw [← Bytes.ofHalf_half]
              exact congrArg Bytes.ofHalf (Eq.symm success)
            rw [code, ← matching, Bytes.ofHalf_half]
            rfl
          · cases checked
        · cases decoded
      · cases decoded
  · rintro ⟨header, payload, length, rfl⟩
    obtain ⟨b₀, b₁, b₂, b₃, b₄, b₅, b₆, b₇, rfl⟩ : ∃ b₀ b₁ b₂ b₃ b₄ b₅ b₆ b₇ : UInt8,
        header = [b₀, b₁, b₂, b₃, b₄, b₅, b₆, b₇] := by
      match header, length with
      | [b₀, b₁, b₂, b₃, b₄, b₅, b₆, b₇], _ => exact ⟨b₀, b₁, b₂, b₃, b₄, b₅, b₆, b₇, rfl⟩
    show (Scp.Reply.decode queued.request queued.sequence
      (_ :: _ :: _ :: _ :: _ :: _ :: _ :: _ :: _ :: _ :: _ :: _ :: payload) >>= _) = _
    rw [Scp.Reply.decode, Bytes.half_ofHalf, if_pos rfl]
    rfl

theorem failure?_eq_none_iff {queued : Queued} {answer : Except Fault (Option Bytes)} :
    queued.failure? answer = none ↔ queued.Succeeds answer := by
  rw [← judge_eq_ok_iff, failure?]
  rcases queued.judge answer with fault | ⟨⟩
  · exact ⟨nofun, nofun⟩
  · exact ⟨fun _ => rfl, fun _ => rfl⟩

/-- A failure names the request that failed. -/
theorem names_of_failure?_eq_some {queued : Queued} {answer : Except Fault (Option Bytes)}
    {failure : FailedRequest} (failed : queued.failure? answer = some failure) :
    failure.core = queued.request.destination ∧ failure.opcode = queued.request.opcode := by
  unfold failure? failureOf at failed
  split at failed
  · cases failed
  · cases failed
    exact ⟨rfl, rfl⟩

end Queued

section Exchange

variable {σ : Type} [Transport σ]

/-- What a transport answers to a request depends on the request and its number alone, in every
state that is `valid`, and an exchange leaves such a state. -/
structure Answers (valid : σ → Prop) (outcome : Queued → Except Fault (Option Bytes)) : Prop where
  answer : ∀ queued state, valid state →
    ((Transport.exchange queued.call.core queued.call.datagram).runOn state).1 = outcome queued
  keep : ∀ queued state, valid state →
    valid ((Transport.exchange (Queued.call queued).core queued.call.datagram).runOn state).2

/-- An exchange sends the request once, and judges the answer. -/
theorem runOn_exchange (queued : Queued) (state : Watched σ) :
    let ran := (Transport.exchange queued.call.core queued.call.datagram).runOn state.inner
    (exchange queued).runOn state =
      (queued.judge ran.1, ⟨ran.2, state.writes, state.exchanges ++ [queued.call]⟩) := by
  intro ran
  have sent : (Transport.exchange queued.request.destination
      (queued.request.encode queued.sequence)).runOn state =
        (ran.1, ⟨ran.2, state.writes, state.exchanges ++ [queued.call]⟩) :=
    Watched.runOn_exchange queued.request.destination (queued.request.encode queued.sequence) state
  rw [exchange, Action.runOn_bind, sent]
  clear_value ran
  rcases ran with ⟨fault | _ | datagram, inner⟩
  · rfl
  · rfl
  · dsimp only
    rw [Action.runOn_bind, Action.runOn_ofExcept, Queued.judge]
    show _ = ((Scp.Reply.decode _ _ _ >>= _), _)
    cases Scp.Reply.decode queued.request queued.sequence datagram with
    | error fault => rfl
    | ok reply => rfl

theorem exchange_mirrors (queued : Queued) :
    Action.Mirrors (@Watched.inner σ) (exchange queued) (exchange queued) := by
  unfold exchange
  refine (Action.Mirrors.exchange _ _).bind fun reply => ?_
  cases reply with
  | none => exact .throw _
  | some datagram => exact (Action.Mirrors.ofExcept _).bind fun _ => .ofExcept _

end Exchange

/-! ## One step -/

namespace Worker

/-- The request that a worker has in flight. -/
def held? : Worker → Option Queued
  | .sending queued => some queued
  | .idle | .failing _ | .done => none

/-- The failure that a worker has yet to record. -/
def found? : Worker → Option FailedRequest
  | .failing failure => some failure
  | .idle | .sending _ | .done => none

theorem none_of_isDone {worker : Worker} (done : worker.isDone = true) :
    worker.held? = none ∧ worker.found? = none := by
  cases worker with
  | done => exact ⟨rfl, rfl⟩
  | idle | sending | failing => cases done

end Worker

namespace Pool

section Moves

variable {σ : Type} (waiting : List Queued) (left right : List Worker) (worker : Worker)
  (failed : List FailedRequest) (machine : σ)

/-- Requests that were not exchanged yet. -/
def unsent (pool : Pool σ) : List Queued := pool.workers.filterMap Worker.held? ++ pool.waiting

/-- Failures that are recorded or about to be. -/
def met (pool : Pool σ) : List FailedRequest := pool.workers.filterMap Worker.found? ++ pool.failed

theorem perm_pull {α β : Type} (pick : α → Option β) (left right : List α) (element : α)
    (behind : List β) : ((left ++ element :: right).filterMap pick ++ behind).Perm
      ((pick element).toList ++ ((left ++ right).filterMap pick ++ behind)) := by
  simp only [List.filterMap_append, List.filterMap_cons]
  cases pick element with
  | none => exact .refl _
  | some picked =>
    simp only [List.append_assoc, List.cons_append]
    exact List.perm_middle

theorem unsent_split : (Pool.mk waiting (left ++ worker :: right) failed machine).unsent.Perm
    (worker.held?.toList ++ (Pool.mk waiting (left ++ right) failed machine).unsent) :=
  perm_pull ..

theorem met_split : (Pool.mk waiting (left ++ worker :: right) failed machine).met.Perm
    (worker.found?.toList ++ (Pool.mk waiting (left ++ right) failed machine).met) :=
  perm_pull ..

theorem stepsLeft_split : (Pool.mk waiting (left ++ worker :: right) failed machine).stepsLeft =
    worker.stepsLeft + (Pool.mk waiting (left ++ right) failed machine).stepsLeft := by
  simp only [stepsLeft]
  induction left with
  | nil =>
    simp only [List.nil_append, List.foldr_cons]
    omega
  | cons first left ih =>
    simp only [List.cons_append, List.foldr_cons]
    omega

end Moves

section Moves

variable {σ : Type} [Transport σ]

/-- What one step of a worker does, with the workers before and behind it. -/
inductive Moves : Pool σ → Pool σ → Prop where
  | claim {queued : Queued} {rest : List Queued} {left right : List Worker}
    {failed : List FailedRequest} {machine : σ} :
    Moves ⟨queued :: rest, left ++ .idle :: right, failed, machine⟩
      ⟨rest, left ++ .sending queued :: right, failed, machine⟩
  /-- Nothing is left to claim. -/
  | stop {left right : List Worker} {failed : List FailedRequest} {machine : σ} :
    Moves ⟨[], left ++ .idle :: right, failed, machine⟩
      ⟨[], left ++ .done :: right, failed, machine⟩
  | succeed {queued : Queued} {waiting : List Queued} {left right : List Worker}
    {failed : List FailedRequest} {machine reached : σ}
    (ran : (exchange queued).runOn machine = (.ok (), reached)) :
    Moves ⟨waiting, left ++ .sending queued :: right, failed, machine⟩
      ⟨waiting, left ++ .idle :: right, failed, reached⟩
  | fail {queued : Queued} {fault : Fault} {waiting : List Queued} {left right : List Worker}
    {failed : List FailedRequest} {machine reached : σ}
    (ran : (exchange queued).runOn machine = (.error fault, reached)) :
    Moves ⟨waiting, left ++ .sending queued :: right, failed, machine⟩
      ⟨waiting,
        left ++ .failing ⟨queued.request.destination, queued.request.opcode, fault⟩ :: right,
        failed, reached⟩
  | record {failure : FailedRequest} {waiting : List Queued} {left right : List Worker}
    {failed : List FailedRequest} {machine : σ} :
    Moves ⟨waiting, left ++ .failing failure :: right, failed, machine⟩
      ⟨waiting, left ++ .idle :: right, failure :: failed, machine⟩

/-- Only a worker that is done, or none at all, does nothing. -/
theorem step_cases (pool : Pool σ) (index : Nat) :
    Moves pool (pool.step index) ∨
      pool.step index = pool ∧ ∀ worker, pool.workers[index]? = some worker → worker.isDone = true := by
  cases found : pool.workers[index]? with
  | none =>
    refine .inr ⟨?_, nofun⟩
    rw [step, found]
  | some worker =>
    obtain ⟨bound, at_index⟩ := List.getElem?_eq_some_iff.1 found
    have split : pool.workers =
        pool.workers.take index ++ worker :: pool.workers.drop (index + 1) := by
      rw [← at_index, List.getElem_cons_drop, List.take_append_drop]
    have setTo (next : Worker) : pool.workers.set index next =
        pool.workers.take index ++ next :: pool.workers.drop (index + 1) := by
      rw [List.set_eq_take_append_cons_drop, if_pos bound]
    generalize pool.workers.take index = left at split setTo
    generalize pool.workers.drop (index + 1) = right at split setTo
    obtain ⟨waiting, workers, failed, machine⟩ := pool
    dsimp only at found split setTo
    cases worker with
    | done =>
      refine .inr ⟨?_, ?_⟩
      · rw [step, found]
      · rintro _ ⟨⟩
        rfl
    | idle =>
      left
      rw [step, found]
      dsimp only
      cases waiting with
      | nil =>
        rw [setWorker, setTo, split]
        exact .stop
      | cons queued rest =>
        dsimp only
        rw [setWorker, setTo, split]
        exact .claim
    | sending queued =>
      left
      rw [step, found]
      dsimp only
      rcases ran : (exchange queued : Action σ Unit).runOn machine with ⟨fault | ⟨⟩, reached⟩
      · dsimp only
        rw [setWorker, setTo, split]
        exact .fail ran
      · dsimp only
        rw [setWorker, setTo, split]
        exact .succeed ran
    | failing failure =>
      left
      rw [step, found]
      dsimp only
      rw [setWorker, setTo, split]
      exact .record

/-- Every step brings the end nearer. -/
theorem Moves.stepsLeft_lt {pool next : Pool σ} (moves : Moves pool next) :
    next.stepsLeft < pool.stepsLeft := by
  cases moves <;> rw [stepsLeft_split, stepsLeft_split] <;>
    simp only [stepsLeft, Worker.stepsLeft, List.length_cons] <;> omega

theorem Moves.length_workers {pool next : Pool σ} (moves : Moves pool next) :
    next.workers.length = pool.workers.length := by
  cases moves <;> simp only [List.length_append, List.length_cons]

/-- A step exchanges a request, and records what comes of it, or it exchanges none. -/
theorem Moves.balance {pool next : Pool σ} (moves : Moves pool next) :
    (next.machine = pool.machine ∧ next.unsent.Perm pool.unsent ∧ next.met.Perm pool.met) ∨
      ∃ queued result, (exchange queued).runOn pool.machine = (result, next.machine) ∧
        pool.unsent.Perm (queued :: next.unsent) ∧
        next.met.Perm ((queued.failureOf result).toList ++ pool.met) := by
  cases moves with
  | @claim queued rest left right failed machine =>
    have held := unsent_split rest left right (.sending queued) failed machine
    have free := unsent_split (queued :: rest) left right .idle failed machine
    have found := met_split rest left right (.sending queued) failed machine
    have known := met_split rest left right .idle failed machine
    have shift : (queued :: (Pool.mk rest (left ++ right) failed machine).unsent).Perm
        (Pool.mk (queued :: rest) (left ++ right) failed machine).unsent :=
      List.perm_middle.symm
    exact .inl ⟨rfl, held.trans (shift.trans free.symm), found.trans known.symm⟩
  | @stop left right failed machine =>
    have held := unsent_split [] left right .done failed machine
    have free := unsent_split [] left right .idle failed machine
    have found := met_split [] left right .done failed machine
    have known := met_split [] left right .idle failed machine
    exact .inl ⟨rfl, held.trans free.symm, found.trans known.symm⟩
  | @succeed queued waiting left right failed machine reached ran =>
    have held := unsent_split waiting left right (.sending queued) failed machine
    have free := unsent_split waiting left right .idle failed machine
    have found := met_split waiting left right .idle failed machine
    have known := met_split waiting left right (.sending queued) failed machine
    exact .inr ⟨queued, .ok (), ran, held.trans (free.symm.cons queued), found.trans known.symm⟩
  | @fail queued fault waiting left right failed machine reached ran =>
    let failure : FailedRequest := ⟨queued.request.destination, queued.request.opcode, fault⟩
    have held := unsent_split waiting left right (.sending queued) failed machine
    have free := unsent_split waiting left right (.failing failure) failed machine
    have found := met_split waiting left right (.failing failure) failed machine
    have known := met_split waiting left right (.sending queued) failed machine
    exact .inr ⟨queued, .error fault, ran, held.trans (free.symm.cons queued),
      found.trans (known.symm.cons failure)⟩
  | @record failure waiting left right failed machine =>
    have held := unsent_split waiting left right .idle failed machine
    have free := unsent_split waiting left right (.failing failure) failed machine
    have found := met_split waiting left right .idle (failure :: failed) machine
    have known := met_split waiting left right (.failing failure) failed machine
    have shift : (Pool.mk waiting (left ++ right) (failure :: failed) machine).met.Perm
        (failure :: (Pool.mk waiting (left ++ right) failed machine).met) :=
      List.perm_middle
    exact .inl ⟨rfl, held.trans free.symm, found.trans (shift.trans known.symm)⟩

/-- Unless a worker stops, whoever is done was done before. -/
theorem Moves.exhausted {pool next : Pool σ} (moves : Moves pool next)
    (before : (∃ worker ∈ pool.workers, worker.isDone = true) → pool.waiting = []) :
    (∃ worker ∈ next.workers, worker.isDone = true) → next.waiting = [] := by
  have done {old new : Worker} {left right : List Worker} (busy : new.isDone = false) :
      (∃ worker ∈ left ++ new :: right, worker.isDone = true) →
        ∃ worker ∈ left ++ old :: right, worker.isDone = true := by
    rintro ⟨worker, member, finished⟩
    refine ⟨worker, ?_, finished⟩
    rw [List.mem_append, List.mem_cons] at member ⊢
    rcases member with early | rfl | late
    · exact .inl early
    · exact absurd (finished.symm.trans busy) nofun
    · exact .inr (.inr late)
  cases moves with
  | claim => exact fun finished => absurd (before (done rfl finished)) nofun
  | stop => exact fun _ => rfl
  | succeed | fail | record => exact fun finished => before (done rfl finished)

end Moves

section Accounts

variable {σ : Type} [Transport σ] {valid : σ → Prop}
  {outcome : Queued → Except Fault (Option Bytes)} {begun pool next : Pool (Watched σ)}
  {exchanged : List Queued}

/-- What a pool has done since it has begun, when some requests were `exchanged`. -/
structure Accounts (valid : σ → Prop) (outcome : Queued → Except Fault (Option Bytes))
    (begun : Pool (Watched σ)) (exchanged : List Queued) (pool : Pool (Watched σ)) : Prop where
  valid : valid pool.machine.inner
  requests : begun.waiting.Perm (exchanged ++ pool.unsent)
  exchanges : pool.machine.exchanges = begun.machine.exchanges ++ exchanged.map Queued.call
  failures : pool.met.Perm
    (exchanged.filterMap (fun queued => queued.failure? (outcome queued)) ++ begun.failed)
  /-- A worker gives up when nothing is left to claim. -/
  exhausted : (∃ worker ∈ pool.workers, worker.isDone = true) → pool.waiting = []
  size : pool.workers.length = begun.workers.length

theorem filterMap_singleton {α β : Type} (pick : α → Option β) (element : α) :
    [element].filterMap pick = (pick element).toList := by
  rw [List.filterMap_cons]
  cases pick element <;> rfl

/-- **One step** loses neither a request nor a failure. -/
theorem Accounts.moves (answers : Answers valid outcome)
    (accounts : Accounts valid outcome begun exchanged pool) (moves : Moves pool next) :
    ∃ exchanged, Accounts valid outcome begun exchanged next := by
  have exhausted := moves.exhausted accounts.exhausted
  have size := moves.length_workers.trans accounts.size
  obtain ⟨same, unsent, met⟩ | ⟨queued, result, ran, unsent, met⟩ := moves.balance
  · refine ⟨exchanged, ?_, ?_, ?_, met.trans accounts.failures, exhausted, size⟩
    · rw [same]
      exact accounts.valid
    · exact accounts.requests.trans (unsent.symm.append_left exchanged)
    · rw [same]
      exact accounts.exchanges
  · rw [runOn_exchange] at ran
    obtain ⟨judged, reached⟩ := Prod.mk.inj ran
    rw [answers.answer queued _ accounts.valid] at judged
    refine ⟨exchanged ++ [queued], ?_, ?_, ?_, ?_, exhausted, size⟩
    · rw [← reached]
      exact answers.keep queued _ accounts.valid
    · rw [List.append_assoc]
      exact accounts.requests.trans (unsent.append_left exchanged)
    · rw [← reached, List.map_append, ← List.append_assoc, ← accounts.exchanges]
      rfl
    · have failure : queued.failureOf result = queued.failure? (outcome queued) := by
        rw [Queued.failure?, judged]
      rw [failure] at met
      rw [List.filterMap_append, filterMap_singleton, List.append_assoc]
      exact met.trans ((accounts.failures.append_left _).trans (List.perm_append_comm_assoc ..))

theorem Accounts.step (answers : Answers valid outcome)
    (accounts : Accounts valid outcome begun exchanged pool) (index : Nat) :
    ∃ exchanged, Accounts valid outcome begun exchanged (pool.step index) := by
  obtain moves | ⟨same, -⟩ := step_cases pool index
  · exact accounts.moves answers moves
  · rw [same]
    exact ⟨exchanged, accounts⟩

theorem Accounts.run (answers : Answers valid outcome)
    (accounts : Accounts valid outcome begun exchanged pool) (schedule : List Nat) :
    ∃ exchanged, Accounts valid outcome begun exchanged (pool.run schedule) := by
  induction schedule generalizing pool exchanged with
  | nil => exact ⟨exchanged, accounts⟩
  | cons index rest ih =>
    obtain ⟨later, accounts⟩ := accounts.step answers index
    exact ih accounts

end Accounts

/-! ## To the end -/

section Finish

variable {σ : Type} [Transport σ]

theorem moves_of_findIdx? {pool : Pool σ} {index : Nat}
    (found : pool.workers.findIdx? (fun worker => !worker.isDone) = some index) :
    Moves pool (pool.step index) := by
  obtain moves | ⟨-, done⟩ := step_cases pool index
  · exact moves
  · obtain ⟨bound, busy, -⟩ := List.findIdx?_eq_some_iff_getElem.1 found
    rw [done _ (List.getElem?_eq_getElem bound)] at busy
    cases busy

omit [Transport σ] in
theorem isDone_of_findIdx? {pool : Pool σ}
    (found : pool.workers.findIdx? (fun worker => !worker.isDone) = none) :
    pool.isDone = true := by
  rw [isDone, List.all_eq_true]
  intro worker member
  have busy := List.findIdx?_eq_none_iff.1 found worker member
  rwa [Bool.not_eq_false'] at busy

/-- Enough steps bring a pool to its end. -/
theorem isDone_complete {pool : Pool σ} {limit : Nat} (enough : pool.stepsLeft ≤ limit) :
    (pool.complete limit).isDone = true := by
  induction limit generalizing pool with
  | zero =>
    cases found : pool.workers.findIdx? fun worker => !worker.isDone with
    | none => exact isDone_of_findIdx? found
    | some index =>
      have fewer := (moves_of_findIdx? found).stepsLeft_lt
      omega
  | succ limit ih =>
    rw [complete]
    cases found : pool.workers.findIdx? fun worker => !worker.isDone with
    | none => exact isDone_of_findIdx? found
    | some index =>
      have fewer := (moves_of_findIdx? found).stepsLeft_lt
      exact ih (by omega)

theorem complete_eq_run (pool : Pool σ) (limit : Nat) :
    ∃ steps, pool.complete limit = pool.run steps := by
  induction limit generalizing pool with
  | zero => exact ⟨[], rfl⟩
  | succ limit ih =>
    rw [complete]
    cases pool.workers.findIdx? fun worker => !worker.isDone with
    | none => exact ⟨[], rfl⟩
    | some index =>
      obtain ⟨steps, same⟩ := ih (pool.step index)
      exact ⟨index :: steps, same⟩

/-- A pool that is finished has gone on with its schedule until every worker is done. -/
theorem finish_eq_run (pool : Pool σ) (schedule : List Nat) :
    (pool.finish schedule).isDone = true ∧
      ∃ steps, pool.finish schedule = pool.run (schedule ++ steps) := by
  refine ⟨isDone_complete (Nat.le_refl _), ?_⟩
  obtain ⟨steps, same⟩ := complete_eq_run (pool.run schedule) (pool.run schedule).stepsLeft
  refine ⟨steps, ?_⟩
  rw [finish, same, run, run, run, List.foldl_append]

variable {valid : σ → Prop} {outcome : Queued → Except Fault (Option Bytes)}

omit [Transport σ] in
theorem accounts_start {machine : Watched σ} (sound : valid machine.inner) (window : Nat)
    (requests : List Queued) (failed : List FailedRequest) :
    Accounts valid outcome (start window requests failed machine) []
      (start window requests failed machine) := by
  have idle : ∀ {α : Type} (pick : Worker → Option α), pick .idle = none →
      (start window requests failed machine).workers.filterMap pick = [] := by
    intro α pick none
    rw [start, List.filterMap_replicate_of_none none]
  refine ⟨sound, ?_, (List.append_nil _).symm, ?_, ?_, rfl⟩
  · rw [unsent, idle Worker.held? rfl]
    exact .refl _
  · rw [met, idle Worker.found? rfl]
    exact .refl _
  · rintro ⟨worker, member, done⟩
    rw [List.eq_of_mem_replicate member] at done
    cases done

/-- **The end of a batch**: every request was exchanged once, and every failure is recorded. -/
theorem finish_accounts (answers : Answers valid outcome) {machine : Watched σ}
    (sound : valid machine.inner) {window : Nat} (positive : 0 < window) (requests : List Queued)
    (failed : List FailedRequest) (schedule : List Nat) :
    let ended := (start window requests failed machine).finish schedule
    valid ended.machine.inner ∧
      (∃ exchanged, requests.Perm exchanged ∧
        ended.machine.exchanges = machine.exchanges ++ exchanged.map Queued.call) ∧
      ended.failed.Perm
        (requests.filterMap (fun queued => queued.failure? (outcome queued)) ++ failed) := by
  intro ended
  obtain ⟨done, steps, same⟩ := finish_eq_run (start window requests failed machine) schedule
  have begun : Accounts valid outcome (start window requests failed machine) []
      (start window requests failed machine) :=
    accounts_start sound window requests failed
  obtain ⟨exchanged, accounts⟩ := begun.run answers (schedule ++ steps)
  rw [← same] at accounts
  have finished := List.all_eq_true.1 done
  have held : ended.workers.filterMap Worker.held? = [] :=
    List.filterMap_eq_nil_iff.2 fun worker member =>
      (Worker.none_of_isDone (finished worker member)).1
  have found : ended.workers.filterMap Worker.found? = [] :=
    List.filterMap_eq_nil_iff.2 fun worker member =>
      (Worker.none_of_isDone (finished worker member)).2
  have whole := accounts.requests
  rw [unsent, held, List.nil_append] at whole
  -- Without workers there was no request; with one, it has given up.
  have none : ended.waiting = [] := by
    cases workers : ended.workers with
    | nil =>
      have size := accounts.size
      rw [workers, start, List.length_replicate, List.length_nil] at size
      have no : requests = [] := List.eq_nil_of_length_eq_zero (by omega)
      subst no
      exact (List.append_eq_nil_iff.1 (List.nil_perm.1 whole)).2
    | cons worker rest =>
      have member : worker ∈ ended.workers := by
        rw [workers]
        exact List.mem_cons_self ..
      exact accounts.exhausted ⟨worker, member, finished worker member⟩
  rw [none, List.append_nil] at whole
  refine ⟨accounts.valid, ⟨exchanged, whole, accounts.exchanges⟩, ?_⟩
  have failures := accounts.failures
  rw [met, found, List.nil_append] at failures
  exact failures.trans ((whole.filterMap _).symm.append_right failed)

/-- No schedule has more requests in flight than are allowed. -/
theorem inFlight_run_le (window : Nat) (requests : List Queued) (failed : List FailedRequest)
    (machine : σ) (schedule : List Nat) :
    ((start window requests failed machine).run schedule).inFlight ≤ window := by
  have size : ∀ pool : Pool σ, (pool.run schedule).workers.length = pool.workers.length := by
    induction schedule with
    | nil => exact fun _ => rfl
    | cons index rest ih =>
      intro pool
      refine (ih (pool.step index)).trans ?_
      obtain moves | ⟨same, -⟩ := step_cases pool index
      · exact moves.length_workers
      · rw [same]
  calc ((start window requests failed machine).run schedule).inFlight
      ≤ ((start window requests failed machine).run schedule).workers.length := List.countP_le_length
    _ = min window requests.length := by rw [size, start, List.length_replicate]
    _ ≤ window := Nat.min_le_left ..

end Finish

/-! ## Watching a pool -/

section Watch

variable {σ : Type} [Transport σ]

/-- The same workers on the transport that is watched. -/
def unwatched (pool : Pool (Watched σ)) : Pool σ :=
  ⟨pool.waiting, pool.workers, pool.failed, pool.machine.inner⟩

theorem unwatched_step (pool : Pool (Watched σ)) (index : Nat) :
    (pool.step index).unwatched = pool.unwatched.step index := by
  have workers : pool.unwatched.workers = pool.workers := rfl
  rw [step, step, workers]
  cases pool.workers[index]? with
  | none => rfl
  | some worker =>
    cases worker with
    | done | failing => rfl
    | idle =>
      obtain ⟨waiting, _, _, _⟩ := pool
      cases waiting <;> rfl
    | sending queued =>
      have same : (exchange queued).runOn pool.unwatched.machine = _ :=
        exchange_mirrors queued pool.machine
      dsimp only
      rw [same]
      rcases (exchange queued : Action (Watched σ) Unit).runOn pool.machine with ⟨fault | ⟨⟩, _⟩
      · rfl
      · rfl

theorem unwatched_complete (pool : Pool (Watched σ)) (limit : Nat) :
    (pool.complete limit).unwatched = pool.unwatched.complete limit := by
  induction limit generalizing pool with
  | zero => rfl
  | succ limit ih =>
    have workers : pool.unwatched.workers = pool.workers := rfl
    rw [complete, complete, workers]
    cases pool.workers.findIdx? fun worker => !worker.isDone with
    | none => rfl
    | some index =>
      dsimp only
      rw [ih, unwatched_step]

/-- Watching a pool changes nothing. -/
theorem unwatched_finish (pool : Pool (Watched σ)) (schedule : List Nat) :
    (pool.finish schedule).unwatched = pool.unwatched.finish schedule := by
  have ran : (pool.run schedule).unwatched = pool.unwatched.run schedule := by
    induction schedule generalizing pool with
    | nil => rfl
    | cons index rest ih =>
      rw [run, List.foldl_cons, ← run, ih, unwatched_step]
      rfl
  rw [finish, finish, unwatched_complete, ran]
  rw [← ran]
  rfl

end Watch

end Pool

end MeshControl.Batch
