import Mathlib.Data.List.Induction
import MeshControl.Batch.Dispatch
import MeshControl.Machine.Basic
import MeshControl.Proofs.Batch.Working

/-!
# What a dispatch reports

A dispatch takes calls in any order. A ledger beside it holds the requests alone, each under its
place among all of them: those of which the batch is finished, those that are pending, and those
of which no check has reported yet. The dispatch agrees with the ledger after every call, so what
it exchanges next and what it reports next are what the ledger says (`Dispatch.after_reports`).
-/

namespace MeshControl.Batch

/-- What a dispatch can be asked for. -/
inductive Call where
  | send (request : Scp.Request)
  /-- Finish the batch; the workers step by the schedule. -/
  | finish (schedule : List Nat)
  | check

/-- The request that a call queues. -/
def Call.request? : Call → Option Scp.Request
  | .send request => some request
  | .finish _ | .check => none

section Calls

variable {σ : Type} [Transport σ]

/-- A dispatch and its transport after a call. -/
def Call.apply (call : Call) (reached : Dispatch × σ) : Dispatch × σ :=
  match call with
  | .send request => (reached.1.send request, reached.2)
  | .finish schedule => reached.1.finish schedule reached.2
  | .check => (reached.1.check.2, reached.2)

/-- A dispatch and its transport after some calls. -/
def Dispatch.after (window : Nat) (machine : σ) (calls : List Call) : Dispatch × σ :=
  calls.foldl (fun reached call => call.apply reached) (.start window, machine)

end Calls

/-- The requests that a dispatch was given. -/
structure Ledger where
  /-- Their batch is finished. -/
  finished : List Queued
  /-- They wait for the next finish. -/
  pending : List Queued
  /-- Their batch was finished since the last check. -/
  unreported : List Queued

namespace Ledger

/-- The ledger after one more call. A request is numbered by those before it. -/
def enter (ledger : Ledger) : Call → Ledger
  | .send request =>
    { ledger with pending := ledger.pending ++
        [⟨request, UInt16.ofNat (ledger.finished ++ ledger.pending).length⟩] }
  | .finish _ =>
    ⟨ledger.finished ++ ledger.pending, [], ledger.unreported ++ ledger.pending⟩
  | .check => { ledger with unreported := [] }

/-- The ledger of some calls. -/
def after (calls : List Call) : Ledger := calls.foldl enter ⟨[], [], []⟩

theorem after_concat (calls : List Call) (call : Call) :
    after (calls ++ [call]) = (after calls).enter call := by
  rw [after, List.foldl_append]
  rfl

/-- Requests carry their places as numbers, as far as numbers go. -/
theorem after_numbers (calls : List Call) :
    (after calls).finished ++ (after calls).pending =
      (calls.filterMap Call.request?).mapIdx fun place request => ⟨request, UInt16.ofNat place⟩ := by
  induction calls using List.reverseRecOn with
  | nil => rfl
  | append_singleton calls call ih =>
    rw [after_concat, List.filterMap_append]
    cases call with
    | send request =>
      have length := congrArg List.length ih
      rw [List.length_mapIdx] at length
      show (after calls).finished ++ ((after calls).pending ++ [_]) = _
      rw [← List.append_assoc, length, ih]
      exact List.mapIdx_concat.symm
    | finish schedule =>
      show (after calls).finished ++ (after calls).pending ++ [] = _
      rw [List.append_nil, ih]
      exact congrArg _ (List.append_nil _).symm
    | check =>
      refine ih.trans ?_
      exact congrArg _ (List.append_nil _).symm

end Ledger

instance (queued : Queued) (answer : Except Fault (Option Bytes)) :
    Decidable (queued.Succeeds answer) :=
  decidable_of_iff _ Queued.judge_eq_ok_iff

/-- The failures of some requests. -/
def failures (outcome : Queued → Except Fault (Option Bytes)) (requests : List Queued) :
    List FailedRequest :=
  requests.filterMap fun queued => queued.failure? (outcome queued)

/-- There is one failure for each request that does not succeed, under its core and command. -/
theorem forall₂_failures (outcome : Queued → Except Fault (Option Bytes))
    (requests : List Queued) :
    List.Forall₂ (fun queued failure =>
        failure.core = queued.request.destination ∧ failure.opcode = queued.request.opcode)
      (requests.filter fun queued => ¬ queued.Succeeds (outcome queued))
      (failures outcome requests) := by
  induction requests with
  | nil => exact .nil
  | cons queued rest ih =>
    rw [failures, List.filterMap_cons, List.filter_cons]
    cases failed : queued.failure? (outcome queued) with
    | none =>
      have succeeds := Queued.failure?_eq_none_iff.1 failed
      rw [if_neg (by simpa using succeeds)]
      exact ih
    | some failure =>
      have fails : ¬ queued.Succeeds (outcome queued) := by
        rw [← Queued.failure?_eq_none_iff, failed]
        nofun
      rw [if_pos (by simpa using fails)]
      exact .cons (Queued.names_of_failure?_eq_some failed) ih

section Ledger

variable {σ : Type} [Transport σ] {valid : σ → Prop}
  {outcome : Queued → Except Fault (Option Bytes)} {window : Nat} {ledger : Ledger}
  {reached : Dispatch × Watched σ}

theorem check_snd (dispatch : Dispatch) :
    dispatch.check.2 = { dispatch with sent := 0, failed := [] } := by
  rw [Dispatch.check]
  cases dispatch.failed <;> rfl

/-- A dispatch has done what the ledger says. -/
structure Agrees (valid : σ → Prop) (outcome : Queued → Except Fault (Option Bytes))
    (window : Nat) (ledger : Ledger) (reached : Dispatch × Watched σ) : Prop where
  valid : valid reached.2.inner
  window : reached.1.window = window
  queued : reached.1.queued.reverse = ledger.pending
  sequence : reached.1.nextSequence = UInt16.ofNat (ledger.finished ++ ledger.pending).length
  sent : reached.1.sent = ledger.unreported.length
  failed : reached.1.failed.Perm (failures outcome ledger.unreported)
  exchanges : reached.2.exchanges.Perm (ledger.finished.map Queued.call)

/-- What a finish exchanges and leaves. -/
theorem Agrees.finish (answers : Answers valid outcome) (positive : 0 < window)
    (agrees : Agrees valid outcome window ledger reached) (schedule : List Nat) :
    let after := reached.1.finish schedule reached.2
    valid after.2.inner ∧
      (∃ exchanged, ledger.pending.Perm exchanged ∧
        after.2.exchanges = reached.2.exchanges ++ exchanged.map Queued.call) ∧
      after.1.failed.Perm (failures outcome ledger.pending ++ reached.1.failed) := by
  have ended := Pool.finish_accounts answers agrees.valid positive ledger.pending
    reached.1.failed schedule
  rw [← agrees.queued]
  rw [← agrees.queued, ← agrees.window] at ended
  exact ended

/-- **One call** keeps the agreement. -/
theorem Agrees.apply (answers : Answers valid outcome) (positive : 0 < window)
    (agrees : Agrees valid outcome window ledger reached) (call : Call) :
    Agrees valid outcome window (ledger.enter call) (call.apply reached) := by
  cases call with
  | send request =>
    refine ⟨agrees.valid, agrees.window, ?_, ?_, agrees.sent, agrees.failed, agrees.exchanges⟩
    · show (⟨request, reached.1.nextSequence⟩ :: reached.1.queued).reverse = _
      rw [List.reverse_cons, agrees.queued, agrees.sequence]
      rfl
    · have longer : (ledger.finished ++ (ledger.enter (.send request)).pending).length =
          (ledger.finished ++ ledger.pending).length + 1 := by
        simp only [Ledger.enter, List.length_append, List.length_cons, List.length_nil]
        omega
      show reached.1.nextSequence + 1 =
        UInt16.ofNat (ledger.finished ++ (ledger.enter (.send request)).pending).length
      rw [agrees.sequence, longer, UInt16.ofNat_add]
      rfl
  | finish schedule =>
    obtain ⟨sound, ⟨exchanged, whole, exchanges⟩, failed⟩ := agrees.finish answers positive schedule
    refine ⟨sound, agrees.window, rfl, ?_, ?_, ?_, ?_⟩
    · simp only [Ledger.enter, List.append_nil]
      exact agrees.sequence
    · simp only [Ledger.enter, List.length_append]
      rw [← agrees.sent, ← agrees.queued]
      rfl
    · simp only [Ledger.enter, failures, List.filterMap_append]
      exact failed.trans (List.perm_append_comm.trans (agrees.failed.append_right _))
    · simp only [Ledger.enter, List.map_append]
      exact (List.Perm.of_eq exchanges).trans (agrees.exchanges.append (whole.symm.map _))
  | check =>
    have checked : Call.check.apply reached = ({ reached.1 with sent := 0, failed := [] }, reached.2) := by
      rw [Call.apply, check_snd]
    rw [checked]
    exact ⟨agrees.valid, agrees.window, agrees.queued, agrees.sequence, rfl, .refl _,
      agrees.exchanges⟩

/-- **Some calls.** -/
theorem agrees_after (answers : Answers valid outcome) (positive : 0 < window) {machine : σ}
    (sound : valid machine) (calls : List Call) :
    Agrees valid outcome window (.after calls)
      (Dispatch.after window (Watched.start machine) calls) := by
  induction calls using List.reverseRecOn with
  | nil => exact ⟨sound, rfl, rfl, rfl, rfl, .refl _, .refl _⟩
  | append_singleton calls call ih =>
    rw [Ledger.after_concat, Dispatch.after, List.foldl_append]
    exact ih.apply answers positive call

omit [Transport σ] in
/-- What a check answers: nothing if nothing failed, or else all that did. -/
theorem Agrees.check (agrees : Agrees valid outcome window ledger reached) :
    (reached.1.check.1 = .ok () ↔
        ∀ queued ∈ ledger.unreported, queued.Succeeds (outcome queued)) ∧
      (reached.1.check.1 = .ok () ∨ ∃ failed,
        failed.Perm (failures outcome ledger.unreported) ∧
          reached.1.check.1 = .error (.batch ledger.unreported.length failed)) := by
  have none : failures outcome ledger.unreported = [] ↔
      ∀ queued ∈ ledger.unreported, queued.Succeeds (outcome queued) := by
    rw [failures, List.filterMap_eq_nil_iff]
    exact forall₂_congr fun queued _ => Queued.failure?_eq_none_iff
  have failed := agrees.failed
  rw [← none, Dispatch.check, ← agrees.sent]
  cases met : reached.1.failed with
  | nil =>
    rw [met] at failed
    exact ⟨⟨fun _ => List.nil_perm.1 failed, fun _ => rfl⟩, .inl rfl⟩
  | cons failure rest =>
    rw [met] at failed
    refine ⟨⟨?_, fun none => ?_⟩, .inr ⟨(failure :: rest).reverse, ?_, rfl⟩⟩
    · rintro ⟨⟩
    · rw [none] at failed
      exact absurd failed.eq_nil (List.cons_ne_nil _ _)
    · exact (List.reverse_perm _).trans failed

/-! ## Calls in any order -/

/-- Watching a dispatch changes nothing. -/
theorem Dispatch.after_inner (window : Nat) (machine : σ) (calls : List Call) :
    Dispatch.after window machine calls =
      ((Dispatch.after window (Watched.start machine) calls).1,
        (Dispatch.after window (Watched.start machine) calls).2.inner) := by
  induction calls using List.reverseRecOn with
  | nil => rfl
  | append_singleton calls call ih =>
    rw [Dispatch.after, Dispatch.after, List.foldl_append, List.foldl_append, ← Dispatch.after,
      ← Dispatch.after, ih]
    generalize Dispatch.after window (Watched.start machine) calls = reached
    cases call with
    | send | check => rfl
    | finish schedule =>
      let pool := Pool.start reached.1.window reached.1.queued.reverse reached.1.failed reached.2
      have same : (pool.finish schedule).unwatched =
          (Pool.start reached.1.window reached.1.queued.reverse reached.1.failed
            reached.2.inner).finish schedule :=
        Pool.unwatched_finish pool schedule
      show reached.1.finish schedule reached.2.inner = _
      rw [Dispatch.finish, ← same]
      rfl

/-- What a dispatch has done and does next, if the ledger is right. -/
structure Reports (outcome : Queued → Except Fault (Option Bytes)) (window : Nat)
    (ledger : Ledger) (dispatch : Dispatch) (machine : Watched σ) : Prop where
  /-- What was exchanged so far is each request of a finished batch, once. -/
  exchanged : machine.exchanges.Perm (ledger.finished.map Queued.call)
  /-- A finish exchanges each pending request, once. -/
  finish : ∀ schedule, ∃ exchanged, ledger.pending.Perm exchanged ∧
    (dispatch.finish schedule machine).2.exchanges =
      machine.exchanges ++ exchanged.map Queued.call
  /-- It comes to its end by steps of its workers. -/
  ends : ∀ schedule, let pool := Pool.start window ledger.pending dispatch.failed machine
    ∃ steps, (dispatch.finish schedule machine).2 = (pool.run (schedule ++ steps)).machine ∧
      (pool.run (schedule ++ steps)).isDone = true
  /-- Not more requests than allowed are in flight, whichever steps were made. -/
  inFlight : ∀ steps,
    ((Pool.start window ledger.pending dispatch.failed machine).run steps).inFlight ≤ window
  /-- There is one failure for each request that did not succeed since the last check. -/
  failed : dispatch.failed.Perm (failures outcome ledger.unreported)
  named : List.Forall₂ (fun queued failure =>
      failure.core = queued.request.destination ∧ failure.opcode = queued.request.opcode)
    (ledger.unreported.filter fun queued => ¬ queued.Succeeds (outcome queued))
    (failures outcome ledger.unreported)
  passes : dispatch.check.1 = .ok () ↔
    ∀ queued ∈ ledger.unreported, queued.Succeeds (outcome queued)
  reports : dispatch.check.1 = .ok () ∨ ∃ failed,
    failed.Perm (failures outcome ledger.unreported) ∧
      dispatch.check.1 = .error (.batch ledger.unreported.length failed)

/-- **A dispatch after any calls, under any schedules of its workers.** The number of a request is
its place among all that were queued. Each is exchanged once, in the next finish, and a check
reports every one that did not succeed since the last. -/
theorem Dispatch.after_reports (answers : Answers valid outcome) (positive : 0 < window)
    {machine : σ} (sound : valid machine) (calls : List Call) :
    let reached := Dispatch.after window (Watched.start machine) calls
    Dispatch.after window machine calls = (reached.1, reached.2.inner) ∧
      (Ledger.after calls).finished ++ (Ledger.after calls).pending =
        (calls.filterMap Call.request?).mapIdx (fun place request =>
          ⟨request, UInt16.ofNat place⟩) ∧
      Reports outcome window (.after calls) reached.1 reached.2 := by
  intro reached
  have agrees := agrees_after answers positive sound calls
  refine ⟨after_inner window machine calls, Ledger.after_numbers calls, ?_⟩
  obtain ⟨passes, reports⟩ := agrees.check
  refine ⟨agrees.exchanges, fun schedule => (agrees.finish answers positive schedule).2.1, ?_,
    fun steps => Pool.inFlight_run_le .., agrees.failed, forall₂_failures .., passes, reports⟩
  intro schedule pool
  obtain ⟨done, steps, same⟩ := Pool.finish_eq_run pool schedule
  refine ⟨steps, ?_, same ▸ done⟩
  rw [← same, Dispatch.finish, agrees.queued, agrees.window]

end Ledger

/-- The code of a reply depends on the troubles of a machine alone. -/
theorem obey_code (request : Scp.Request) {first second : Machine}
    (same : first.troubles = second.troubles) :
    (first.obey request).1 = (second.obey request).1 := by
  unfold Machine.obey
  rw [same]
  cases second.troubles.refusals.get? (request.destination, request.opcode) with
  | some code => rfl
  | none => cases Scp.Command.ofOpcode? request.opcode <;> rfl

theorem obey_troubles (request : Scp.Request) (machine : Machine) :
    (machine.obey request).2.troubles = machine.troubles := by
  unfold Machine.obey
  cases machine.troubles.refusals.get? (request.destination, request.opcode) with
  | some code => rfl
  | none => cases Scp.Command.ofOpcode? request.opcode <;> rfl

/-- A machine in software answers as its troubles say, whatever it was asked before. -/
theorem answers_machine (troubles : Machine.Troubles) :
    Answers (fun machine : Machine => machine.troubles = troubles) fun queued =>
      ((Transport.exchange queued.call.core queued.call.datagram).runOn
        { Machine.start with troubles }).1 := by
  constructor
  · rintro queued state rfl
    show (Machine.exchange _ _ state).1 = (Machine.exchange _ _ _).1
    unfold Machine.exchange
    cases Scp.Request.decode queued.call.datagram with
    | error fault => rfl
    | ok decoded =>
      dsimp only [Machine.logged]
      split
      · rfl
      · exact congrArg (fun code => Except.ok (some (Scp.Reply.encode _ code _)))
          (obey_code decoded.1 rfl)
  · rintro queued state rfl
    show (Machine.exchange _ _ state).2.troubles = _
    unfold Machine.exchange
    cases Scp.Request.decode queued.call.datagram with
    | error fault => rfl
    | ok decoded =>
      dsimp only [Machine.logged]
      split
      · rfl
      · exact obey_troubles decoded.1 _

namespace Sample

/-- A core that never replies. -/
def silent : Core := ⟨⟨0, 0⟩, 1, Chip.hasCore_one⟩

/-- A core that refuses. -/
def refusing : Core := ⟨⟨0, 0⟩, 2, Chip.hasCore_two⟩

/-- A core that obeys. -/
def obeying : Core := ⟨⟨0, 1⟩, 1, Chip.hasCore_one⟩

/-- The command that all of them are given. -/
def command : Scp.Command := .saveApplicationRoutes

def machine : Machine := (Machine.start.silence silent).refuse refusing command.opcode 0x88

/-- Three requests by two workers, of which one is let go first. -/
def calls : List Call :=
  [.send (.monitor silent command), .send (.monitor refusing command),
    .send (.monitor obeying command), .finish [1, 0, 0, 1]]

end Sample

/-- One core is silent, one refuses, and one obeys. -/
theorem Dispatch.after_reports_mixed :
    let reached := Dispatch.after 2 (Watched.start Sample.machine) Sample.calls
    let outcome := fun queued : Queued =>
      ((Transport.exchange queued.call.core queued.call.datagram).runOn Sample.machine).1
    Answers (fun machine : Machine => machine.troubles = Sample.machine.troubles) outcome ∧
      0 < 2 ∧ Reports outcome 2 (.after Sample.calls) reached.1 reached.2 ∧
      reached.1.check.1 = .error (.batch 3
        [⟨Sample.refusing, Sample.command.opcode,
          .operation (.refused Sample.command.opcode Sample.refusing 0x88)⟩,
        ⟨Sample.silent, Sample.command.opcode,
          .operation (.timeout Sample.command.opcode Sample.silent)⟩]) := by
  have answers := answers_machine Sample.machine.troubles
  refine ⟨answers, Nat.two_pos, (after_reports answers Nat.two_pos rfl Sample.calls).2.2, ?_⟩
  decide +kernel

end MeshControl.Batch
