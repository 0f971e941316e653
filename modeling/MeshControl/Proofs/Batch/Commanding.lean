import MeshControl.Proofs.Batch.Reporting
import MeshControl.Proofs.Core.Subset
import MeshControl.Proofs.Machine.Routes
import MeshControl.Proofs.Scp.Message

/-!
# What a run of a command reports and what it changes

A command is given to every core of a set, in whatever order the workers come to it. A watched
transport holds what its exchanges in turn have made of it (`Replays`), and each exchange changes
the tables of its own core alone, so the order does not show: the cores that obey are the ones that
changed, and the others are the ones that are reported.

Main statement: `Run.after_effect`.
-/

namespace MeshControl.Batch

/-! ## Steps of a pool -/

section Steps

variable {σ : Type} [Transport σ]

/-- **Whatever exchanges keep, a pool keeps.** -/
theorem Pool.steps_run {R : σ → σ → Prop} [Std.Refl R] [IsTrans σ R]
    (each : ∀ queued, Action.Steps R (exchange queued)) (pool : Pool σ) (schedule : List Nat) :
    R pool.machine (pool.run schedule).machine := by
  induction schedule generalizing pool with
  | nil => exact Std.Refl.refl _
  | cons index rest ih =>
    have first : R pool.machine (pool.step index).machine := by
      obtain moves | ⟨same, -⟩ := step_cases pool index
      · obtain ⟨same, -, -⟩ | ⟨queued, result, ran, -, -⟩ := moves.balance
        · rw [same]
          exact Std.Refl.refl _
        · have step := each queued pool.machine
          rwa [ran] at step
      · rw [same]
        exact Std.Refl.refl _
    exact IsTrans.trans _ _ _ first (ih (pool.step index))

/-- What an exchange leaves. -/
def sendCall (state : σ) (call : ExchangeCall) : σ :=
  ((Transport.exchange call.core call.datagram).runOn state).2

/-- What was exchanged in between, in turn, has made one state of the other. -/
def Replays (before after : Watched σ) : Prop :=
  ∃ calls, after.exchanges = before.exchanges ++ calls ∧
    after.inner = calls.foldl sendCall before.inner

instance : Std.Refl (@Replays σ _) := ⟨fun _ => ⟨[], (List.append_nil _).symm, rfl⟩⟩

instance : IsTrans (Watched σ) Replays where
  trans := by
    rintro first second third ⟨early, exchanged, reached⟩ ⟨late, exchangedLate, reachedLate⟩
    refine ⟨early ++ late, ?_, ?_⟩
    · rw [exchangedLate, exchanged, List.append_assoc]
    · rw [reachedLate, reached, List.foldl_append]

theorem exchange_replays (queued : Queued) :
    Action.Steps (@Replays σ _) (exchange queued) := by
  intro state
  rw [runOn_exchange]
  exact ⟨[queued.call], rfl, rfl⟩

/-- What a pool that is finished has exchanged has made its transport what it is. -/
theorem Pool.finish_replays (pool : Pool (Watched σ)) (schedule : List Nat) :
    Replays pool.machine (pool.finish schedule).machine := by
  obtain ⟨-, steps, same⟩ := pool.finish_eq_run schedule
  rw [same]
  exact pool.steps_run exchange_replays _

end Steps

/-! ## One core -/

open Machine

/-- The core obeys the command: it is not silent, and was not told to refuse. -/
def obeys (troubles : Troubles) (command : Scp.Command) (core : Core) : Bool :=
  !troubles.silent.contains core && (troubles.refusals.get? (core, command.opcode)).isNone

/-- The code by which the core replies to the command, unless it is silent. -/
def replyCode? (troubles : Troubles) (command : Scp.Command) (core : Core) :
    Option Scp.ResultCode :=
  if troubles.silent.contains core then none
  else some ((troubles.refusals.get? (core, command.opcode)).getD .ok)

/-- No core refuses a command with the code of success. -/
def Honest (troubles : Troubles) : Prop :=
  ∀ core opcode, troubles.refusals.get? (core, opcode) ≠ some Scp.ResultCode.ok

/-- A core says that it obeys only if it does. -/
theorem Honest.replyCode?_eq_iff {troubles : Troubles} (honest : Honest troubles)
    (command : Scp.Command) (core : Core) :
    replyCode? troubles command core = some .ok ↔ obeys troubles command core = true := by
  rw [replyCode?, obeys]
  cases troubles.silent.contains core with
  | true => simp
  | false =>
    cases refused : troubles.refusals.get? (core, command.opcode) with
    | none => simp
    | some code =>
      have other : code ≠ Scp.ResultCode.ok := fun same =>
        honest core command.opcode (same ▸ refused)
      simp [other]

/-- **What a machine makes of a command for a core.** -/
theorem runOn_exchange_monitor (machine : Machine) (core : Core) (command : Scp.Command)
    (sequence : UInt16) :
    (Transport.exchange core ((Scp.Request.monitor core command).encode sequence)).runOn machine =
      (.ok ((replyCode? machine.troubles command core).map fun code =>
          Scp.Reply.encode core code sequence),
        { machine.logged (.command core command.opcode) with
          routes := if obeys machine.troubles command core then machine.routes.apply core command
            else machine.routes }) := by
  have decoded := (Scp.Request.monitor core command).decode_encode sequence
    (by decide : (6 : UInt8).toNat < 8)
  have known := command.ofOpcode?_opcode
  show Machine.exchange _ _ machine = _
  rw [Machine.exchange, decoded, replyCode?, obeys]
  simp only [Machine.logged, obey, Scp.Request.monitor, known]
  cases machine.troubles.silent.contains core with
  | true => rfl
  | false => cases machine.troubles.refusals.get? (core, command.opcode) <;> rfl

/-- A command succeeds if its core replies that it obeys. -/
theorem succeeds_monitor (troubles : Troubles) (core : Core) (command : Scp.Command)
    (sequence : UInt16) :
    let queued : Queued := ⟨.monitor core command, sequence⟩
    queued.Succeeds ((Transport.exchange queued.call.core queued.call.datagram).runOn
      { Machine.start with troubles }).1 ↔ replyCode? troubles command core = some .ok := by
  intro queued
  have ran := runOn_exchange_monitor { Machine.start with troubles } core command sequence
  have answer : ((Transport.exchange queued.call.core queued.call.datagram).runOn
      { Machine.start with troubles }).1 = _ := congrArg Prod.fst ran
  rw [answer, ← Queued.judge_eq_ok_iff]
  show queued.judge (.ok ((replyCode? troubles command core).map _)) = .ok () ↔ _
  cases replyCode? troubles command core with
  | none => exact ⟨nofun, nofun⟩
  | some code =>
    show (Scp.Reply.decode _ _ _ >>= fun reply => reply.check _) = .ok () ↔ _
    rw [Scp.Reply.decode_encode]
    show (if code = .ok then Except.ok () else .error _) = .ok () ↔ _
    by_cases success : code = Scp.ResultCode.ok
    · simp [success]
    · simp [success]

/-- **Commands in turn.** -/
theorem routes_foldl_sendCall (command : Scp.Command) (sent : List Queued)
    (monitors : ∀ queued ∈ sent, queued.request = .monitor queued.request.destination command)
    (machine : Machine) :
    ((sent.map Queued.call).foldl sendCall machine).routes =
      ((sent.map fun queued => queued.request.destination).filter
        (obeys machine.troubles command)).foldl (fun routes core => routes.apply core command)
          machine.routes := by
  induction sent generalizing machine with
  | nil => rfl
  | cons queued rest ih =>
    obtain ⟨request, sequence⟩ := queued
    have monitor := monitors _ (List.mem_cons_self ..)
    have ran := runOn_exchange_monitor machine request.destination command sequence
    rw [← monitor] at ran
    have first : sendCall machine (Queued.call ⟨request, sequence⟩) = _ := congrArg Prod.snd ran
    have later := ih (fun other member => monitors other (List.mem_cons_of_mem _ member))
      (sendCall machine (Queued.call ⟨request, sequence⟩))
    rw [List.map_cons, List.foldl_cons, later, first, List.map_cons, List.filter_cons]
    dsimp only [logged]
    split <;> rfl

/-! ## A run -/

/-- A command for the cores of a set, on a machine that was told how to fail. -/
structure Run where
  command : Scp.Command
  cores : CoreSet
  built : cores.Built
  troubles : Troubles
  honest : Honest troubles

/-- How a run goes: how many requests are in flight, and which worker makes each step. -/
structure Pace where
  window : Nat
  positive : 0 < window
  schedule : List Nat

namespace Run

/-- Make the run. -/
def on (run : Run) (pace : Pace) (machine : Machine) : Except Fault Unit × Machine :=
  (Batch.command pace.window run.command run.cores pace.schedule).runOn
    { machine with troubles := run.troubles }

/-- What the monitors of the cores are asked for. -/
def monitors (run : Run) : List Scp.Request :=
  run.cores.cores.map fun core => .monitor core run.command

/-- The requests of a run, each with its number. -/
def requests (run : Run) : List Queued :=
  run.monitors.mapIdx fun place request => ⟨request, UInt16.ofNat place⟩

/-- The workers of a run, before their first step. -/
def pool (run : Run) (pace : Pace) (machine : Machine) : Pool Machine :=
  Pool.start pace.window run.requests [] { machine with troubles := run.troubles }

/-- The cores of the set that obey. -/
def obedient (run : Run) : List Core := run.cores.cores.filter (obeys run.troubles run.command)

/-- The other cores of the set. -/
def failing (run : Run) : List Core :=
  run.cores.cores.filter fun core => !obeys run.troubles run.command core

/-- The tables once the cores that obey have obeyed. -/
def settle (run : Run) (routes : Routes) : Routes :=
  run.obedient.foldl (fun routes core => routes.apply core run.command) routes

/-- Requests that are sent are queued, the latest first, each with its number. -/
theorem foldl_send (window : Nat) (requests : List Scp.Request) :
    requests.foldl Dispatch.send (.start window) =
      ⟨window, (requests.mapIdx fun place request => ⟨request, UInt16.ofNat place⟩).reverse,
        UInt16.ofNat requests.length, 0, []⟩ := by
  induction requests using List.reverseRecOn with
  | nil => rfl
  | append_singleton requests request ih =>
    rw [List.foldl_append, ih, List.mapIdx_concat]
    simp [Dispatch.send]

/-- A run is what becomes of its workers. -/
theorem on_eq (run : Run) (pace : Pace) (machine : Machine) :
    let ended := (run.pool pace machine).finish pace.schedule
    run.on pace machine = (match ended.failed with
      | [] => .ok ()
      | failed => .error (.batch run.requests.length failed.reverse), ended.machine) := by
  intro ended
  let told : Machine := { machine with troubles := run.troubles }
  let dispatch := run.monitors.foldl Dispatch.send (.start pace.window)
  have sent : dispatch = _ := foldl_send pace.window run.monitors
  have finished : dispatch.finish pace.schedule told =
      (⟨pace.window, [], UInt16.ofNat run.monitors.length, run.requests.length, ended.failed⟩,
        ended.machine) := by
    rw [sent, Dispatch.finish]
    simp only [List.reverse_reverse, Nat.zero_add]
    rfl
  show ((dispatch.finish pace.schedule told).1.check.1, (dispatch.finish pace.schedule told).2) = _
  rw [finished, Dispatch.check]
  cases ended.failed <;> rfl

theorem requests_destinations (run : Run) :
    run.requests.map (fun queued => queued.request.destination) = run.cores.cores := by
  apply List.ext_getElem
  · simp [requests, monitors]
  · simp [requests, monitors, Scp.Request.monitor]

theorem mem_requests (run : Run) : ∀ queued ∈ run.requests,
    queued.request = .monitor queued.request.destination run.command := by
  intro queued member
  obtain ⟨place, inside, rfl⟩ := List.mem_mapIdx.1 member
  simp [monitors, Scp.Request.monitor]

/-- What the machine answers to a request. -/
def outcome (run : Run) (queued : Queued) : Except Fault (Option Bytes) :=
  ((Transport.exchange queued.call.core queued.call.datagram).runOn
    { Machine.start with troubles := run.troubles }).1

/-- A request succeeds if its core obeys. -/
theorem succeeds_iff (run : Run) : ∀ queued ∈ run.requests,
    (queued.Succeeds (run.outcome queued) ↔
      obeys run.troubles run.command queued.request.destination = true) := by
  intro queued member
  rw [← run.honest.replyCode?_eq_iff]
  have monitor := run.mem_requests queued member
  have succeeds := succeeds_monitor run.troubles queued.request.destination run.command
    queued.sequence
  rwa [← monitor] at succeeds

/-- What the cores that fail are reported under. -/
theorem map_core_failures (run : Run) :
    (failures run.outcome run.requests).map FailedRequest.core = run.failing := by
  have named := forall₂_failures run.outcome run.requests
  have cores : ∀ {requests : List Queued} {failed : List FailedRequest},
      List.Forall₂ (fun queued failure => failure.core = queued.request.destination ∧
        failure.opcode = queued.request.opcode) requests failed →
      failed.map FailedRequest.core = requests.map fun queued => queued.request.destination := by
    intro requests failed named
    induction named with
    | nil => rfl
    | cons first _ ih => rw [List.map_cons, List.map_cons, first.1, ih]
  rw [cores named, failing, ← run.requests_destinations, List.filter_map]
  congr 1
  apply List.filter_congr
  intro queued member
  have same := run.succeeds_iff queued member
  simp only [Function.comp_apply, same, Bool.not_eq_true, Bool.decide_eq_false]

/-- **The end of a run.** The tables are those that the cores that obey leave in turn, and there is
one failure for each of the others. -/
theorem finish_pool (run : Run) (pace : Pace) (machine : Machine) :
    let ended := (run.pool pace machine).finish pace.schedule
    ended.machine.routes = run.settle machine.routes ∧
      (ended.failed.map FailedRequest.core).Perm run.failing := by
  let told : Machine := { machine with troubles := run.troubles }
  let watched := Pool.start pace.window run.requests [] (Watched.start told)
  intro ended
  have same : (watched.finish pace.schedule).unwatched = ended :=
    Pool.unwatched_finish watched pace.schedule
  have sound : (Watched.start told).inner.troubles = run.troubles := rfl
  obtain ⟨-, ⟨exchanged, whole, exchanges⟩, failed⟩ := Pool.finish_accounts
    (answers_machine run.troubles) sound pace.positive run.requests [] pace.schedule
  obtain ⟨made, sent, reached⟩ := watched.finish_replays pace.schedule
  have known : made = exchanged.map Queued.call := sent.symm.trans exchanges
  have monitors : ∀ queued ∈ exchanged,
      queued.request = .monitor queued.request.destination run.command :=
    fun queued member => run.mem_requests queued (whole.mem_iff.2 member)
  constructor
  · have inner : ended.machine = made.foldl sendCall told := same ▸ reached
    rw [inner, known, routes_foldl_sendCall run.command exchanged monitors told]
    -- the cores came in some order, which does not matter
    have cores : run.cores.cores.Perm
        (exchanged.map fun queued => queued.request.destination) := by
      rw [← run.requests_destinations]
      exact whole.map _
    apply Routes.ext_tables
    intro core
    have same := (cores.filter (obeys run.troubles run.command)).mem_iff (a := core)
    rw [settle, Routes.tables_foldl_apply, Routes.tables_foldl_apply]
    exact if_congr same.symm rfl rfl
  · rw [List.append_nil] at failed
    rw [← run.map_core_failures, ← same]
    exact failed.map _

theorem mem_obedient {run : Run} {core : Core} : core ∈ run.obedient ↔
    core ∈ run.cores.cores ∧ obeys run.troubles run.command core = true :=
  List.mem_filter

theorem mem_failing {run : Run} {core : Core} : core ∈ run.failing ↔
    core ∈ run.cores.cores ∧ obeys run.troubles run.command core = false := by
  rw [failing, List.mem_filter, Bool.not_eq_true']

/-- Workers leave no core with both tables, after any of their steps. -/
theorem exclusive_pool {machine : Machine} (exclusive : machine.routes.Exclusive) (run : Run)
    (pace : Pace) (steps : List Nat) :
    ((run.pool pace machine).run steps).machine.routes.Exclusive := by
  let Keeps (before after : Machine) : Prop := before.routes.Exclusive → after.routes.Exclusive
  have refl : Std.Refl Keeps := ⟨fun _ => id⟩
  have trans : IsTrans Machine Keeps := ⟨fun _ _ _ early late => late ∘ early⟩
  have each : ∀ queued, Action.Steps Keeps (exchange queued) := by
    intro queued
    refine Action.Steps.bind (fun machine exclusive => ?_) fun reply => ?_
    · exact exclusive_exchange exclusive _ _
    · cases reply with
      | none => exact .throw _
      | some datagram => exact (Action.Steps.ofExcept _).bind fun _ => .ofExcept _
  exact Pool.steps_run each (run.pool pace machine) steps exclusive

/-- What a run does and reports. -/
structure Effect (run : Run) (pace : Pace) (machine : Machine) : Prop where
  /-- The tables of a core change if it is one of the set and obeys. -/
  tables : ∀ core, (run.on pace machine).2.routes.tables core =
    if core ∈ run.cores.cores ∧ obeys run.troubles run.command core = true
      then (machine.routes.tables core).obeying run.command
      else machine.routes.tables core
  passes : (run.on pace machine).1 = .ok () ↔
    ∀ core ∈ run.cores.cores, obeys run.troubles run.command core = true
  /-- Each core of the set that does not obey is reported, once. -/
  reports : (run.on pace machine).1 = .ok () ∨ ∃ failed,
    (run.on pace machine).1 = .error (.batch run.cores.size failed) ∧
      (failed.map FailedRequest.core).Nodup ∧
      ∀ core, core ∈ failed.map FailedRequest.core ↔
        core ∈ run.cores.cores ∧ obeys run.troubles run.command core = false
  /-- The workers have made their steps by the schedule, and more if some were left. -/
  ends : ∃ steps, (run.on pace machine).2 =
    ((run.pool pace machine).run (pace.schedule ++ steps)).machine
  /-- No step leaves a core with both tables. -/
  exclusive : ∀ steps, ((run.pool pace machine).run steps).machine.routes.Exclusive

theorem on_effect {machine : Machine} (exclusive : machine.routes.Exclusive) (run : Run)
    (pace : Pace) : run.Effect pace machine := by
  obtain ⟨routes, failed⟩ := run.finish_pool pace machine
  have same := run.on_eq pace machine
  obtain ⟨-, steps, ends⟩ := (run.pool pace machine).finish_eq_run pace.schedule
  generalize (run.pool pace machine).finish pace.schedule = ended at routes failed same ends
  have none : run.failing = [] ↔
      ∀ core ∈ run.cores.cores, obeys run.troubles run.command core = true := by
    rw [failing, List.filter_eq_nil_iff]
    simp
  have total : run.requests.length = run.cores.size := by
    rw [← run.cores.length_cores, ← run.requests_destinations, List.length_map]
  constructor
  · intro core
    rw [same, routes, settle, Routes.tables_foldl_apply]
    exact if_congr mem_obedient rfl rfl
  · rw [same, ← none]
    cases met : ended.failed with
    | nil =>
      rw [met] at failed
      exact ⟨fun _ => List.nil_perm.1 failed, fun _ => rfl⟩
    | cons failure rest =>
      rw [met] at failed
      refine ⟨nofun, fun none => ?_⟩
      rw [none] at failed
      cases failed.eq_nil
  · rw [same]
    cases met : ended.failed with
    | nil => exact .inl rfl
    | cons failure rest =>
      rw [met] at failed
      have named : ((failure :: rest).reverse.map FailedRequest.core).Perm run.failing :=
        ((List.reverse_perm _).map _).trans failed
      refine .inr ⟨_, congrArg (fun total => Except.error (Fault.batch total _)) total, ?_, ?_⟩
      · exact named.nodup_iff.2 (run.built.nodup_cores.filter _)
      · exact fun core => named.mem_iff.trans mem_failing
  · refine ⟨steps, ?_⟩
    rw [same, ← ends]
  · exact run.exclusive_pool exclusive pace

/-- The machine after runs in turn. -/
def after (machine : Machine) (runs : List (Run × Pace)) : Machine :=
  runs.foldl (fun machine run => (run.1.on run.2 machine).2) machine

/-- What the tables come to is a matter of the runs alone. -/
theorem routes_after (machine : Machine) (runs : List (Run × Pace)) :
    (after machine runs).routes =
      (runs.map Prod.fst).foldl (fun routes run => run.settle routes) machine.routes := by
  induction runs generalizing machine with
  | nil => rfl
  | cons first rest ih =>
    have routes : (first.1.on first.2 machine).2.routes = first.1.settle machine.routes := by
      rw [on_eq]
      exact (first.1.finish_pool first.2 machine).1
    refine (ih _).trans ?_
    rw [routes]
    rfl

theorem exclusive_after {machine : Machine} (exclusive : machine.routes.Exclusive)
    (runs : List (Run × Pace)) : (after machine runs).routes.Exclusive := by
  induction runs generalizing machine with
  | nil => exact exclusive
  | cons first rest ih =>
    have effect := on_effect exclusive first.1 first.2
    obtain ⟨steps, ends⟩ := effect.ends
    have reached : (first.1.on first.2 machine).2.routes.Exclusive := by
      rw [ends]
      exact effect.exclusive _
    exact ih reached

/-- **Runs of commands**, one after the other. The tables that the earlier runs leave depend on what
the runs were, and not on how they went. The next run changes the tables of the cores of its set
that obey, and reports the others; no core has both tables installed before the run, in its course
or after it. -/
theorem after_effect {machine : Machine} (exclusive : machine.routes.Exclusive)
    (earlier : List (Run × Pace)) (run : Run) (pace : Pace) :
    let before := after machine earlier
    before.routes =
        (earlier.map Prod.fst).foldl (fun routes run => run.settle routes) machine.routes ∧
      before.routes.Exclusive ∧ run.Effect pace before := by
  intro before
  have reached : before.routes.Exclusive := exclusive_after exclusive earlier
  exact ⟨routes_after machine earlier, reached, on_effect reached run pace⟩

end Run

namespace Sample

/-- A run over the three cores. -/
def run (command : Scp.Command) : Run where
  command := command
  cores := .ofList [silent, refusing, obeying]
  built := .ofList _
  troubles := machine.troubles
  honest := by
    intro core opcode
    show (OrderedMap.insert .empty (refusing, Sample.command.opcode) 0x88).get? (core, opcode) ≠ _
    rw [OrderedMap.get?_insert, OrderedMap.get?_empty]
    split <;> decide

/-- Two workers, of which one is let go first. -/
def pace : Pace := ⟨2, Nat.two_pos, [1, 0, 0, 1]⟩

end Sample

/-- The core that refuses to keep a table has loaded one before. -/
theorem Run.after_effect_mixed :
    let before := Run.after .start [(Sample.run .loadSystemRoutes, Sample.pace)]
    Machine.start.routes.Exclusive ∧ (Sample.run Sample.command).Effect Sample.pace before ∧
      before.routes.tables Sample.refusing = ⟨true, false, false⟩ ∧
      ((Sample.run Sample.command).on Sample.pace before).1 = .error (.batch 3
        [⟨Sample.refusing, Sample.command.opcode,
          .operation (.refused Sample.command.opcode Sample.refusing 0x88)⟩,
        ⟨Sample.silent, Sample.command.opcode,
          .operation (.timeout Sample.command.opcode Sample.silent)⟩]) := by
  have begun : Machine.start.routes.Exclusive := Routes.Exclusive.none
  obtain ⟨-, -, effect⟩ := Run.after_effect begun [(Sample.run .loadSystemRoutes, Sample.pace)]
    (Sample.run Sample.command) Sample.pace
  refine ⟨begun, effect, ?_, ?_⟩
  · decide +kernel
  · decide +kernel

end MeshControl.Batch
