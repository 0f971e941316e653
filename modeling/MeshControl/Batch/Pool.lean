import MeshControl.Scp.Message
import MeshControl.Transport

/-!
# Workers that send a batch of requests

A `Pool` of workers shares a list of requests. Each worker claims the next request, exchanges
it, records a failure if there was one, and claims again until none is left. A step is one of
these by one worker; a schedule says which worker makes each step, so every interleaving of the
workers is a run under some schedule. A worker that fails stops no other.
-/

namespace MeshControl.Batch

/-- A request and the sequence number it carries. -/
structure Queued where
  request : Scp.Request
  sequence : UInt16
  deriving DecidableEq, Repr

variable {σ : Type} [Transport σ]

/-- Send a request and check its reply. -/
def exchange (queued : Queued) : Action σ Unit := do
  let request := queued.request
  match ← Transport.exchange request.destination (request.encode queued.sequence) with
  | none => throw (.operation (.timeout request.opcode request.destination))
  | some datagram =>
    let reply ← Action.ofExcept (Scp.Reply.decode request queued.sequence datagram)
    Action.ofExcept (reply.check request)

/-- What a worker does next. -/
inductive Worker where
  /-- Claim a request. -/
  | idle
  /-- Exchange the request it has claimed. -/
  | sending (queued : Queued)
  /-- Record a failure. -/
  | failing (failure : FailedRequest)
  /-- Nothing; it found no request left. -/
  | done
  deriving DecidableEq

namespace Worker

/-- True if the worker has a request in flight. -/
def inFlight : Worker → Bool
  | .sending _ => true
  | .idle | .failing _ | .done => false

/-- True if the worker has nothing more to do. -/
def isDone : Worker → Bool
  | .done => true
  | .idle | .sending _ | .failing _ => false

/-- The most steps that are left for a worker that claims no more requests. -/
def stepsLeft : Worker → Nat
  | .idle => 1
  | .sending _ => 3
  | .failing _ => 2
  | .done => 0

end Worker

/-- Workers on a shared list of requests. -/
structure Pool (σ : Type) where
  /-- Requests that no worker has claimed. -/
  waiting : List Queued
  workers : List Worker
  /-- Failures recorded so far, the latest first. -/
  failed : List FailedRequest
  machine : σ

namespace Pool

/-- Idle workers, as many as are allowed but no more than there are requests. -/
def start (window : Nat) (requests : List Queued) (failed : List FailedRequest) (machine : σ) :
    Pool σ :=
  ⟨requests, List.replicate (min window requests.length) .idle, failed, machine⟩

/-- Set what a worker does next. -/
def setWorker (pool : Pool σ) (index : Nat) (worker : Worker) : Pool σ :=
  { pool with workers := pool.workers.set index worker }

/-- The next step of the worker of the given number. -/
def step (pool : Pool σ) (index : Nat) : Pool σ :=
  match pool.workers[index]? with
  | none | some .done => pool
  | some .idle =>
    match pool.waiting with
    | [] => pool.setWorker index .done
    | queued :: rest => { pool with waiting := rest }.setWorker index (.sending queued)
  | some (.sending queued) =>
    match (exchange queued).runOn pool.machine with
    | (.ok (), machine) => { pool with machine }.setWorker index .idle
    | (.error fault, machine) =>
      { pool with machine }.setWorker index
        (.failing ⟨queued.request.destination, queued.request.opcode, fault⟩)
  | some (.failing failure) =>
    { pool with failed := failure :: pool.failed }.setWorker index .idle

/-- The pool after the steps of a schedule. -/
def run (pool : Pool σ) (schedule : List Nat) : Pool σ := schedule.foldl step pool

/-- True if no worker has anything more to do. -/
def isDone (pool : Pool σ) : Bool := pool.workers.all Worker.isDone

/-- Number of requests in flight. -/
def inFlight (pool : Pool σ) : Nat := pool.workers.countP Worker.inFlight

/-- The most steps that are left. -/
def stepsLeft (pool : Pool σ) : Nat :=
  3 * pool.waiting.length + pool.workers.foldr (fun worker total => worker.stepsLeft + total) 0

/-- Up to `limit` steps, each by the first worker that has something to do. -/
def complete (pool : Pool σ) : Nat → Pool σ
  | 0 => pool
  | limit + 1 =>
    match pool.workers.findIdx? fun worker => !worker.isDone with
    | none => pool
    | some index => complete (pool.step index) limit

/-- The pool once every worker is done: first the steps of the schedule, then, for what that
leaves undone, the steps of one worker after the other. -/
def finish (pool : Pool σ) (schedule : List Nat) : Pool σ :=
  let pool := pool.run schedule
  pool.complete pool.stepsLeft

end Pool

end MeshControl.Batch
