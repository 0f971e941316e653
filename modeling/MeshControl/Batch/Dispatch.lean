import MeshControl.Batch.Pool
import MeshControl.Core.Subset

/-!
# Batches of requests

A `Dispatch` collects requests for many cores, sends them with a bounded number in flight, and
reports all failures at once. Nothing is given up early: a core that fails stops no request to
another.
-/

namespace MeshControl

/-- The same fault, with the failures of a batch in the order of core, command and wording. This
is the same list whichever worker met which failure first. -/
def Fault.arranged : Fault → Fault
  | .batch total failures =>
    .batch total (SortKey.sort (fun f => (f.core, f.opcode, f.fault.message)) failures)
  | fault => fault

namespace Batch

/-- Requests on their way, and the failures that were not reported yet. -/
structure Dispatch where
  /-- The most requests in flight at once. -/
  window : Nat
  /-- Requests that were not sent yet, the latest first. -/
  queued : List Queued
  nextSequence : UInt16
  /-- Requests sent since the last report. -/
  sent : Nat
  /-- Failures since the last report, the latest first. -/
  failed : List FailedRequest

/-- The window that is used if none is given. -/
def defaultWindow : Nat := 8

/-- A window of at least one request. -/
def windowOf (requested : Nat) : Nat := max requested 1

namespace Dispatch

/-- A dispatch that was asked for nothing yet. -/
def start (window : Nat) : Dispatch := ⟨window, [], 0, 0, []⟩

/-- Queue a request; it carries the next sequence number. -/
def send (dispatch : Dispatch) (request : Scp.Request) : Dispatch :=
  { dispatch with
    queued := ⟨request, dispatch.nextSequence⟩ :: dispatch.queued
    nextSequence := dispatch.nextSequence + 1 }

/-- Number of requests that were not sent yet. -/
def pending (dispatch : Dispatch) : Nat := dispatch.queued.length

variable {σ : Type} [Transport σ]

/-- Send every queued request and wait for every reply; the workers step by the schedule. -/
def finish (dispatch : Dispatch) (schedule : List Nat) (machine : σ) : Dispatch × σ :=
  let requests := dispatch.queued.reverse
  let pool := (Pool.start dispatch.window requests dispatch.failed machine).finish schedule
  ({ dispatch with
      queued := []
      sent := dispatch.sent + requests.length
      failed := pool.failed }, pool.machine)

/-- Report every failure since the last report. -/
def check (dispatch : Dispatch) : Except Fault Unit × Dispatch :=
  let checked := { dispatch with sent := 0, failed := [] }
  match dispatch.failed with
  | [] => (.ok (), checked)
  | failed => (.error (.batch dispatch.sent failed.reverse), checked)

end Dispatch

variable {σ : Type} [Transport σ]

/-- Give one command to the monitors of all cores of a set. -/
def command (window : Nat) (command : Scp.Command) (cores : CoreSet) (schedule : List Nat) :
    Action σ Unit := fun machine =>
  let requests := cores.cores.map fun core => Scp.Request.monitor core command
  let dispatch := requests.foldl Dispatch.send (.start window)
  let (dispatch, machine) := dispatch.finish schedule machine
  (dispatch.check.1, machine)

end Batch

end MeshControl
