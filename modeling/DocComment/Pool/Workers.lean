import DocComment.Pool.Task

/-! The workers of a pool and their queue. Threads change this state one at a time, under one lock: what
a thread does while it holds the lock, and each notice it gives to waiting threads, is one step. A run
is any order of steps, of new calls, and of threads that stop waiting without a notice. -/
namespace DocComment

/-- Where a worker stands. -/
inductive Worker where
  /-- It is about to look for a job. -/
  | seeking
  /-- It waits for a notice of work. -/
  | parked
  | running (job : Nat)
  | exited
  deriving Repr, DecidableEq

namespace Worker

/-- The job between taking and finishing. -/
def job? : Worker → Option Nat
  | .running job => some job
  | _ => none

/-- A notice of work ends the waiting and means nothing else. -/
def notified : Worker → Worker
  | .parked => .seeking
  | other => other

end Worker

/-- How far a call is that hands in a task or shuts the pool down. -/
inductive Call (α : Type) where
  | submitting (task : TaskRun α)
  /-- The job is queued; the notice of work is still to be given. -/
  | announcing (job : Nat)
  | accepted (job : Nat)
  | refused
  /-- It is about to see whether the pool is idle. -/
  | closing
  /-- It waits for the notice that the pool is idle. -/
  | waiting
  /-- The pool is shut down; the notice to all workers is still to be given. -/
  | dismissing
  | closed

/-- A notice that the pool is idle ends the waiting and means nothing else. -/
def Call.notified : Call α → Call α
  | .waiting => .closing
  | other => other

structure Crew (α : Type) where
  workers : List Worker
  calls : List (Call α) := []
  /-- The numbers of the jobs that wait. -/
  queue : List Nat := []
  inFlight : Nat := 0
  shutDown : Bool := false
  /-- All jobs ever accepted. The number of a job is its position. -/
  accepted : List (TaskRun α) := []
  /-- The numbers of the jobs taken so far, and of those finished, in this order. -/
  taken : List Nat := []
  finished : List Nat := []

namespace Crew

/-- The workers as a pool starts them. -/
def start (pool : Pool) : Crew α :=
  { workers := List.replicate pool.threads .seeking }

def isIdle (crew : Crew α) : Bool :=
  crew.queue.isEmpty && crew.inFlight == 0

/-- The jobs between taking and finishing. -/
def running (crew : Crew α) : List Nat :=
  crew.workers.filterMap Worker.job?

/-- A worker takes the first job. Without one it leaves if the pool is shut down, else it waits. -/
def look (crew : Crew α) (worker : Nat) : Crew α :=
  match crew.queue with
  | job :: rest =>
    { crew with
      queue := rest
      inFlight := crew.inFlight + 1
      taken := crew.taken ++ [job]
      workers := crew.workers.set worker (.running job) }
  | [] =>
    { crew with workers := crew.workers.set worker (if crew.shutDown then .exited else .parked) }

/-- A worker has run its job, whatever came of it. If the pool is idle then, all who wait for that
are notified. -/
def finish (crew : Crew α) (worker job : Nat) : Crew α :=
  let after := { crew with
    inFlight := crew.inFlight - 1
    finished := crew.finished ++ [job]
    workers := crew.workers.set worker .seeking }
  if after.isIdle then { after with calls := after.calls.map Call.notified } else after

/-- A task is queued, unless the pool is shut down. -/
def submit (crew : Crew α) (call : Nat) (task : TaskRun α) : Crew α :=
  if crew.shutDown then { crew with calls := crew.calls.set call .refused }
  else
    { crew with
      queue := crew.queue ++ [crew.accepted.length]
      accepted := crew.accepted ++ [task]
      calls := crew.calls.set call (.announcing crew.accepted.length) }

/-- The pool is shut down if it is idle; else the call waits. -/
def close (crew : Crew α) (call : Nat) : Crew α :=
  if crew.isIdle then { crew with shutDown := true, calls := crew.calls.set call .dismissing }
  else { crew with calls := crew.calls.set call .waiting }

/-- A step of one thread. -/
inductive Step : Crew α → Crew α → Prop where
  | look (seeking : crew.workers[worker]? = some .seeking) : Step crew (crew.look worker)
  | finish (running : crew.workers[worker]? = some (.running job)) : Step crew (crew.finish worker job)
  | submit (submitting : crew.calls[call]? = some (.submitting task)) :
    Step crew (crew.submit call task)
  /-- The notice of work reaches any one of the workers that wait. -/
  | announce (announcing : crew.calls[call]? = some (.announcing job))
      (parked : crew.workers[worker]? = some .parked) :
    Step crew
      { crew with
        calls := crew.calls.set call (.accepted job)
        workers := crew.workers.set worker .seeking }
  /-- The notice of work reaches nobody when no worker waits. -/
  | announceInVain (announcing : crew.calls[call]? = some (.announcing job))
      (busy : .parked ∉ crew.workers) :
    Step crew { crew with calls := crew.calls.set call (.accepted job) }
  | close (closing : crew.calls[call]? = some .closing) : Step crew (crew.close call)
  | dismiss (dismissing : crew.calls[call]? = some .dismissing) :
    Step crew
      { crew with
        calls := crew.calls.set call .closed
        workers := crew.workers.map Worker.notified }

/-- A thread stops waiting though nobody notified it. -/
inductive Stir : Crew α → Crew α → Prop where
  | worker (parked : crew.workers[worker]? = some .parked) :
    Stir crew { crew with workers := crew.workers.set worker .seeking }
  | call (waiting : crew.calls[call]? = some .waiting) :
    Stir crew { crew with calls := crew.calls.set call .closing }

/-- Whoever uses the pool calls it, from any thread. -/
inductive Arrival : Crew α → Crew α → Prop where
  | task (crew : Crew α) (task : TaskRun α) :
    Arrival crew { crew with calls := crew.calls ++ [.submitting task] }
  | shutDown (crew : Crew α) : Arrival crew { crew with calls := crew.calls ++ [.closing] }

inductive Move (crew after : Crew α) : Prop where
  | step (step : Step crew after)
  | stir (stir : Stir crew after)
  | arrival (arrival : Arrival crew after)

/-- The states that a pool can get into. -/
inductive Reached (pool : Pool) : Crew α → Prop where
  | start : Reached pool (Crew.start pool)
  | move (before : Reached pool crew) (move : Move crew after) : Reached pool after

/-- What a handle has to report of an accepted job; nothing as long as it may still be run. A job that
is not finished when the last worker has left is dropped. -/
def report? (crew : Crew α) (job : Nat) : Option (Except TaskError α) :=
  crew.accepted[job]?.bind fun task =>
    if crew.finished.contains job then some task.result
    else if crew.workers.all (· == .exited) then some (.error .lost)
    else none

end Crew

end DocComment
