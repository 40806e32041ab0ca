import DocComment.Diagnostics

/-! Tasks, and what becomes of them in a pool of workers. A batch has one task for each element and its results
in the order of submission; failures are recorded under the labels of the elements and reach neither the
caller nor the other elements. The order in which tasks run is a parameter: it gives their positions. -/
namespace DocComment

/-- Why a task has no result. -/
inductive TaskError where
  /-- The task failed; the outermost cause comes first. -/
  | failed (causes : List String)
  | panicked (message : String)
  /-- The task was dropped before it ran. -/
  | lost
  deriving Repr, DecidableEq

def TaskError.message : TaskError → String
  | .failed causes => String.intercalate ": " causes
  | .panicked message => "task panicked: " ++ message
  | .lost => "task was dropped before it completed"

/-- What a panic carries. It can be let go of without another panic. -/
inductive Payload where
  | text (message : String)
  /-- Anything that is no text. -/
  | other
  deriving Repr, DecidableEq

def Payload.message : Payload → String
  | .text message => message
  | .other => "non-string panic payload"

/-- How a task that runs comes to its end. -/
inductive TaskEnd (α : Type) where
  | returned (value : α)
  /-- The task failed; the outermost cause comes first. -/
  | failed (causes : List String)
  | panicked (payload : Payload)
  deriving Repr, DecidableEq

/-- What is sent to the handle of a task that has run. A panic goes no further. -/
def TaskEnd.captured : TaskEnd α → Except TaskError α
  | .returned value => .ok value
  | .failed causes => .error (.failed causes)
  | .panicked payload => .error (.panicked payload.message)

/-- Why a job was not taken or has no result. -/
inductive JobError where
  | shutDown
  | task (error : TaskError)
  deriving Repr, DecidableEq

def JobError.message : JobError → String
  | .shutDown => "worker pool has been shut down"
  | .task error => error.message

/-- What a task leaves when it has run. -/
structure TaskRun (α : Type) where
  ending : TaskEnd α
  notices : List Notice := []

def TaskRun.result (task : TaskRun α) : Except TaskError α :=
  task.ending.captured

/-- What a pool does with a job. -/
inductive Fate where
  /-- It is taken and run to its end. -/
  | run
  /-- It is taken and dropped. -/
  | dropped
  /-- It is not taken. -/
  | refused
  deriving Repr, DecidableEq

structure Pool where
  /-- Number of jobs that may run at the same time. -/
  threads : Nat := 1
  fate : Fate := .run
  deriving Repr, DecidableEq

namespace Pool

/-- Runs each job at once. -/
def synchronous : Pool :=
  {}

/-- At least one worker. -/
def threaded (threads : Nat) : Pool :=
  { threads := max 1 threads }

/-- Takes jobs and runs none. -/
def dropping : Pool :=
  { fate := .dropped }

/-- All jobs taken so far have run; no job is taken any more. -/
def shutDown (pool : Pool) : Pool :=
  { pool with fate := .refused }

/-- The result of a task handed to the pool. -/
def outcome (pool : Pool) (task : TaskRun α) : Except JobError α :=
  match pool.fate with
  | .refused => .error .shutDown
  | .dropped => .error (.task .lost)
  | .run =>
    match task.result with
    | .ok value => .ok value
    | .error error => .error (.task error)

/-- The log after a job whose result nobody waits for. A panic is all that it shows. -/
def execute (pool : Pool) (task : TaskRun α) (diagnostics : Diagnostics) :
    Except JobError Unit × Diagnostics :=
  match pool.fate, task.ending with
  | .refused, _ => (.error .shutDown, diagnostics)
  | .run, .panicked payload =>
    (.ok (), diagnostics.write ⟨.error, "job panicked: " ++ payload.message⟩)
  | _, _ => (.ok (), diagnostics)

end Pool

structure WorkItem (α : Type) where
  label : String
  run : TaskRun α

namespace Batch

/-- The notices of all tasks, as they come when the tasks run in the given order. -/
def notices (pool : Pool) (order : List Nat) (tasks : List (WorkItem α)) : List Notice :=
  match pool.fate with
  | .run => order.flatMap fun position => (tasks[position]?.map (·.run.notices)).getD []
  | .dropped | .refused => []

/-- The result that a handle gives; an error is recorded under the label of its task. -/
def receive (label : String) (diagnostics : Diagnostics) : Except JobError α → Option α × Diagnostics
  | .ok value => (some value, diagnostics)
  | .error error => (none, diagnostics.error (label ++ ": " ++ error.message))

def collect (pool : Pool) (diagnostics : Diagnostics) (task : WorkItem α) : Option α × Diagnostics :=
  receive task.label diagnostics (pool.outcome task.run)

def collectAll (pool : Pool) : Diagnostics → List (WorkItem α) → List (Option α) × Diagnostics
  | diagnostics, [] => ([], diagnostics)
  | diagnostics, task :: rest =>
    let (result, afterTask) := collect pool diagnostics task
    let (results, afterRest) := collectAll pool afterTask rest
    (result :: results, afterRest)

/-- Tasks run in the given order, then the results are awaited in the order of submission. -/
def mapInOrder (pool : Pool) (order : List Nat) (diagnostics : Diagnostics) (tasks : List (WorkItem α)) :
    List (Option α) × Diagnostics :=
  collectAll pool (diagnostics.noticeAll (notices pool order tasks)) tasks

/-- The order of submission. -/
def submitted (tasks : List (WorkItem α)) : List Nat :=
  List.range tasks.length

/-- The results of all tasks; none for one that failed. -/
def mapEach (pool : Pool) (diagnostics : Diagnostics) (tasks : List (WorkItem α)) :
    List (Option α) × Diagnostics :=
  mapInOrder pool (submitted tasks) diagnostics tasks

def failures (results : List (Option α)) : Nat :=
  (results.filter Option.isNone).length

/-- The number of tasks that failed. -/
def forEach (pool : Pool) (diagnostics : Diagnostics) (tasks : List (WorkItem α)) : Nat × Diagnostics :=
  let (results, after) := mapEach pool diagnostics tasks
  (failures results, after)

end Batch

end DocComment
