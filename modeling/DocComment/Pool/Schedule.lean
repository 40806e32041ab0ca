import DocComment.Pool.Task

/-! How a batch comes to its results on a pool. The tasks are submitted one by one, then their results
are awaited in this order. Meanwhile every task that was taken goes on by itself: it works on a slot of
its own, and reports to the sink that all share. A run is any order of these steps. -/
namespace DocComment.Batch

/-- How far a task is. -/
inductive Stage (σ α : Type) where
  | queued
  /-- It holds its slot, will leave this in it, and has the notices of the rest still to give. -/
  | running (slot : σ) (rest : TaskRun α)
  | settled (outcome : Except JobError α)

/-- A task with its slot, and the pool as it is when the task is submitted. -/
structure Cell (σ α : Type) where
  label : String
  run : σ → σ × TaskRun α
  slot : σ
  pool : Pool := .synchronous
  stage : Stage σ α := .queued

/-- What comes of a task. -/
structure Ending (σ α : Type) where
  label : String
  slot : σ
  outcome : Except JobError α
  notices : List Notice := []

namespace Cell

def submit (cell : Cell σ α) : Cell σ α :=
  match cell.pool.fate with
  | .run | .dropped => { cell with stage := .queued }
  | .refused => { cell with stage := .settled (.error .shutDown) }

/-- A step of a task that was submitted, with what it reports. -/
inductive Work : Cell σ α → List Notice → Cell σ α → Prop where
  | start (queued : cell.stage = .queued) (taken : cell.pool.fate = .run) :
    Work cell [] { cell with stage := .running (cell.run cell.slot).1 (cell.run cell.slot).2 }
  | report {slot : σ} (running : cell.stage = .running slot ⟨ending, notice :: rest⟩) :
    Work cell [notice] { cell with stage := .running slot ⟨ending, rest⟩ }
  | finish {slot : σ} (running : cell.stage = .running slot ⟨ending, []⟩) :
    Work cell [] { cell with slot, stage := .settled (ending.captured.mapError .task) }
  | drop (queued : cell.stage = .queued) (dropped : cell.pool.fate = .dropped) :
    Work cell [] { cell with stage := .settled (.error (.task .lost)) }

/-- What comes of the task when it runs alone. -/
def alone (cell : Cell σ α) : Ending σ α :=
  match cell.pool.fate with
  | .run =>
    let (slot, run) := cell.run cell.slot
    ⟨cell.label, slot, run.result.mapError .task, run.notices⟩
  | .dropped => ⟨cell.label, cell.slot, .error (.task .lost), []⟩
  | .refused => ⟨cell.label, cell.slot, .error .shutDown, []⟩

end Cell

structure Schedule (σ α : Type) where
  /-- The tasks still to be submitted. -/
  waiting : List (Cell σ α)
  submitted : List (Cell σ α) := []
  /-- The results awaited so far. -/
  results : List (Option α) := []
  diagnostics : Diagnostics

namespace Schedule

inductive Step : Schedule σ α → Schedule σ α → Prop where
  | submit (next : schedule.waiting = cell :: rest) :
    Step schedule
      { schedule with waiting := rest, submitted := schedule.submitted ++ [cell.submit] }
  | work {notices : List Notice} (position : Nat)
      (found : schedule.submitted[position]? = some cell) (work : cell.Work notices after) :
    Step schedule
      { schedule with
        submitted := schedule.submitted.set position after
        diagnostics := schedule.diagnostics.noticeAll notices }
  /-- The next result is awaited, once all tasks are submitted. -/
  | await (all : schedule.waiting = [])
      (found : schedule.submitted[schedule.results.length]? = some cell)
      (settled : cell.stage = .settled outcome) :
    Step schedule
      { schedule with
        results := schedule.results ++ [(receive cell.label schedule.diagnostics outcome).1]
        diagnostics := (receive cell.label schedule.diagnostics outcome).2 }

inductive Runs (start : Schedule σ α) : Schedule σ α → Prop where
  | start : Runs start start
  | step (before : Runs start schedule) (step : Step schedule after) : Runs start after

/-- Whether all results have been awaited. -/
def IsOver (schedule : Schedule σ α) : Prop :=
  schedule.waiting = [] ∧ schedule.results.length = schedule.submitted.length

/-- What the tasks have left in their slots. -/
def slots (schedule : Schedule σ α) : List σ :=
  schedule.submitted.map (·.slot)

end Schedule

/-- Where a batch can end. -/
def Completes (cells : List (Cell σ α)) (diagnostics : Diagnostics) (last : Schedule σ α) : Prop :=
  Schedule.Runs { waiting := cells, diagnostics } last ∧ last.IsOver

/-- The tasks one after the other. Each runs to its end, and its result is awaited, before the next one
starts. Gives what is in the slots then, and the results. -/
def inTurn (diagnostics : Diagnostics) : List (Cell σ α) → List σ × List (Option α) × Diagnostics
  | [] => ([], [], diagnostics)
  | cell :: rest =>
    let ending := cell.alone
    let (result, afterTask) :=
      receive ending.label (diagnostics.noticeAll ending.notices) ending.outcome
    let (slots, results, afterRest) := inTurn afterTask rest
    (ending.slot :: slots, result :: results, afterRest)

/-- The tasks, each with the pool as it finds it. -/
def onPools (pools : Nat → Pool) (cells : List (Cell σ α)) : List (Cell σ α) :=
  cells.mapIdx fun position cell => { cell with pool := pools position }

/-- A task that needs no slot. -/
def cell (item : WorkItem α) : Cell Unit α :=
  { label := item.label, run := fun _ => ((), item.run), slot := () }

/-- The results that a batch can give, and the sink then. -/
def MapsTo (pools : Nat → Pool) (diagnostics : Diagnostics) (tasks : List (WorkItem α))
    (results : List (Option α)) (after : Diagnostics) : Prop :=
  ∃ last, Completes (onPools pools (tasks.map cell)) diagnostics last ∧
    last.results = results ∧ last.diagnostics = after

end DocComment.Batch
