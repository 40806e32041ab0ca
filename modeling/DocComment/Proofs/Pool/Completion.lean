import DocComment.Proofs.Pool.Endings
import DocComment.Proofs.Pool.Progress

/-! Every batch comes to its end: no step can be undone, and one can be made until all results have been
awaited. Batches give the same in every order in which a pool runs their tasks. -/
namespace DocComment.Batch

/-- Steps that a task brings about once it is submitted: to be taken, to give its notices, to settle. -/
def Cell.effort (cell : Cell σ α) : Nat :=
  match cell.stage with
  | .queued => cell.alone.notices.length + 2
  | .running _ rest => rest.notices.length + 1
  | .settled _ => 0

theorem Cell.effort_submit (cell : Cell σ α) : cell.submit.effort ≤ cell.alone.notices.length + 2 := by
  unfold submit effort
  cases fate : cell.pool.fate with
  | run | dropped => simp [alone, fate]
  | refused => exact Nat.zero_le _

theorem Cell.Work.effort {cell after : Cell σ α} {notices : List Notice}
    (work : cell.Work notices after) : after.effort < cell.effort := by
  cases work with
  | start queued taken => simp [Cell.effort, queued, alone, taken]
  | report running | finish running => simp [Cell.effort, running]
  | drop queued => simp [Cell.effort, queued]

/-- A submitted task can go on until it is settled; one that the pool refused is so at once. -/
def Cell.Fair (cell : Cell σ α) : Prop :=
  cell.stage = .queued → cell.pool.fate ≠ .refused

theorem Cell.submit_fair (cell : Cell σ α) : cell.submit.Fair := by
  unfold submit Fair
  cases fate : cell.pool.fate <;> simp [fate]

theorem Cell.Work.fair {cell after : Cell σ α} {notices : List Notice}
    (work : cell.Work notices after) : after.Fair := by
  cases work <;> exact nofun

theorem Cell.Fair.progress {cell : Cell σ α} (fair : cell.Fair) :
    (∃ outcome, cell.stage = .settled outcome) ∨ ∃ notices after, cell.Work notices after := by
  cases stage : cell.stage with
  | settled outcome => exact .inl ⟨outcome, rfl⟩
  | running slot rest =>
    obtain ⟨result, notices⟩ := rest
    cases notices with
    | nil => exact .inr ⟨_, _, .finish stage⟩
    | cons notice later => exact .inr ⟨_, _, .report stage⟩
  | queued =>
    cases fate : cell.pool.fate with
    | run => exact .inr ⟨_, _, .start stage fate⟩
    | dropped => exact .inr ⟨_, _, .drop stage fate⟩
    | refused => exact absurd fate (fair stage)

namespace Schedule

variable {start schedule after : Schedule σ α}

/-- What is still to be done: for each task to submit it and what it needs then, and the results to be
awaited. -/
def effort (schedule : Schedule σ α) : Nat :=
  (schedule.waiting.map fun cell => cell.alone.notices.length + 3).sum +
    (schedule.submitted.map Cell.effort).sum +
    (schedule.waiting.length + schedule.submitted.length - schedule.results.length)

theorem Step.effort (step : Step schedule after) : after.effort < schedule.effort := by
  cases step with
  | submit next =>
    rename_i cell rest
    have less := cell.effort_submit
    simp only [Schedule.effort, next, List.map_cons, List.map_append, List.map_nil, List.sum_cons,
      List.sum_append, List.sum_nil, List.length_cons, List.length_append, List.length_nil]
    omega
  | work position found work =>
    rename_i cell new given
    have less := work.effort
    have sums := sum_set found new Cell.effort
    simp only [Schedule.effort, List.length_set]
    omega
  | await all found settled =>
    have inside := (List.getElem?_eq_some_iff.mp found).1
    simp only [Schedule.effort, List.length_append, List.length_singleton]
    omega

/-- What holds while a batch goes on: no result is awaited before its task is submitted, and every task
submitted can go on. -/
structure Ongoing (schedule : Schedule σ α) : Prop where
  awaited : schedule.Awaited
  fair : ∀ cell ∈ schedule.submitted, cell.Fair

theorem Ongoing.step (ongoing : schedule.Ongoing) (step : Step schedule after) : after.Ongoing := by
  refine ⟨step.awaited ongoing.awaited, fun cell member => ?_⟩
  cases step with
  | submit next =>
    rcases List.mem_append.mp member with before | new
    · exact ongoing.fair cell before
    · rw [List.mem_singleton.mp new]
      exact Cell.submit_fair _
  | work _ found work =>
    rcases List.mem_or_eq_of_mem_set member with before | rfl
    · exact ongoing.fair cell before
    · exact work.fair
  | await all found settled => exact ongoing.fair cell member

theorem Ongoing.progress (ongoing : schedule.Ongoing) :
    schedule.IsOver ∨ ∃ after, Step schedule after := by
  cases waiting : schedule.waiting with
  | cons cell rest => exact .inr ⟨_, .submit waiting⟩
  | nil =>
    cases next : schedule.submitted[schedule.results.length]? with
    | some cell =>
      rcases (ongoing.fair cell (List.mem_of_getElem? next)).progress with
        ⟨outcome, settled⟩ | ⟨notices, after, work⟩
      · exact .inr ⟨_, .await waiting next settled⟩
      · exact .inr ⟨_, .work _ next work⟩
    | none =>
      have all := List.getElem?_eq_none_iff.mp next
      have within : ¬ schedule.submitted.length < schedule.results.length := fun more => by
        obtain ⟨cell, _, found, _⟩ := ongoing.awaited _ more
        rw [List.getElem?_eq_none (Nat.le_refl _)] at found
        cases found
      exact .inl ⟨waiting, Nat.le_antisymm (Nat.le_of_not_lt within) all⟩

theorem Runs.ongoing (runs : Runs schedule after) (ongoing : schedule.Ongoing) : after.Ongoing := by
  induction runs with
  | start => exact ongoing
  | step _ step ih => exact ih.step step

theorem Runs.trans (first : Runs start schedule) (second : Runs schedule after) :
    Runs start after := by
  induction second with
  | start => exact first
  | step _ step ih => exact .step ih step

/-- Whatever steps were made, the batch can go on until it is over. -/
theorem Ongoing.completes (ongoing : schedule.Ongoing) :
    ∃ last, Runs schedule last ∧ last.IsOver := by
  induction left : schedule.effort using Nat.strongRecOn generalizing schedule with
  | ind _ ih =>
    rcases ongoing.progress with ended | ⟨after, step⟩
    · exact ⟨schedule, .start, ended⟩
    · obtain ⟨last, runs, ended⟩ := ih _ (left ▸ step.effort) (ongoing.step step) rfl
      exact ⟨last, (Runs.start.step step).trans runs, ended⟩

end Schedule

theorem start_ongoing (cells : List (Cell σ α)) (diagnostics : Diagnostics) :
    Schedule.Ongoing { waiting := cells, diagnostics } :=
  ⟨nofun, nofun⟩

/-- A batch that has begun can always be brought to an end. -/
theorem completes_of_runs {cells : List (Cell σ α)} {schedule : Schedule σ α}
    (runs : Schedule.Runs { waiting := cells, diagnostics } schedule) :
    ∃ last, Schedule.Runs schedule last ∧ Completes cells diagnostics last := by
  obtain ⟨last, rest, ended⟩ := (runs.ongoing (start_ongoing cells diagnostics)).completes
  exact ⟨last, rest, runs.trans rest, ended⟩

variable {pool : Pool} {pools : Nat → Pool} {tasks : List (WorkItem α)}

theorem exists_completes (cells : List (Cell σ α)) (diagnostics : Diagnostics) :
    ∃ last, Completes cells diagnostics last := by
  have begun : Schedule.Runs { waiting := cells, diagnostics } _ := .start
  obtain ⟨last, _, completes⟩ := completes_of_runs begun
  exact ⟨last, completes⟩

/-- What comes of tasks that all find the pool alike. -/
theorem onPools_alone (same : ∀ position, (pools position).fate = pool.fate)
    (cells : List (Cell σ α)) :
    (onPools pools cells).map Cell.alone = (cells.map fun cell => { cell with pool }).map Cell.alone := by
  apply List.ext_getElem?
  intro position
  simp only [onPools, List.getElem?_map, List.getElem?_mapIdx, Option.map_map]
  congr 1
  funext cell
  simp only [Function.comp_apply, Cell.alone, same]

/-- On one pool the results are those of the tasks run in any order before the first is awaited. -/
theorem Completes.agrees_mapInOrder {cells : List (Cell σ α)} {last : Schedule σ α} {order : List Nat}
    (completes : Completes (onPools pools cells) diagnostics last)
    (same : ∀ position, (pools position).fate = pool.fate)
    (all : order.Perm (List.range cells.length)) :
    last.results = (mapInOrder pool order diagnostics (cells.map Cell.item)).1 ∧
    last.diagnostics.Agrees (mapInOrder pool order diagnostics (cells.map Cell.item)).2 := by
  have items : (cells.map fun cell => { cell with pool }).map Cell.item = cells.map Cell.item := by
    rw [List.map_map]
    rfl
  have uniform : ∀ cell ∈ cells.map fun cell => { cell with pool }, cell.pool = pool := by
    simp
  obtain ⟨results, sink⟩ := mapInOrder_agrees uniform (by simpa using all) diagnostics
  obtain ⟨_, given, reported⟩ := completes.agrees
  rw [items] at results sink
  rw [inTurn_eq, onPools_alone same, ← inTurn_eq] at given reported
  exact ⟨given.trans results.symm, reported.trans sink⟩

/-- The labels of tasks, and what comes of these. -/
def outcomes (pools : Nat → Pool) (tasks : List (WorkItem α)) : List (String × Except JobError α) :=
  tasks.mapIdx fun position task => (task.label, (pools position).outcome task.run)

theorem getElem?_outcomes (position : Nat) :
    (outcomes pools tasks)[position]? =
      tasks[position]?.map fun task => (task.label, (pools position).outcome task.run) :=
  List.getElem?_mapIdx

/-- Each task has either a result or an error. -/
theorem outcomes_parted (outcomes : List (String × Except JobError α)) :
    (outcomes.filterMap (·.2.toOption)).length +
      (outcomes.filterMap fun task => failure? task.1 task.2).length = outcomes.length := by
  have either (task : String × Except JobError α) :
      (failure? task.1 task.2).isSome = decide (¬ task.2.toOption.isSome = true) := by
    cases task.2 <;> rfl
  rw [List.length_filterMap_eq_countP, List.length_filterMap_eq_countP,
    List.length_eq_countP_add_countP fun task => task.2.toOption.isSome]
  simp only [either]

theorem exists_mapsTo (pools : Nat → Pool) (diagnostics : Diagnostics) (tasks : List (WorkItem α)) :
    ∃ results after, MapsTo pools diagnostics tasks results after := by
  obtain ⟨last, completes⟩ := exists_completes (onPools pools (tasks.map cell)) diagnostics
  exact ⟨_, _, last, completes, rfl, rfl⟩

/-- Each handle gives the result of its own task. -/
theorem MapsTo.results_eq (maps : MapsTo pools diagnostics tasks results after) :
    results = (outcomes pools tasks).map (·.2.toOption) := by
  obtain ⟨last, completes, rfl, rfl⟩ := maps
  rw [completes.agrees.2.1, inTurn_eq]
  apply List.ext_getElem?
  intro position
  simp only [onPools, List.getElem?_map, List.getElem?_mapIdx, getElem?_outcomes, Option.map_map]
  congr 1
  funext task
  exact congrArg Except.toOption (Cell.alone_outcome _)

/-- Tasks that give no notices report nothing but their errors. -/
theorem MapsTo.errors (maps : MapsTo pools diagnostics tasks results after)
    (quiet : ∀ task ∈ tasks, task.run.notices = []) :
    after.Agrees (diagnostics.reportAll
      ((outcomes pools tasks).filterMap fun task => failure? task.1 task.2)) := by
  obtain ⟨last, completes, _, rfl⟩ := maps
  have endings : (onPools pools (tasks.map cell)).map Cell.alone =
      (outcomes pools tasks).map fun task => ⟨task.1, (), task.2, []⟩ := by
    apply List.ext_getElem?
    intro position
    simp only [onPools, List.getElem?_map, List.getElem?_mapIdx, getElem?_outcomes, Option.map_map]
    refine Option.map_congr fun task found => ?_
    have none := quiet task (List.mem_of_getElem? found)
    simp [Cell.alone_eq, Cell.item, cell, none]
  have agrees := completes.agrees.2.2
  rw [inTurn_eq, endings, List.flatMap_map] at agrees
  rw [List.filterMap_eq_flatMap_toList]
  exact agrees

theorem MapsTo.agrees (maps : MapsTo pools diagnostics tasks results after)
    (same : ∀ position, (pools position).fate = pool.fate)
    (all : order.Perm (List.range tasks.length)) :
    results = (mapInOrder pool order diagnostics tasks).1 ∧
    after.Agrees (mapInOrder pool order diagnostics tasks).2 := by
  obtain ⟨last, completes, rfl, rfl⟩ := maps
  have items : (tasks.map cell).map Cell.item = tasks := by
    rw [List.map_map]
    exact List.map_id _
  rw [← List.length_map cell] at all
  have agrees := completes.agrees_mapInOrder same all
  rwa [items] at agrees

end DocComment.Batch
