import DocComment.Proofs.Pool.Ledger
import DocComment.Proofs.Pool.Reports

/-! A batch ends the same way in every order of its steps. What comes of the tasks is fixed from the
start: no step changes what will be in a slot or what a handle will give, and every step reports some
of what is still to be reported. -/
namespace DocComment.Batch

open scoped List

namespace Cell

/-- What comes of a submitted task, with the notices still to be given. -/
def ending (cell : Cell σ α) : Ending σ α :=
  match cell.stage with
  | .queued => cell.alone
  | .running slot rest => ⟨cell.label, slot, rest.result.mapError .task, rest.notices⟩
  | .settled outcome => ⟨cell.label, cell.slot, outcome, []⟩

theorem ending_submit (cell : Cell σ α) : cell.submit.ending = cell.alone := by
  unfold submit ending alone
  cases fate : cell.pool.fate <;> simp [fate]

theorem ending_settled {cell : Cell σ α} (settled : cell.stage = .settled outcome) :
    cell.ending = ⟨cell.label, cell.slot, outcome, []⟩ := by
  rw [ending, settled]

variable {cell after : Cell σ α} {notices : List Notice}

/-- A step of a task changes nothing of its ending but for the notices that it gives. -/
theorem Work.ending (work : cell.Work notices after) :
    cell.ending = { after.ending with notices := notices ++ after.ending.notices } := by
  cases work with
  | start queued taken => simp [Cell.ending, queued, alone, taken]
  | report running => simp [Cell.ending, running, TaskRun.result]
  | finish running => simp [Cell.ending, running, TaskRun.result]
  | drop queued dropped => simp [Cell.ending, queued, alone, dropped]

theorem Work.not_settled (work : cell.Work notices after) : cell.stage ≠ .settled outcome := by
  intro settled
  cases work with
  | start queued | drop queued => cases queued.symm.trans settled
  | report running | finish running => cases running.symm.trans settled

end Cell

def Ending.failure? (ending : Ending σ α) : Option Report :=
  Batch.failure? ending.label ending.outcome

namespace Schedule

variable {schedule after last : Schedule σ α} {cell : Cell σ α} {cells : List (Cell σ α)}

/-- What comes of each task. -/
def endings (schedule : Schedule σ α) : List (Ending σ α) :=
  schedule.submitted.map Cell.ending ++ schedule.waiting.map Cell.alone

/-- The results, those not awaited yet included. -/
def prospects (schedule : Schedule σ α) : List (Option α) :=
  schedule.results ++
    (schedule.endings.map (·.outcome.toOption)).drop schedule.results.length

/-- The reports still to come: the notices not given yet, and the errors of results not awaited yet. -/
def reports (schedule : Schedule σ α) : List Report :=
  schedule.endings.flatMap (·.notices.map .notice) ++
    ((schedule.endings.map Ending.failure?).drop schedule.results.length).filterMap id

/-- What any part of a run keeps. -/
structure Keeps (schedule after : Schedule σ α) : Prop where
  slots : after.endings.map (·.slot) = schedule.endings.map (·.slot)
  prospects : after.prospects = schedule.prospects
  reports : ∃ given, after.diagnostics = schedule.diagnostics.reportAll given ∧
    schedule.reports.Perm (given ++ after.reports)

theorem Keeps.refl (schedule : Schedule σ α) : Keeps schedule schedule :=
  ⟨rfl, rfl, [], rfl, .refl _⟩

theorem Keeps.trans (first : Keeps schedule after) (second : Keeps after last) :
    Keeps schedule last := by
  obtain ⟨early, sinkThen, before⟩ := first.reports
  obtain ⟨late, sinkNow, still⟩ := second.reports
  refine ⟨second.slots.trans first.slots, second.prospects.trans first.prospects, early ++ late, ?_, ?_⟩
  · rw [sinkNow, sinkThen, ← Diagnostics.reportAll_append]
  · rw [List.append_assoc]
    exact before.trans (still.append_left _)

theorem Keeps.submit {rest : List (Cell σ α)} (next : schedule.waiting = cell :: rest) :
    Keeps schedule
      { schedule with waiting := rest, submitted := schedule.submitted ++ [cell.submit] } := by
  have same : endings { schedule with
      waiting := rest, submitted := schedule.submitted ++ [cell.submit] } = schedule.endings := by
    simp [endings, next, cell.ending_submit]
  refine ⟨by rw [same], ?_, [], rfl, ?_⟩
  · simp only [Schedule.prospects, same]
  · simp only [Schedule.reports, same]
    exact .refl _

theorem Keeps.work {new : Cell σ α} {given : List Notice}
    (found : schedule.submitted[position]? = some cell) (work : cell.Work given new) :
    Keeps schedule
      { schedule with
        submitted := schedule.submitted.set position new
        diagnostics := schedule.diagnostics.noticeAll given } := by
  obtain ⟨before, rest, parts, changed⟩ := exists_set found
  generalize current : Schedule.mk .. = now
  have old : schedule.endings = before.map Cell.ending ++
      ({ new.ending with notices := given ++ new.ending.notices } ::
        (rest.map Cell.ending ++ schedule.waiting.map Cell.alone)) := by
    simp [endings, parts, work.ending]
  have fresh : now.endings = before.map Cell.ending ++
      (new.ending :: (rest.map Cell.ending ++ schedule.waiting.map Cell.alone)) := by
    simp [← current, endings, changed]
  have sameResults : now.results = schedule.results := by rw [← current]
  refine ⟨by simp [old, fresh], ?_, given.map .notice, ?_, ?_⟩
  · simp [Schedule.prospects, old, fresh, sameResults]
  · rw [← current, Diagnostics.noticeAll_eq]
  · have errors : now.endings.map Ending.failure? = schedule.endings.map Ending.failure? := by
      simp [old, fresh, Ending.failure?]
    rw [Schedule.reports, Schedule.reports, errors, sameResults, old, fresh, ← List.append_assoc]
    refine .append_right _ ?_
    simp only [List.flatMap_append, List.flatMap_cons, List.map_append]
    rw [List.append_assoc]
    exact List.perm_append_comm_assoc ..

theorem Keeps.await (found : schedule.submitted[schedule.results.length]? = some cell)
    (settled : cell.stage = .settled outcome) :
    Keeps schedule
      { schedule with
        results := schedule.results ++ [(receive cell.label schedule.diagnostics outcome).1]
        diagnostics := (receive cell.label schedule.diagnostics outcome).2 } := by
  rw [receive_eq]
  generalize current : Schedule.mk .. = now
  have same : now.endings = schedule.endings := by simp [← current, endings]
  have grown : now.results = schedule.results ++ [outcome.toOption] := by rw [← current]
  have next : schedule.endings[schedule.results.length]? = some ⟨cell.label, cell.slot, outcome, []⟩ := by
    have inside := (List.getElem?_eq_some_iff.mp found).1
    rw [endings, List.getElem?_append_left (by simpa using inside), List.getElem?_map, found,
      Option.map_some, cell.ending_settled settled]
  have taken {β : Type} (what : Ending σ α → β) :
      (schedule.endings.map what).drop schedule.results.length =
        what ⟨cell.label, cell.slot, outcome, []⟩ ::
          (now.endings.map what).drop now.results.length := by
    rw [List.drop_eq_getElem?_toList_append, List.getElem?_map, next, same, grown,
      List.length_append, List.length_singleton]
    rfl
  refine ⟨by rw [same], ?_, (failure? cell.label outcome).toList, by rw [← current], ?_⟩
  · rw [Schedule.prospects, Schedule.prospects, taken, grown, List.append_assoc]
    rfl
  · rw [Schedule.reports, Schedule.reports, taken, same]
    refine .trans (.of_eq ?_) (List.perm_append_comm_assoc ..)
    congr 1
    cases failed : failure? cell.label outcome <;> simp [Ending.failure?, failed]

theorem Step.keeps (step : Step schedule after) : Keeps schedule after := by
  cases step with
  | submit next => exact .submit next
  | work _ found work => exact .work found work
  | await all found settled => exact .await found settled

theorem Runs.keeps (runs : Runs schedule after) : Keeps schedule after := by
  induction runs with
  | start => exact .refl _
  | step _ step ih => exact ih.trans step.keeps

/-- The results awaited so far are those of tasks that are settled. -/
def Awaited (schedule : Schedule σ α) : Prop :=
  ∀ position < schedule.results.length, ∃ cell outcome,
    schedule.submitted[position]? = some cell ∧ cell.stage = .settled outcome

theorem Step.awaited (step : Step schedule after) (awaited : schedule.Awaited) : after.Awaited := by
  intro position inside
  cases step with
  | submit next =>
    obtain ⟨cell, outcome, found, settled⟩ := awaited position inside
    refine ⟨cell, outcome, ?_, settled⟩
    rw [List.getElem?_append_left (List.getElem?_eq_some_iff.mp found).1]
    exact found
  | work _ other work =>
    obtain ⟨cell, outcome, found, settled⟩ := awaited position inside
    refine ⟨cell, outcome, ?_, settled⟩
    rw [List.getElem?_set_ne]
    · exact found
    · rintro rfl
      cases found.symm.trans other
      exact work.not_settled settled
  | await all found settled =>
    rw [List.length_append, List.length_singleton] at inside
    rcases Nat.lt_succ_iff_lt_or_eq.mp inside with before | rfl
    · exact awaited position before
    · exact ⟨_, _, found, settled⟩

theorem Runs.awaited (runs : Runs schedule after) (awaited : schedule.Awaited) : after.Awaited := by
  induction runs with
  | start => exact awaited
  | step _ step ih => exact step.awaited ih

/-- When all results have been awaited, every task is settled. -/
theorem IsOver.settled (ended : last.IsOver) (awaited : last.Awaited) :
    ∀ cell ∈ last.submitted, ∃ outcome, cell.stage = .settled outcome := by
  intro cell member
  obtain ⟨position, found⟩ := List.getElem?_of_mem member
  have inside := (List.getElem?_eq_some_iff.mp found).1
  rw [← ended.2] at inside
  obtain ⟨other, outcome, same, settled⟩ := awaited position inside
  cases found.symm.trans same
  exact ⟨outcome, settled⟩

theorem IsOver.endings (ended : last.IsOver) : last.endings = last.submitted.map Cell.ending := by
  simp [Schedule.endings, ended.1]

theorem IsOver.nothing_awaited (ended : last.IsOver) (what : Ending σ α → β) :
    (last.endings.map what).drop last.results.length = [] := by
  rw [ended.2, ended.endings]
  simp

theorem IsOver.slots (ended : last.IsOver) (awaited : last.Awaited) :
    last.endings.map (·.slot) = last.slots := by
  rw [ended.endings, List.map_map, Schedule.slots]
  refine List.map_congr_left fun cell member => ?_
  obtain ⟨outcome, stage⟩ := ended.settled awaited cell member
  exact congrArg Ending.slot (cell.ending_settled stage)

theorem IsOver.reports (ended : last.IsOver) (awaited : last.Awaited) : last.reports = [] := by
  have none : last.endings.flatMap (·.notices.map Report.notice) = [] := by
    rw [ended.endings, List.flatMap_map, List.flatMap_eq_nil_iff]
    intro cell member
    obtain ⟨outcome, stage⟩ := ended.settled awaited cell member
    rw [cell.ending_settled stage]
    rfl
  rw [Schedule.reports, none, ended.nothing_awaited]
  rfl

theorem reports_start (cells : List (Cell σ α)) (diagnostics : Diagnostics) :
    (reports { waiting := cells, diagnostics }).Perm
      ((cells.map Cell.alone).flatMap Ending.reports) := by
  have parts : reports { waiting := cells, diagnostics } =
      cells.flatMap (·.alone.notices.map .notice) ++
        cells.flatMap fun cell => (failure? cell.alone.label cell.alone.outcome).toList := by
    simp [Schedule.reports, Schedule.endings, List.flatMap_map, Ending.failure?,
      List.filterMap_eq_flatMap_toList, Function.comp_def]
  rw [parts, List.flatMap_map]
  exact List.flatMap_append_perm ..

end Schedule

/-- A batch that is over has left in the slots, has given and has reported what its tasks do in turn. -/
theorem Completes.agrees {cells : List (Cell σ α)} {last : Schedule σ α}
    (completes : Completes cells diagnostics last) :
    last.slots = (inTurn diagnostics cells).1 ∧
    last.results = (inTurn diagnostics cells).2.1 ∧
    last.diagnostics.Agrees (inTurn diagnostics cells).2.2 := by
  obtain ⟨runs, ended⟩ := completes
  obtain ⟨slots, prospects, given, sink, reports⟩ := runs.keeps
  have awaited := runs.awaited nofun
  rw [inTurn_eq]
  refine ⟨?_, ?_, ?_⟩
  · rw [← ended.slots awaited, slots]
    simp [Schedule.endings]
  · rw [Schedule.prospects, ended.nothing_awaited, List.append_nil] at prospects
    simpa [Schedule.prospects, Schedule.endings, Function.comp_def] using prospects
  · rw [ended.reports awaited, List.append_nil] at reports
    rw [sink]
    exact Diagnostics.reportAll_perm (reports.symm.trans (Schedule.reports_start cells diagnostics))

end DocComment.Batch
