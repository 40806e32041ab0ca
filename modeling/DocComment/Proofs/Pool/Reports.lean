import DocComment.Pool.Schedule
import Mathlib.Algebra.Ring.Nat
import Mathlib.Data.List.Perm.Basic

/-! What reaches the sink: each report adds its counts and one entry of the log, so the order of the
reports shows in the order of the log alone. The reports of a batch are the notices of its tasks and one
error for each task without a result. -/
namespace DocComment

open scoped List

/-- What the sink takes at once. -/
inductive Report where
  | notice (notice : Notice)
  | error (text : String)
  deriving Repr, DecidableEq

namespace Report

/-- The errors that a report counts for, when warnings are errors or not. -/
def errors (strict : Bool) : Report → Nat
  | .notice (.warning _) => if strict then 1 else 0
  | .notice (.remark _) => 0
  | .error _ => 1

def warnings (strict : Bool) : Report → Nat
  | .notice (.warning _) => if strict then 0 else 1
  | .notice (.remark _) | .error _ => 0

def entry (strict : Bool) : Report → LogEntry
  | .notice (.warning text) => if strict then ⟨.error, text⟩ else ⟨.warning, text⟩
  | .notice (.remark text) => ⟨.warning, text⟩
  | .error text => ⟨.error, text⟩

end Report

namespace Diagnostics

variable {left right last diagnostics : Diagnostics}

theorem Agrees.symm (agrees : left.Agrees right) : right.Agrees left :=
  ⟨agrees.errors.symm, agrees.warnings.symm, agrees.warningsAsErrors.symm, agrees.log.symm⟩

theorem Agrees.trans (first : left.Agrees right) (second : right.Agrees last) : left.Agrees last :=
  ⟨first.errors.trans second.errors, first.warnings.trans second.warnings,
    first.warningsAsErrors.trans second.warningsAsErrors, first.log.trans second.log⟩

def report (diagnostics : Diagnostics) : Report → Diagnostics
  | .notice notice => diagnostics.notice notice
  | .error text => diagnostics.error text

def reportAll (reports : List Report) (diagnostics : Diagnostics) : Diagnostics :=
  reports.foldl report diagnostics

theorem reportAll_append (first second : List Report) :
    diagnostics.reportAll (first ++ second) = (diagnostics.reportAll first).reportAll second :=
  List.foldl_append

theorem report_eq (report : Report) : diagnostics.report report =
    { errors := diagnostics.errors + report.errors diagnostics.warningsAsErrors
      warnings := diagnostics.warnings + report.warnings diagnostics.warningsAsErrors
      warningsAsErrors := diagnostics.warningsAsErrors
      log := diagnostics.log ++ [report.entry diagnostics.warningsAsErrors] } := by
  cases report with
  | error text => rfl
  | notice notice =>
    cases notice with
    | remark text => rfl
    | warning text =>
      cases strict : diagnostics.warningsAsErrors <;>
        simp [Diagnostics.report, Diagnostics.notice, warning, error, write, Report.errors,
          Report.warnings, Report.entry, strict]

theorem reportAll_eq (reports : List Report) : diagnostics.reportAll reports =
    { errors := diagnostics.errors + (reports.map (·.errors diagnostics.warningsAsErrors)).sum
      warnings := diagnostics.warnings + (reports.map (·.warnings diagnostics.warningsAsErrors)).sum
      warningsAsErrors := diagnostics.warningsAsErrors
      log := diagnostics.log ++ reports.map (·.entry diagnostics.warningsAsErrors) } := by
  induction reports generalizing diagnostics with
  | nil => simp [reportAll]
  | cons first rest ih =>
    change (diagnostics.report first).reportAll rest = _
    rw [ih, report_eq]
    simp [Nat.add_assoc]

theorem errors_reportAll {reports : List Report} (only : ∀ report ∈ reports, ∃ text, report = .error text)
    (diagnostics : Diagnostics) :
    (diagnostics.reportAll reports).errors = diagnostics.errors + reports.length := by
  have each : reports.map (·.errors diagnostics.warningsAsErrors) = reports.map fun _ => 1 := by
    refine List.map_congr_left fun report member => ?_
    obtain ⟨text, rfl⟩ := only report member
    rfl
  rw [reportAll_eq]
  simp [each]

/-- The sink does not tell in which order the reports came, but for the order of the log. -/
theorem reportAll_perm {first second : List Report} (same : first.Perm second) :
    (diagnostics.reportAll first).Agrees (diagnostics.reportAll second) := by
  rw [reportAll_eq, reportAll_eq]
  refine ⟨?_, ?_, rfl, (same.map _).append_left _⟩
  · exact congrArg (diagnostics.errors + ·) (same.map _).sum_nat
  · exact congrArg (diagnostics.warnings + ·) (same.map _).sum_nat

theorem Agrees.reportAll (agrees : left.Agrees right) (reports : List Report) :
    (left.reportAll reports).Agrees (right.reportAll reports) := by
  rw [reportAll_eq, reportAll_eq, agrees.errors, agrees.warnings, agrees.warningsAsErrors]
  exact ⟨rfl, rfl, rfl, agrees.log.append_right _⟩

theorem noticeAll_eq (notices : List Notice) :
    diagnostics.noticeAll notices = diagnostics.reportAll (notices.map .notice) := by
  rw [reportAll, List.foldl_map]
  rfl

end Diagnostics

namespace Batch

/-- The error that is recorded for a task without a result. -/
def failure? (label : String) : Except JobError α → Option Report
  | .ok _ => none
  | .error error => some (.error (label ++ ": " ++ error.message))

theorem receive_eq (label : String) (diagnostics : Diagnostics) (outcome : Except JobError α) :
    receive label diagnostics outcome =
      (outcome.toOption, diagnostics.reportAll (failure? label outcome).toList) := by
  cases outcome <;> rfl

theorem collectAll_eq (pool : Pool) (diagnostics : Diagnostics) (tasks : List (WorkItem α)) :
    collectAll pool diagnostics tasks =
      (tasks.map fun task => (pool.outcome task.run).toOption,
        diagnostics.reportAll (tasks.filterMap fun task =>
          failure? task.label (pool.outcome task.run))) := by
  induction tasks generalizing diagnostics with
  | nil => rfl
  | cons task rest ih =>
    rw [collectAll, collect, receive_eq]
    dsimp only
    rw [ih, ← Diagnostics.reportAll_append]
    cases found : failure? task.label (pool.outcome task.run) <;> simp [found]

namespace Cell

/-- The task alone, without its slot. -/
def item (cell : Cell σ α) : WorkItem α :=
  ⟨cell.label, (cell.run cell.slot).2⟩

theorem alone_eq (cell : Cell σ α) : cell.alone =
    { label := cell.label
      slot := if cell.pool.fate = .run then (cell.run cell.slot).1 else cell.slot
      outcome := cell.pool.outcome cell.item.run
      notices := if cell.pool.fate = .run then cell.item.run.notices else [] } := by
  unfold alone Pool.outcome item
  cases cell.pool.fate with
  | run =>
    dsimp only
    cases (cell.run cell.slot).2.result <;> rfl
  | dropped | refused => rfl

theorem alone_label (cell : Cell σ α) : cell.alone.label = cell.label := by
  rw [alone_eq]

theorem alone_outcome (cell : Cell σ α) :
    cell.alone.outcome = cell.pool.outcome cell.item.run := by
  rw [alone_eq]

end Cell

/-- All that a task reports, and its error last. -/
def Ending.reports (ending : Ending σ α) : List Report :=
  ending.notices.map .notice ++ (failure? ending.label ending.outcome).toList

theorem inTurn_eq (diagnostics : Diagnostics) (cells : List (Cell σ α)) :
    inTurn diagnostics cells =
      ((cells.map Cell.alone).map (·.slot), (cells.map Cell.alone).map (·.outcome.toOption),
        diagnostics.reportAll ((cells.map Cell.alone).flatMap Ending.reports)) := by
  induction cells generalizing diagnostics with
  | nil => rfl
  | cons cell rest ih =>
    rw [inTurn, receive_eq]
    dsimp only
    rw [ih, Diagnostics.noticeAll_eq, ← Diagnostics.reportAll_append, ← Diagnostics.reportAll_append,
      ← List.append_assoc]
    rfl

/-- What a list holds at all its positions, in any order of these. -/
theorem flatMap_positions {entries : List α} (what : α → List β) {order : List Nat}
    (all : order.Perm (List.range entries.length)) :
    (order.flatMap fun position => (entries[position]?.map what).getD []).Perm
      (entries.flatMap what) := by
  refine (all.flatMap_right _).trans (.of_eq ?_)
  clear all
  induction entries with
  | nil => rfl
  | cons entry rest ih =>
    rw [List.length_cons, List.range_succ_eq_map, List.flatMap_cons, List.flatMap_map]
    exact congrArg (what entry ++ ·) ih

theorem notices_perm {pool : Pool} {cells : List (Cell σ α)} {order : List Nat}
    (uniform : ∀ cell ∈ cells, cell.pool = pool) (all : order.Perm (List.range cells.length)) :
    (notices pool order (cells.map Cell.item)).Perm (cells.flatMap (·.alone.notices)) := by
  have same : cells.flatMap (·.alone.notices) =
      cells.flatMap fun cell => if pool.fate = .run then cell.item.run.notices else [] := by
    refine List.flatMap_congr fun cell member => ?_
    rw [Cell.alone_eq, uniform cell member]
  rw [same]
  unfold notices
  cases pool.fate with
  | run =>
    rw [← List.length_map Cell.item] at all
    refine (flatMap_positions _ all).trans (.of_eq ?_)
    rw [List.flatMap_map]
    rfl
  | dropped | refused => simp

/-- A batch gives the same results in turn as with the tasks run in any order before the first result is
awaited. -/
theorem mapInOrder_agrees {pool : Pool} {cells : List (Cell σ α)} {order : List Nat}
    (uniform : ∀ cell ∈ cells, cell.pool = pool) (all : order.Perm (List.range cells.length))
    (diagnostics : Diagnostics) :
    (mapInOrder pool order diagnostics (cells.map Cell.item)).1 = (inTurn diagnostics cells).2.1 ∧
    (inTurn diagnostics cells).2.2.Agrees
      (mapInOrder pool order diagnostics (cells.map Cell.item)).2 := by
  have outcome {cell : Cell σ α} (member : cell ∈ cells) :
      cell.alone.outcome = pool.outcome cell.item.run := by
    rw [cell.alone_outcome, uniform cell member]
  rw [mapInOrder, collectAll_eq, inTurn_eq, Diagnostics.noticeAll_eq, ← Diagnostics.reportAll_append]
  refine ⟨?_, Diagnostics.reportAll_perm ?_⟩
  · simp only [List.map_map]
    exact List.map_congr_left fun cell member => congrArg Except.toOption (outcome member).symm
  · have errors : (cells.map Cell.item).filterMap
        (fun task => failure? task.label (pool.outcome task.run)) =
        cells.flatMap fun cell => (failure? cell.alone.label cell.alone.outcome).toList := by
      rw [List.filterMap_map, List.filterMap_eq_flatMap_toList]
      refine List.flatMap_congr fun cell member => ?_
      rw [outcome member, cell.alone_label]
      rfl
    rw [errors, List.flatMap_map]
    refine (List.flatMap_append_perm ..).symm.trans (.append_right _ ?_)
    rw [← List.map_flatMap]
    exact (notices_perm uniform all).symm.map _

end Batch

end DocComment
