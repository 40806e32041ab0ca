import DocComment.Pipeline

namespace DocComment

/-- Nothing fails if and only if every task has a result. -/
theorem Batch.failures_eq_zero_iff {pool : Pool} {order : List Nat} {diagnostics : Diagnostics}
    {tasks : List (WorkItem α)} :
    failures (mapInOrder pool order diagnostics tasks).1 = 0 ↔
      ∀ task ∈ tasks, ∃ value, pool.outcome task.run = .ok value := by
  have none (results : List (Option α)) :
      failures results = 0 ↔ ∀ result ∈ results, result.isNone = false := by
    rw [failures, List.length_eq_zero_iff, List.filter_eq_nil_iff]
    simp only [Bool.not_eq_true]
  rw [none]
  unfold mapInOrder
  generalize diagnostics.noticeAll (notices pool order tasks) = current
  clear none
  induction tasks generalizing current with
  | nil => simp [collectAll]
  | cons task rest ih =>
    have own : (collect pool current task).1.isNone = false ↔
        ∃ value, pool.outcome task.run = .ok value := by
      unfold collect
      cases outcome : pool.outcome task.run <;> simp [receive]
    simp only [collectAll, List.forall_mem_cons, own, ih]

namespace Pass

/-- The index that a pass leaves. -/
def after (pass : Pass) (pool : Pool) (index : Index) : Index :=
  { index with entities := pass.entitiesAfter pool index }

/-- Every task of a pass is run and succeeds. -/
def Succeeds (pass : Pass) (pool : Pool) (index : Index) : Prop :=
  ∀ entity ∈ index.entities, pool.fate = .run ∧ (pass.prepare index entity).failure = none

theorem run_failures {source : SourceTree} {pass : Pass} {pool : Pool} {index : Index}
    {diagnostics : Diagnostics} :
    (pass.run source pool index diagnostics).2.2 = 0 ↔ pass.Succeeds pool index := by
  have each (entity : Entity) :
      (∃ value, pool.outcome (pass.task source index entity).run = .ok value) ↔
        pool.fate = .run ∧ (pass.prepare index entity).failure = none := by
    unfold Pool.outcome task TaskRun.result
    dsimp only
    cases pool.fate with
    | run =>
      cases (pass.prepare index entity).failure with
      | none => simp [TaskEnd.captured]
      | some failure => cases failure <;> simp [PassFailure.ending, TaskEnd.captured]
    | dropped => simp
    | refused => simp
  simp only [run, runInOrder, Batch.failures_eq_zero_iff, List.forall_mem_map, each, Succeeds]

/-- A pool without any failure runs the pass on every entity. -/
theorem Succeeds.entities {pass : Pass} {pool : Pool} {index : Index}
    (succeeds : pass.Succeeds pool index) : (pass.after pool index).entities =
      index.entities.map fun entity => (pass.prepare index entity).entity := by
  unfold after entitiesAfter
  dsimp only
  cases none : index.entities with
  | nil => cases pool.fate <;> rfl
  | cons entity rest =>
    obtain ⟨fate, _⟩ := succeeds entity (by rw [none]; exact List.mem_cons_self)
    rw [fate]

end Pass

namespace Pipeline

/-- The index after some passes. -/
def indexAfter (pool : Pool) (index : Index) (passes : List Pass) : Index :=
  passes.foldl (fun index pass => pass.after pool index) index

/-- Every pass succeeds on what the passes before it leave. -/
def AllSucceed (pool : Pool) : Index → List Pass → Prop
  | _, [] => True
  | index, pass :: rest => pass.Succeeds pool index ∧ AllSucceed pool (pass.after pool index) rest

/-- The failures of the first pass count along with those of the others. -/
theorem runAll_cons (source : SourceTree) (pool : Pool) (index : Index) (diagnostics : Diagnostics)
    (pass : Pass) (rest : List Pass) :
    runAll source pool index diagnostics (pass :: rest) =
      let first := pass.run source pool index diagnostics
      let others := runAll source pool first.1 first.2.1 rest
      (others.1, others.2.1, first.2.2 + others.2.2) := by
  let step (state : Index × Diagnostics × Nat) (pass : Pass) : Index × Diagnostics × Nat :=
    let run := pass.run source pool state.1 state.2.1
    (run.1, run.2.1, state.2.2 + run.2.2)
  have counted (passes : List Pass) (index : Index) (diagnostics : Diagnostics) (start : Nat) :
      passes.foldl step (index, diagnostics, start) =
        let run := passes.foldl step (index, diagnostics, 0)
        (run.1, run.2.1, start + run.2.2) := by
    induction passes generalizing index diagnostics start with
    | nil => rfl
    | cons pass rest ih =>
      simp only [List.foldl_cons, step]
      rw [ih, ih _ _ (0 + _)]
      simp only [Nat.zero_add, Nat.add_assoc]
  exact (counted rest _ _ (0 + _)).trans (by rw [Nat.zero_add]; rfl)

theorem runAll_index (source : SourceTree) (pool : Pool) (index : Index) (diagnostics : Diagnostics)
    (passes : List Pass) :
    (runAll source pool index diagnostics passes).1 = indexAfter pool index passes := by
  induction passes generalizing index diagnostics with
  | nil => rfl
  | cons pass rest ih =>
    rw [runAll_cons]
    exact ih _ _

theorem runAll_failures {source : SourceTree} {pool : Pool} {index : Index} {diagnostics : Diagnostics}
    {passes : List Pass} : (runAll source pool index diagnostics passes).2.2 = 0 ↔
      AllSucceed pool index passes := by
  induction passes generalizing index diagnostics with
  | nil => exact ⟨fun _ => trivial, fun _ => rfl⟩
  | cons pass rest ih =>
    rw [runAll_cons]
    dsimp only
    rw [Nat.add_eq_zero_iff, Pass.run_failures, ih]
    rfl

end Pipeline

end DocComment
