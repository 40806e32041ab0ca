import DocComment.Pool.Schedule
import DocComment.Projection
import DocComment.Entity.Index

namespace DocComment

/-- Why a pass stops at an entity. -/
inductive PassFailure where
  /-- The causes, outermost first. -/
  | failed (causes : List String)
  | panicked (message : String)
  deriving Repr, DecidableEq

/-- How the task ends. The pass is the outermost cause of a failure. -/
def PassFailure.ending (passName : String) : PassFailure → TaskEnd Unit
  | .failed causes => .failed ((passName ++ " pass") :: causes)
  | .panicked message => .panicked (.text message)

/-- What a pass leaves of an entity. After a failure it is as far as the pass got. -/
structure PassRun where
  entity : Entity
  failure : Option PassFailure := none
  notices : List Notice := []

structure Pass where
  name : String
  /-- The change of one entity, given the index before the pass. -/
  prepare : Index → Entity → PassRun

namespace Pass

/-- The task for one entity. -/
def task (source : SourceTree) (pass : Pass) (index : Index) (entity : Entity) : WorkItem Unit :=
  let run := pass.prepare index entity
  ⟨entityLabel source entity,
    { ending := match run.failure with
        | none => .returned ()
        | some failure => failure.ending pass.name
      notices := run.notices }⟩

/-- The entities after a pass. A pool that runs no jobs leaves them. -/
def entitiesAfter (pass : Pass) (pool : Pool) (index : Index) : List Entity :=
  match pool.fate with
  | .run => index.entities.map fun entity => (pass.prepare index entity).entity
  | .dropped | .refused => index.entities

/-- Runs a pass over every top-level entity, the tasks in the given order. Order and identities of the
index are kept. Also gives the number of entities that failed. -/
def runInOrder (source : SourceTree) (pass : Pass) (pool : Pool) (order : List Nat) (index : Index)
    (diagnostics : Diagnostics) : Index × Diagnostics × Nat :=
  let (results, after) :=
    Batch.mapInOrder pool order diagnostics (index.entities.map (pass.task source index))
  ({ index with entities := pass.entitiesAfter pool index }, after, Batch.failures results)

def run (source : SourceTree) (pass : Pass) (pool : Pool) (index : Index) (diagnostics : Diagnostics) :
    Index × Diagnostics × Nat :=
  runInOrder source pass pool (List.range index.size) index diagnostics

/-- The tasks with the entities in their slots. -/
def cells (source : SourceTree) (pass : Pass) (index : Index) : List (Batch.Cell Entity Unit) :=
  index.entities.map fun entity =>
    { label := (pass.task source index entity).label
      run := fun entity => ((pass.prepare index entity).entity, (pass.task source index entity).run)
      slot := entity }

/-- What a pass can leave, with the number of entities that failed. The pools are what the tasks find. -/
def RunsTo (source : SourceTree) (pass : Pass) (pools : Nat → Pool) (index : Index)
    (diagnostics : Diagnostics) (left : Index) (after : Diagnostics) (failed : Nat) : Prop :=
  ∃ last, Batch.Completes (Batch.onPools pools (pass.cells source index)) diagnostics last ∧
    { index with entities := last.slots } = left ∧ last.diagnostics = after ∧
    Batch.failures last.results = failed

/-- Runs a pass on one entity after the other. -/
def runInTurn (source : SourceTree) (pass : Pass) (pools : Nat → Pool) (index : Index)
    (diagnostics : Diagnostics) : Index × Diagnostics × Nat :=
  let (slots, results, after) :=
    Batch.inTurn diagnostics (Batch.onPools pools (pass.cells source index))
  ({ index with entities := slots }, after, Batch.failures results)

end Pass

end DocComment
