import DocComment.Collect
import DocComment.Pass.Basic
import DocComment.Proofs.Pool.Completion

/-! The order in which a pool runs its tasks shows in no result. Passes, comments and documents give the
same as with one task after the other; only the log may have its entries in another order. -/
namespace DocComment

open Batch (Cell)

namespace Pass

variable {source : SourceTree} {pass : Pass} {index : Index}

theorem exists_runsTo (source : SourceTree) (pass : Pass) (pools : Nat → Pool) (index : Index)
    (diagnostics : Diagnostics) :
    ∃ left after failed, pass.RunsTo source pools index diagnostics left after failed := by
  obtain ⟨last, completes⟩ :=
    Batch.exists_completes (Batch.onPools pools (pass.cells source index)) diagnostics
  exact ⟨_, _, _, last, completes, rfl, rfl, rfl⟩

theorem RunsTo.agrees (runs : pass.RunsTo source pools index diagnostics left after failed) :
    left = (pass.runInTurn source pools index diagnostics).1 ∧
    failed = (pass.runInTurn source pools index diagnostics).2.2 ∧
    after.Agrees (pass.runInTurn source pools index diagnostics).2.1 := by
  obtain ⟨last, completes, rfl, rfl, rfl⟩ := runs
  obtain ⟨slots, results, sink⟩ := completes.agrees
  rw [slots, results]
  exact ⟨rfl, rfl, sink⟩

theorem RunsTo.agrees_runInOrder
    (runs : pass.RunsTo source pools index diagnostics left after failed)
    (same : ∀ position, (pools position).fate = pool.fate)
    (all : order.Perm (List.range index.size)) :
    left = (pass.runInOrder source pool order index diagnostics).1 ∧
    failed = (pass.runInOrder source pool order index diagnostics).2.2 ∧
    after.Agrees (pass.runInOrder source pool order index diagnostics).2.1 := by
  obtain ⟨last, completes, rfl, rfl, rfl⟩ := runs
  have items : (pass.cells source index).map Cell.item =
      index.entities.map (pass.task source index) := by
    rw [cells, List.map_map]
    rfl
  have slots : last.slots = pass.entitiesAfter pool index := by
    rw [completes.agrees.1, Batch.inTurn_eq, Batch.onPools_alone same]
    simp only [List.map_map, cells]
    unfold entitiesAfter
    cases fate : pool.fate <;> simp [Function.comp_def, Cell.alone, fate]
  have every : order.Perm (List.range (pass.cells source index).length) := by
    rwa [cells, List.length_map]
  obtain ⟨results, sink⟩ := completes.agrees_mapInOrder same every
  rw [items] at results sink
  rw [slots, results]
  exact ⟨rfl, rfl, sink⟩

end Pass

namespace Collect

variable {compiler : Comment.Compiler} {tree : SourceTree} {pools : Nat → Pool}

/-- The errors of the entities that an index refuses, one by one. -/
def refusals (index : Index) : List Entity → List Report
  | [] => []
  | entity :: rest =>
    match index.insert entity with
    | (grown, none) => refusals grown rest
    | (index, some problem) => .error problem.message :: refusals index rest

theorem insertAll_sink (index : Index) (diagnostics : Diagnostics) (entities : List Entity) :
    (insertAll index diagnostics entities).2 = diagnostics.reportAll (refusals index entities) := by
  induction entities generalizing index diagnostics with
  | nil => rfl
  | cons entity rest ih =>
    unfold insertAll refusals
    rcases index.insert entity with ⟨grown, _ | problem⟩
    · exact ih grown diagnostics
    · exact ih grown (diagnostics.error problem.message)

/-- Which entities are inserted does not depend on the sink. -/
theorem insertAll_index (index : Index) (left right : Diagnostics) (entities : List Entity) :
    (insertAll index left entities).1 = (insertAll index right entities).1 := by
  induction entities generalizing index left right with
  | nil => rfl
  | cons entity rest ih =>
    unfold insertAll
    rcases index.insert entity with ⟨grown, _ | problem⟩
    · exact ih grown left right
    · exact ih grown (left.error problem.message) (right.error problem.message)

theorem insertAll_agrees {left right : Diagnostics} (agrees : left.Agrees right) (index : Index)
    (entities : List Entity) :
    (insertAll index left entities).1 = (insertAll index right entities).1 ∧
    (insertAll index left entities).2.Agrees (insertAll index right entities).2 := by
  refine ⟨insertAll_index index left right entities, ?_⟩
  rw [insertAll_sink, insertAll_sink]
  exact agrees.reportAll _

theorem exists_sourceTo (compiler : Comment.Compiler) (tree : SourceTree) (pools : Nat → Pool)
    (diagnostics : Diagnostics) :
    ∃ index after, SourceTo compiler tree pools diagnostics index after := by
  obtain ⟨compiled, log, maps⟩ :=
    Batch.exists_mapsTo pools diagnostics ((items tree).map (commentTask compiler tree))
  exact ⟨_, _, compiled, log, maps, rfl⟩

theorem exists_documentsTo (compiler : Comment.Compiler) (sources : List DocumentSource)
    (pools : Nat → Pool) (index : Index) (diagnostics : Diagnostics) :
    ∃ grown after, DocumentsTo compiler sources pools index diagnostics grown after := by
  obtain ⟨compiled, log, maps⟩ :=
    Batch.exists_mapsTo pools diagnostics (sources.map (documentTask compiler))
  exact ⟨_, _, compiled, log, maps, rfl⟩

theorem SourceTo.agrees (collected : SourceTo compiler tree pools diagnostics index after)
    (same : ∀ position, (pools position).fate = pool.fate)
    (all : order.Perm (List.range (items tree).length)) :
    index = (sourceInOrder compiler tree pool order diagnostics).1 ∧
    after.Agrees (sourceInOrder compiler tree pool order diagnostics).2 := by
  obtain ⟨compiled, log, maps, inserted⟩ := collected
  rw [← List.length_map (commentTask compiler tree)] at all
  obtain ⟨given, sink⟩ := maps.agrees same all
  have agrees := insertAll_agrees sink {} (compiled.filterMap id)
  rw [inserted, given] at agrees
  exact agrees

theorem DocumentsTo.agrees
    (collected : DocumentsTo compiler sources pools index diagnostics grown after)
    (same : ∀ position, (pools position).fate = pool.fate) :
    grown = (documents compiler sources pool index diagnostics).1 ∧
    after.Agrees (documents compiler sources pool index diagnostics).2 := by
  obtain ⟨compiled, log, maps, inserted⟩ := collected
  obtain ⟨given, sink⟩ := maps.agrees same (.refl _)
  have agrees := insertAll_agrees sink index (compiled.filterMap id)
  rw [inserted, given] at agrees
  exact agrees

end Collect

/-- Scheduling does not show. Whatever each task finds the pool to be, a pass leaves the entities, the
number of failures and the counts that it leaves when it takes one entity after the other, and touches no
identity; a batch gives one result for each task, in their order, and none exactly for those without
one. When all tasks are taken, passes, comments and documents give what they give on the pool that runs
each task at once. Every run comes to its end. -/
theorem scheduling_unseen (source : SourceTree) (compiler : Comment.Compiler) (pools : Nat → Pool)
    (diagnostics : Diagnostics) :
    (∀ (pass : Pass) index,
      (∃ left after failed, pass.RunsTo source pools index diagnostics left after failed) ∧
      ∀ left after failed, pass.RunsTo source pools index diagnostics left after failed →
        left = (pass.runInTurn source pools index diagnostics).1 ∧
        left.positions = index.positions ∧
        failed = (pass.runInTurn source pools index diagnostics).2.2 ∧
        after.Agrees (pass.runInTurn source pools index diagnostics).2.1) ∧
    (∀ tasks : List (WorkItem α),
      (∃ results after, Batch.MapsTo pools diagnostics tasks results after) ∧
      ∀ results after, Batch.MapsTo pools diagnostics tasks results after →
        results.length = tasks.length ∧
        ∀ (position : Nat) task, tasks[position]? = some task →
          results[position]? = some ((pools position).outcome task.run).toOption) ∧
    ((∀ position, (pools position).fate = .run) →
      (∀ (pass : Pass) index left after failed,
        pass.RunsTo source pools index diagnostics left after failed →
        left = (pass.run source .synchronous index diagnostics).1 ∧
        failed = (pass.run source .synchronous index diagnostics).2.2 ∧
        after.Agrees (pass.run source .synchronous index diagnostics).2.1) ∧
      (∃ index after, Collect.SourceTo compiler source pools diagnostics index after) ∧
      (∀ index after, Collect.SourceTo compiler source pools diagnostics index after →
        index = (Collect.source compiler source .synchronous diagnostics).1 ∧
        after.Agrees (Collect.source compiler source .synchronous diagnostics).2) ∧
      ∀ documents index,
        (∃ grown after,
          Collect.DocumentsTo compiler documents pools index diagnostics grown after) ∧
        ∀ grown after, Collect.DocumentsTo compiler documents pools index diagnostics grown after →
          grown = (Collect.documents compiler documents .synchronous index diagnostics).1 ∧
          after.Agrees (Collect.documents compiler documents .synchronous index diagnostics).2) := by
  refine ⟨fun pass index => ⟨pass.exists_runsTo .., fun left after failed runs => ?_⟩,
    fun tasks => ⟨Batch.exists_mapsTo .., fun results after maps => ⟨?_, fun position task found => ?_⟩⟩,
    fun taken => ⟨?_, Collect.exists_sourceTo .., ?_, fun documents index =>
      ⟨Collect.exists_documentsTo .., fun grown after collected => ?_⟩⟩⟩
  · obtain ⟨same, failures, sink⟩ := runs.agrees
    exact ⟨same, same ▸ rfl, failures, sink⟩
  · rw [maps.results_eq, List.length_map, Batch.outcomes, List.length_mapIdx]
  · rw [maps.results_eq, List.getElem?_map, Batch.getElem?_outcomes, found]
    rfl
  · intro pass index left after failed runs
    exact runs.agrees_runInOrder taken (.refl _)
  · intro index after collected
    exact collected.agrees taken (.refl _)
  · exact collected.agrees taken

/-- A function with a comment. -/
def functionTree : SourceTree :=
  ({} : SourceTree).addFile "a.hpp" |>.add 0 .function "f" |>.setComment 1 "One."

/-- Marks text as code, with a warning, and panics at anything else. -/
def markPass : Pass where
  name := "mark"
  prepare _ entity :=
    match entity with
    | .text written => ⟨.code written, none, [.warning written]⟩
    | other => ⟨other, some (.panicked "no text"), []⟩

def markIndex : Index :=
  { entities := [.text "a", .leaf .softBreak] }

def markedIndex : Index :=
  { entities := [.code "a", .leaf .softBreak] }

/-- Two workers: the second task panics before the first one starts. -/
theorem markPass_runsTo : markPass.RunsTo functionTree (fun _ => .threaded 2) markIndex {} markedIndex
    ⟨1, 1, false, [⟨.warning, "a"⟩, ⟨.error, "markup: task panicked: no text"⟩]⟩ 1 := by
  have begun : Batch.Schedule.Runs
      ⟨Batch.onPools (fun _ => .threaded 2) (markPass.cells functionTree markIndex), [], [], {}⟩ _ := .start
  have submitted := (begun.step (.submit rfl)).step (.submit rfl)
  have second := (submitted.step (.work 1 rfl (.start rfl rfl))).step (.work 1 rfl (.finish rfl))
  have first := ((second.step (.work 0 rfl (.start rfl rfl))).step (.work 0 rfl (.report rfl))).step
    (.work 0 rfl (.finish rfl))
  have awaited := (first.step (.await rfl rfl rfl)).step (.await rfl rfl rfl)
  exact ⟨_, ⟨awaited, rfl, rfl⟩, rfl, rfl, rfl⟩

def plainCompiler : Comment.Compiler :=
  ⟨fun _ => [], ⟨[]⟩, false⟩

theorem scheduling_unseen_swapped :
    (∀ position : Nat, ((fun _ => .threaded 2 : Nat → Pool) position).fate = .run) ∧
    markedIndex = (markPass.runInTurn functionTree (fun _ => .threaded 2) markIndex {}).1 ∧
    markedIndex = (markPass.run functionTree .synchronous markIndex {}).1 ∧
    ∃ index after,
      Collect.SourceTo plainCompiler functionTree (fun _ => .threaded 2) {} index after ∧
      index = (Collect.source plainCompiler functionTree .synchronous {}).1 := by
  have taken (position : Nat) : ((fun _ => .threaded 2 : Nat → Pool) position).fate = .run := rfl
  obtain ⟨turns, _, alike⟩ :=
    scheduling_unseen (α := Unit) functionTree plainCompiler (fun _ => .threaded 2) {}
  obtain ⟨passes, ⟨index, after, collected⟩, comments, _⟩ := alike taken
  exact ⟨taken, ((turns _ _).2 _ _ _ markPass_runsTo).1, (passes _ _ _ _ _ markPass_runsTo).1,
    index, after, collected, (comments _ _ collected).1⟩

end DocComment
