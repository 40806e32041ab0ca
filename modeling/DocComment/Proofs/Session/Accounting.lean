import DocComment.Proofs.Session.Collected
import DocComment.Proofs.Session.Schedules

/-! Every comment of a source tree is accounted for: it is the first of its identity and in the index,
or it repeats an identity, or it was not compiled. In the last two cases it is one error. -/
namespace DocComment

namespace Entity

/-- Whether another entity has the identity of this one. -/
def alike (entity other : Entity) : Bool :=
  entity.key?.any fun key => other.hasKey key

/-- The entities with no earlier one of the same identity, and the others. -/
def sift (earlier : List Entity) : List Entity → List Entity × List Entity
  | [] => ([], [])
  | entity :: rest =>
    let (firsts, repeats) := sift (earlier ++ [entity]) rest
    if earlier.any entity.alike then (firsts, entity :: repeats) else (entity :: firsts, repeats)

theorem alike_of_hasKey {entity : Entity} {key : Key} (has : entity.hasKey key = true) :
    entity.alike = (·.hasKey key) := by
  obtain ⟨own, found, same⟩ := hasKey_iff.mp has
  funext other
  rw [alike, found, Option.any_some]
  unfold hasKey Key.same
  rw [same]

theorem sift_sublist (earlier entities : List Entity) :
    (sift earlier entities).1.Sublist entities := by
  induction entities generalizing earlier with
  | nil => exact .refl _
  | cons entity rest ih =>
    have later := ih (earlier ++ [entity])
    unfold sift
    dsimp only
    split
    · exact later.cons entity
    · exact later.cons_cons entity

/-- The first entity of each identity is kept. -/
theorem find?_sift (earlier entities : List Entity) (key : Key) :
    (sift earlier entities).1.find? (·.hasKey key) =
      if earlier.any (·.hasKey key) then none else entities.find? (·.hasKey key) := by
  induction entities generalizing earlier with
  | nil => simp [sift]
  | cons entity rest ih =>
    have later := ih (earlier ++ [entity])
    rw [List.any_append, List.any_cons, List.any_nil, Bool.or_false] at later
    unfold sift
    dsimp only
    by_cases own : entity.hasKey key = true
    · rw [alike_of_hasKey own]
      by_cases again : earlier.any (·.hasKey key) = true
      · simpa [again] using later
      · simp [again, own]
    · rw [Bool.not_eq_true] at own
      rw [own, Bool.or_false] at later
      rw [List.find?_cons, own, ← later]
      split
      · rfl
      · rw [List.find?_cons, own]

end Entity

namespace Collect

open Entity (sift)

/-- The error of an entity whose identity is taken. -/
def repetition? (entity : Entity) : Option Report :=
  entity.key?.map fun key => .error (IndexError.duplicate key).message

/-- Insertion keeps the first entity of each identity, and each other one is an error. -/
theorem insertAll_sift {index : Index} {earlier entities : List Entity} (diagnostics : Diagnostics)
    (single : ∀ entity ∈ entities, entity.isGroup = false ∧ ∃ key, entity.key? = some key)
    (registered : ∀ key, index.contains key = earlier.any (·.hasKey key)) :
    (insertAll index diagnostics entities).1.entities =
      index.entities ++ (sift earlier entities).1 ∧
    refusals index entities = (sift earlier entities).2.filterMap repetition? := by
  induction entities generalizing index earlier diagnostics with
  | nil => simp [insertAll, refusals, sift]
  | cons entity rest ih =>
    obtain ⟨own, key, found⟩ := single entity List.mem_cons_self
    have later := fun other member => single other (List.mem_cons_of_mem _ member)
    have has : entity.hasKey key = true := Entity.hasKey_iff.mpr ⟨key, found, rfl⟩
    have taken : earlier.any entity.alike = index.contains key := by
      rw [Entity.alike_of_hasKey has, registered]
    unfold insertAll refusals sift
    dsimp only
    rw [taken]
    cases repeated : index.contains key with
    | true =>
      have refused : index.insert entity = (index, some (.duplicate key)) := by
        rw [Index.insert_single own found, if_pos repeated]
      have still (other : Key) : index.contains other = (earlier ++ [entity]).any (·.hasKey other) := by
        rw [List.any_append, List.any_cons, List.any_nil, Bool.or_false, registered]
        cases same : entity.hasKey other with
        | false => rw [Bool.or_false]
        | true => rw [Bool.or_true, ← Entity.alike_of_hasKey same, taken, repeated]
      obtain ⟨entities, errors⟩ := ih (diagnostics.error (IndexError.duplicate key).message) later still
      rw [refused]
      refine ⟨entities, ?_⟩
      rw [if_pos rfl, List.filterMap_cons, repetition?, found]
      exact congrArg _ errors
    | false =>
      have inserted : index.insert entity =
          (⟨index.entities ++ [entity], index.positions ++ [(key.normal, index.size)]⟩, none) := by
        rw [Index.insert_single own found, if_neg (Bool.eq_false_iff.mp repeated)]
      have grown (other : Key) :
          Index.contains ⟨index.entities ++ [entity], index.positions ++ [(key.normal, index.size)]⟩
            other = (earlier ++ [entity]).any (·.hasKey other) := by
        rw [Index.contains_insert own inserted, registered, List.any_append, List.any_cons,
          List.any_nil, Bool.or_false]
      obtain ⟨entities, errors⟩ := ih diagnostics later grown
      rw [inserted]
      refine ⟨?_, errors⟩
      rw [entities, List.append_assoc]
      rfl

theorem insertAll_start {entities : List Entity} (diagnostics : Diagnostics)
    (single : ∀ entity ∈ entities, entity.isGroup = false ∧ ∃ key, entity.key? = some key) :
    (insertAll {} diagnostics entities).1.entities = (sift [] entities).1 ∧
    refusals {} entities = (sift [] entities).2.filterMap repetition? := by
  have blank : ∀ key, ({} : Index).contains key = ([] : List Entity).any (·.hasKey key) := fun _ => rfl
  exact insertAll_sift diagnostics single blank

theorem insertAll_find? {entities : List Entity} (diagnostics : Diagnostics)
    (single : ∀ entity ∈ entities, entity.isGroup = false ∧ ∃ key, entity.key? = some key) (key : Key) :
    (insertAll {} diagnostics entities).1.find? key = entities.find? (·.hasKey key) := by
  have exact := Index.empty_exact.collect diagnostics entities
  have alone : ∀ entity ∈ (insertAll {} diagnostics entities).1.entities, entity.isGroup = false := by
    intro entity member
    rcases mem_insertAll member with old | new
    · cases old
    · exact (single entity new).1
  rw [exact.find?_eq, Index.members_of_singles alone, (insertAll_start diagnostics single).1]
  exact Entity.find?_sift [] entities key

/-- Each entity is either inserted or an error. -/
theorem insertAll_total (index : Index) (diagnostics : Diagnostics) (entities : List Entity) :
    (insertAll index diagnostics entities).1.size + (insertAll index diagnostics entities).2.errors =
      index.size + diagnostics.errors + entities.length := by
  induction entities generalizing index diagnostics with
  | nil => rfl
  | cons entity rest ih =>
    unfold insertAll
    split
    · rename_i grown inserted
      have later := ih grown diagnostics
      obtain ⟨_, _, rfl⟩ := Index.insert_eq_ok.mp inserted
      simp only [Index.size, List.length_append, List.length_cons, List.length_nil] at later ⊢
      omega
    · rename_i same problem refused
      obtain rfl := Index.insert_refused refused
      have later := ih same (diagnostics.error problem.message)
      simp only [Diagnostics.error, List.length_cons] at later ⊢
      omega

/-- What comes of the comments of a source tree, in the order of submission: of those at declarations,
in the order of these, then of the free ones. -/
def outcomes (compiler : Comment.Compiler) (tree : SourceTree) (pools : Nat → Pool) :
    List (String × Except JobError Entity) :=
  Batch.outcomes pools ((items tree).map (commentTask compiler tree))

def compiled (compiler : Comment.Compiler) (tree : SourceTree) (pools : Nat → Pool) : List Entity :=
  (outcomes compiler tree pools).filterMap (·.2.toOption)

/-- The errors of comments that are not compiled. -/
def failures (compiler : Comment.Compiler) (tree : SourceTree) (pools : Nat → Pool) : List Report :=
  (outcomes compiler tree pools).filterMap fun task => Batch.failure? task.1 task.2

/-- The number of comments. -/
def comments (tree : SourceTree) : Nat :=
  (tree.ids.filter fun id => (tree.comment? id).isSome).length + tree.freeComments.length

theorem items_length (tree : SourceTree) : (items tree).length = comments tree := by
  simp [items, attachedItems, freeItems, comments, List.length_filterMap_eq_countP,
    List.countP_eq_length_filter]

/-- How an index and a sink account for the comments of a source tree. -/
structure Accounts (compiler : Comment.Compiler) (tree : SourceTree) (pools : Nat → Pool)
    (before : Diagnostics) (index : Index) (after : Diagnostics) : Prop where
  /-- No comment is lost, and none is counted twice. -/
  total : index.size + after.errors = before.errors + comments tree
  entities : index.entities = (sift [] (compiled compiler tree pools)).1
  order : index.entities.Sublist (compiled compiler tree pools)
  /-- The entity of an identity is that of the first comment. -/
  first : ∀ key, index.find? key = (compiled compiler tree pools).find? (·.hasKey key)
  errors : after.Agrees (before.reportAll (failures compiler tree pools ++
    (sift [] (compiled compiler tree pools)).2.filterMap repetition?))

theorem mem_compiled {compiler : Comment.Compiler} (member : entity ∈ compiled compiler tree pools) :
    ∃ item ∈ items tree, compiler.compile tree.lookup? tree item.site item.text = .ok entity := by
  obtain ⟨⟨label, outcome⟩, listed, result⟩ := List.mem_filterMap.mp member
  obtain ⟨position, found⟩ := List.getElem?_of_mem listed
  rw [outcomes, Batch.getElem?_outcomes, List.getElem?_map, Option.map_map] at found
  obtain ⟨item, present, same⟩ := Option.map_eq_some_iff.mp found
  obtain ⟨rfl, rfl⟩ := Prod.mk.inj same
  refine ⟨item, List.mem_of_getElem? present, ?_⟩
  have given : (pools position).outcome (commentTask compiler tree item).run = .ok entity := by
    cases outcome : (pools position).outcome (commentTask compiler tree item).run with
    | ok value =>
      rw [outcome] at result
      exact congrArg Except.ok (Option.some.inj result)
    | error =>
      rw [outcome] at result
      cases result
  exact commentTask_result (Pool.result_of_outcome given)

theorem compiled_keyed {table : Comment.CommandTable} {tree : SourceTree} {pools : Nat → Pool}
    (member : entity ∈ compiled ⟨Markup.read, table, freeFileBinding⟩ tree pools) :
    entity.isGroup = false ∧ ∃ key, entity.key? = some key := by
  obtain ⟨item, _, success⟩ := mem_compiled member
  obtain ⟨binding, left, bound, assembled⟩ := Comment.compile_eq_ok success
  obtain ⟨fields, same⟩ := (Comment.assemble_shape (Comment.bound_markup bound) assembled).root
  rw [same]
  cases binding with
  | declaration id => exact ⟨rfl, _, rfl⟩
  | moduleName name => exact ⟨rfl, _, rfl⟩

theorem failures_errors (compiler : Comment.Compiler) (tree : SourceTree) (pools : Nat → Pool) :
    ∀ report ∈ failures compiler tree pools, ∃ text, report = .error text := by
  intro report member
  obtain ⟨⟨label, outcome⟩, _, failed⟩ := List.mem_filterMap.mp member
  cases outcome with
  | ok => cases failed
  | error error => exact ⟨_, (Option.some.inj failed).symm⟩

theorem outcomes_length (compiler : Comment.Compiler) (tree : SourceTree) (pools : Nat → Pool) :
    (outcomes compiler tree pools).length = comments tree := by
  rw [outcomes, Batch.outcomes, List.length_mapIdx, List.length_map, items_length]

theorem SourceTo.accounts
    (collected : SourceTo ⟨Markup.read, table, freeFileBinding⟩ tree pools before index after) :
    Accounts ⟨Markup.read, table, freeFileBinding⟩ tree pools before index after := by
  obtain ⟨given, log, maps, inserted⟩ := collected
  generalize reader : (⟨Markup.read, table, freeFileBinding⟩ : Comment.Compiler) = compiler at *
  have keyed : ∀ entity ∈ compiled compiler tree pools,
      entity.isGroup = false ∧ ∃ key, entity.key? = some key := by
    subst reader
    exact fun _ => compiled_keyed
  have results : given.filterMap id = compiled compiler tree pools := by
    rw [maps.results_eq, List.filterMap_map]
    rfl
  have failed : log.Agrees (before.reportAll (failures compiler tree pools)) :=
    maps.errors fun task member => by
      obtain ⟨item, _, rfl⟩ := List.mem_map.mp member
      rfl
  rw [results] at inserted
  obtain ⟨rfl, rfl⟩ := Prod.mk.inj inserted.symm
  obtain ⟨entities, repeated⟩ := insertAll_start log keyed
  refine ⟨?_, entities, entities ▸ Entity.sift_sublist _ _, insertAll_find? log keyed, ?_⟩
  · have total := insertAll_total {} log (compiled compiler tree pools)
    have parts := Batch.outcomes_parted (outcomes compiler tree pools)
    have errors := failed.errors.trans
      (Diagnostics.errors_reportAll (failures_errors compiler tree pools) before)
    rw [total, errors, ← outcomes_length compiler tree pools, ← parts]
    simp only [Index.size, compiled, failures, List.length_nil]
    omega
  · rw [insertAll_sink, repeated, Diagnostics.reportAll_append]
    exact failed.reportAll _

/-- Sinks that agree account for the same. -/
theorem Accounts.of_agrees {compiler : Comment.Compiler}
    (accounts : Accounts compiler tree pools before index after) (agrees : after.Agrees other) :
    Accounts compiler tree pools before index other :=
  { accounts with
    total := agrees.errors ▸ accounts.total
    errors := agrees.symm.trans accounts.errors }

/-- Every comment of a source tree is accounted for, whichever tasks the pool takes, in whatever order it
runs them, and even if it takes none: one that is the first of its identity is in the index, at its place
in the order of submission, and each other one is one error. -/
theorem comments_accounted (table : Comment.CommandTable) (freeFileBinding : Bool) (tree : SourceTree)
    (before : Diagnostics) :
    (∀ pools index after,
      SourceTo ⟨Markup.read, table, freeFileBinding⟩ tree pools before index after →
      Accounts ⟨Markup.read, table, freeFileBinding⟩ tree pools before index after) ∧
    ∀ pool : Pool, Accounts ⟨Markup.read, table, freeFileBinding⟩ tree (fun _ => pool) before
      (source ⟨Markup.read, table, freeFileBinding⟩ tree pool before).1
      (source ⟨Markup.read, table, freeFileBinding⟩ tree pool before).2 := by
  refine ⟨fun pools index after collected => collected.accounts, fun pool => ?_⟩
  obtain ⟨index, after, collected⟩ :=
    exists_sourceTo ⟨Markup.read, table, freeFileBinding⟩ tree (fun _ => pool) before
  obtain ⟨same, sink⟩ := collected.agrees (fun _ => rfl) (.refl _)
  rw [source, ← same]
  exact collected.accounts.of_agrees sink

/-- One comment of each sort: of a function; of another one, bound a second time; free, of the first
function again; bound to nothing; and one more. -/
def mixedTree : SourceTree :=
  ({} : SourceTree).addFile "a.hpp"
    |>.add 0 .function "f" |>.setComment 1 "One."
    |>.add 0 .function "g" |>.setComment 2 "\\entity f\nTwo."
    |>.addFreeComment 0 "\\entity f\nAgain."
    |>.addFreeComment 0 "Loose."
    |>.addFreeComment 0 "\\entity g\nLate."

/-- A pool that is shut down before the last comment. -/
def closingPool (position : Nat) : Pool :=
  if position < 4 then .threaded 2 else (Pool.threaded 2).shutDown

theorem comments_accounted_mixed :
    ∃ index after,
      SourceTo ⟨Markup.read, .ofCommands [.special .entity], false⟩ mixedTree closingPool {} index after ∧
      index.size = 1 ∧ after.errors = 4 := by
  obtain ⟨index, after, collected⟩ :=
    exists_sourceTo ⟨Markup.read, .ofCommands [.special .entity], false⟩ mixedTree closingPool {}
  have accounts := (comments_accounted (.ofCommands [.special .entity]) false mixedTree {}).1
    closingPool index after collected
  have kept : (sift [] (compiled ⟨Markup.read, .ofCommands [.special .entity], false⟩ mixedTree
      closingPool)).1.length = 1 := by
    decide +kernel
  have size : index.size = 1 := (congrArg List.length accounts.entities).trans kept
  have total := accounts.total
  have all : comments mixedTree = 5 := by decide
  rw [size, all, Nat.zero_add] at total
  exact ⟨index, after, collected, size, by omega⟩

end Collect

end DocComment
