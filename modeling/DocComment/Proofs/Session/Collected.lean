import DocComment.Proofs.Normalize.Idempotence
import DocComment.Proofs.Session.Preservation

/-! Indexes that comments and documents are collected in, normalized or not, before any pass. Their
identities are exact, and every entity collected is compiled from a comment or read from a document. -/
namespace DocComment

open Index (Exact)

theorem Index.Exact.collect {index : Index} (exact : Exact index) (diagnostics : Diagnostics)
    (entities : List Entity) : Exact (Collect.insertAll index diagnostics entities).1 := by
  induction entities generalizing index diagnostics with
  | nil => exact exact
  | cons entity rest ih =>
    unfold Collect.insertAll
    split
    · rename_i grown inserted
      exact ih (exact.insert inserted) _
    · rename_i refused
      exact ih (Index.insert_refused refused ▸ exact) _

namespace Collect

theorem mem_insertAll {index : Index} {entities : List Entity}
    (member : entity ∈ (insertAll index diagnostics entities).1.entities) :
    entity ∈ index.entities ∨ entity ∈ entities := by
  induction entities generalizing index diagnostics with
  | nil => exact .inl member
  | cons first rest ih =>
    unfold insertAll at member
    split at member
    · rename_i grown inserted
      obtain ⟨_, _, rfl⟩ := Index.insert_eq_ok.mp inserted
      rcases ih member with before | later
      · rcases List.mem_append.mp before with old | new
        · exact .inl old
        · exact .inr (List.mem_singleton.mp new ▸ List.mem_cons_self)
      · exact .inr (List.mem_cons_of_mem _ later)
    · rename_i refused
      obtain rfl := Index.insert_refused refused
      exact (ih member).imp id (List.mem_cons_of_mem _)

/-- What is collected from a source tree is compiled from its comments. -/
theorem mem_sourceInOrder {compiler : Comment.Compiler}
    (member : entity ∈ (sourceInOrder compiler tree pool order diagnostics).1.entities) :
    ∃ item ∈ items tree, compiler.compile tree.lookup? tree item.site item.text = .ok entity := by
  rcases mem_insertAll member with old | compiled
  · cases old
  · obtain ⟨_, present, rfl⟩ := List.mem_filterMap.mp compiled
    obtain ⟨task, listed, result⟩ := Batch.mem_results present
    obtain ⟨item, among, rfl⟩ := List.mem_map.mp listed
    exact ⟨item, among, commentTask_result result⟩

theorem mem_documents {compiler : Comment.Compiler} {index : Index}
    (member : entity ∈ (documents compiler sources pool index diagnostics).1.entities) :
    entity ∈ index.entities ∨ ∃ document ∈ sources,
      entity = compiler.document document.name document.path document.text := by
  refine (mem_insertAll member).imp id fun compiled => ?_
  obtain ⟨_, present, rfl⟩ := List.mem_filterMap.mp compiled
  obtain ⟨task, listed, result⟩ := Batch.mem_results present
  obtain ⟨document, among, rfl⟩ := List.mem_map.mp listed
  cases result
  exact ⟨document, among, rfl⟩

end Collect

/-- Indexes that are built without any pass: comments and documents are read and the index is
normalized, in any order. -/
inductive Collected (source : SourceTree) : Index → Prop where
  | start : Collected source {}
  | comments (table : Comment.CommandTable) (freeFileBinding : Bool) (pool : Pool) (order : List Nat)
      (diagnostics : Diagnostics) :
    Collected source (Collect.sourceInOrder ⟨Markup.read, table, freeFileBinding⟩ source pool order
      diagnostics).1
  | documents (before : Collected source index) (table : Comment.CommandTable) (freeFileBinding : Bool)
      (sources : List DocumentSource) (pool : Pool) (diagnostics : Diagnostics) :
    Collected source (Collect.documents ⟨Markup.read, table, freeFileBinding⟩ sources pool index
      diagnostics).1
  | normalize (before : Collected source index) (diagnostics : Diagnostics) :
    Collected source (Normalize.run source index diagnostics).1

theorem Collected.reached (collected : Collected source index) : Reached source index := by
  induction collected with
  | start => exact .start
  | comments => exact .comments ..
  | documents _ _ _ _ _ _ ih => exact .documents ih ..
  | normalize _ _ ih => exact .normalize ih _

theorem Collected.exact (collected : Collected source index) : Exact index := by
  induction collected with
  | start => exact Index.empty_exact
  | comments => exact Index.empty_exact.collect _ _
  | documents _ _ _ _ _ _ ih => exact ih.collect _ _
  | normalize _ _ ih =>
    obtain ⟨after, normalized, same⟩ := Normalize.run_normalized ih source
    rw [same]
    exact normalized.exact

/-- What is found is no group, since groups are in no group. -/
theorem Index.Exact.single_of_find? {index : Index} (exact : Exact index)
    (flat : ∀ entity ∈ index.entities, entity.Flat) (found : index.find? key = some entity) :
    entity.isGroup = false := by
  rw [exact.find?_eq] at found
  obtain ⟨holder, present, inside⟩ := List.mem_flatMap.mp (List.mem_of_find?_eq_some found)
  cases kind : holder.isGroup with
  | true =>
    rw [Entity.members_of_group kind] at inside
    exact flat holder present kind entity inside
  | false =>
    rw [Entity.members_of_single kind, List.mem_singleton] at inside
    rw [inside, kind]

/-- What has a key and is no group is documentation or a document. -/
theorem Entity.key?_cases {entity : Entity} (single : entity.isGroup = false)
    (found : entity.key? = some key) :
    (∃ id anchor fields children, key = .declaration id ∧
      entity = .node (.declaration id anchor fields) children) ∨
    (∃ name anchor fields children, key = .moduleName name ∧
      entity = .node (.moduleDoc name anchor fields) children) ∨
    ∃ name path anchor children, key = .document path ∧
      entity = .node (.document name path anchor) children := by
  cases entity with
  | leaf => simp [key?] at found
  | node tag children =>
    cases tag with
    | declaration id anchor fields =>
      exact .inl ⟨id, anchor, fields, children, by simpa [key?, eq_comm] using found, rfl⟩
    | moduleDoc name anchor fields =>
      exact .inr (.inl ⟨name, anchor, fields, children, by simpa [key?, eq_comm] using found, rfl⟩)
    | document name path anchor =>
      exact .inr (.inr ⟨name, path, anchor, children, by simpa [key?, eq_comm] using found, rfl⟩)
    | group => cases single
    | _ => simp [key?] at found

theorem Entity.eq_declaration_of_hasKey {entity : Entity} {id : DeclId}
    (single : entity.isGroup = false) (has : entity.hasKey (.declaration id) = true) :
    ∃ anchor fields children, entity = .node (.declaration id anchor fields) children := by
  obtain ⟨own, found, same⟩ := hasKey_iff.mp has
  rcases key?_cases single found with ⟨_, anchor, fields, children, rfl, shape⟩ | ⟨_, _, _, _, rfl, _⟩ |
    ⟨_, _, _, _, rfl, _⟩ <;> cases same
  exact ⟨anchor, fields, children, shape⟩

theorem Entity.eq_module_of_hasKey {entity : Entity} {name : String}
    (single : entity.isGroup = false) (has : entity.hasKey (.moduleName name) = true) :
    ∃ anchor fields children, entity = .node (.moduleDoc name anchor fields) children := by
  obtain ⟨own, found, same⟩ := hasKey_iff.mp has
  rcases key?_cases single found with ⟨_, _, _, _, rfl, _⟩ | ⟨_, anchor, fields, children, rfl, shape⟩ |
    ⟨_, _, _, _, rfl, _⟩ <;> cases same
  exact ⟨anchor, fields, children, shape⟩

end DocComment
