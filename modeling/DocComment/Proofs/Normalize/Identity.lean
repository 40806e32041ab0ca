import DocComment.Normalize
import DocComment.Proofs.Comment.Sections
import DocComment.Proofs.Index.Identity

/-! The steps of the normalization keep the identities of an index exact: placeholders are inserted
like any entity, sections have no key, and groups are indexed by a rebuild. -/
namespace DocComment

namespace Entity

theorem firstKey?_eq (children : List Entity) : firstKey? children = children.findSome? key? := by
  induction children with
  | nil => rfl
  | cons child rest ih =>
    rw [firstKey?, List.findSome?_cons, ih]
    cases child.key? <;> rfl

/-- The key of a node depends on its tag and, for a group, on the keys of its children. -/
theorem key?_node_congr (tag : Tag) {first second : List Entity}
    (same : first.filterMap key? = second.filterMap key?) :
    (Entity.node tag first).key? = (Entity.node tag second).key? := by
  have firsts : firstKey? first = firstKey? second := by
    rw [firstKey?_eq, firstKey?_eq, ← List.head?_filterMap, ← List.head?_filterMap, same]
  cases tag <;> simp [key?, firsts]

theorem indexKeys_node_congr (tag : Tag) {first second : List Entity}
    (same : first.filterMap key? = second.filterMap key?) :
    (Entity.node tag first).indexKeys = (Entity.node tag second).indexKeys := by
  cases tag with
  | group => exact same
  | _ => simp only [indexKeys, key?_node_congr _ same]

/-- Another list of children with the same keys changes no key. -/
theorem withChildren_keeps (entity : Entity) {children : List Entity}
    (same : children.filterMap key? = entity.children.filterMap key?) :
    (entity.withChildren children).key? = entity.key? ∧
      Index.Keeps false entity (entity.withChildren children) := by
  cases entity with
  | leaf => exact ⟨rfl, .of_eq rfl rfl⟩
  | node tag present =>
    refine ⟨key?_node_congr tag same, .of_eq ?_ ?_⟩
    · cases tag <;> rfl
    · exact congrArg (List.map Key.normal) (indexKeys_node_congr tag same)

theorem key?_of_partKind? {entity : Entity} (section_ : entity.partKind? = some kind) :
    entity.key? = none := by
  cases entity with
  | leaf => cases section_
  | node tag children =>
    cases tag with
    | part => simp [key?]
    | _ => cases section_

theorem ensurePart_keys (kind : SectionKind) (children : List Entity) :
    (ensurePart kind children).filterMap key? = children.filterMap key? := by
  unfold ensurePart
  split
  · rfl
  · simp [List.filterMap_append, key?]

theorem modifyPart_keys (kind : SectionKind) (change : List Entity → List Entity)
    (children : List Entity) :
    (modifyPart kind change children).filterMap key? = children.filterMap key? := by
  induction children with
  | nil => rfl
  | cons child rest ih =>
    unfold modifyPart
    split
    · rename_i section_
      have kept : (child.withChildren (change child.children)).partKind? = child.partKind? := by
        cases child with
        | leaf => rfl
        | node tag _ => cases tag <;> rfl
      have own := beq_iff_eq.mp section_
      simp only [List.filterMap_cons, key?_of_partKind? own, key?_of_partKind? (kept.trans own)]
    · simp only [List.filterMap_cons, ih]

end Entity

namespace Normalize

open Comment (ensureRequired)
open Entity (key?)
open Index (Exact Keeps)

theorem Keeps.trans {first second third : Entity} (left : Keeps false first second)
    (right : Keeps false second third) : Keeps false first third := by
  refine ⟨right.group.trans left.group, right.fewer.trans left.fewer, ?_⟩
  rcases right.all with special | same
  · exact .inl special
  · rcases left.all with ⟨loses, group⟩ | same'
    · exact .inl ⟨loses, right.group.trans group⟩
    · exact .inr (same.trans same')

theorem addParts_keeps (kind : SectionKind) (missing : List DeclId) (entity : Entity) :
    (addParts kind missing entity).key? = entity.key? ∧
      Keeps false entity (addParts kind missing entity) := by
  unfold addParts
  split
  · exact ⟨rfl, .of_eq rfl rfl⟩
  · have ensured := Entity.withChildren_keeps entity
      (Entity.ensurePart_keys kind entity.children)
    have modified := Entity.withChildren_keeps (entity.ensureSection kind)
      (Entity.modifyPart_keys kind (· ++ missing.map Entity.uncommented) _)
    exact ⟨modified.1.trans ensured.1, Keeps.trans ensured.2 modified.2⟩

theorem addSubParts_keeps (source : SourceTree) (id : DeclId) (entity : Entity) :
    (addSubParts source id entity).1.key? = entity.key? ∧
      Keeps false entity (addSubParts source id entity).1 := by
  have parameters := addParts_keeps .parameters
    (missingParts entity .parameters (source.parameters id)) entity
  have templates := addParts_keeps .requires
    (missingParts (addParts .parameters (missingParts entity .parameters (source.parameters id)) entity)
      .requires (source.templateParameters id))
    (addParts .parameters (missingParts entity .parameters (source.parameters id)) entity)
  exact ⟨templates.1.trans parameters.1, Keeps.trans parameters.2 templates.2⟩

/-- Required sections change no key anywhere in a tree. -/
theorem ensureRequired_keeps (source : SourceTree) (entity : Entity) :
    (ensureRequired source entity).key? = entity.key? ∧
      Keeps false entity (ensureRequired source entity) := by
  induction entity using Entity.treeInduction with
  | leaf => exact ⟨rfl, .of_eq rfl rfl⟩
  | node tag children ih =>
    have mapped : (children.map (ensureRequired source)).filterMap key? = children.filterMap key? := by
      rw [List.filterMap_map]
      exact List.filterMap_congr fun child member => (ih child member).1
    have completed : ∃ inner, ensureRequired source (.node tag children) = .node tag inner ∧
        inner.filterMap key? = children.filterMap key? := by
      cases tag with
      | declaration id anchor fields =>
        obtain ⟨missing, added⟩ :=
          Comment.ensureParts_added (source.requiredSections id) (children.map (ensureRequired source))
        refine ⟨_, Comment.ensureRequired_declaration source id anchor fields children, ?_⟩
        rw [added, List.filterMap_append, mapped]
        simp [Entity.key?]
      | _ =>
        exact ⟨children.map (ensureRequired source),
          by simp [ensureRequired, Comment.ensureRequiredAll_eq_map], mapped⟩
    obtain ⟨inner, same, keys⟩ := completed
    rw [same]
    exact Entity.withChildren_keeps (.node tag children) keys

theorem addMissingSections_keeps (source : SourceTree) (index : Index) :
    List.Forall₂ (Keeps false) index.entities (addMissingSections source index).entities := by
  rw [addMissingSections, Comment.ensureRequiredAll_eq_map]
  exact Entity.forall₂_map fun entity _ => (ensureRequired_keeps source entity).2

/-- What every step keeps holds after all of them, whether one fails or not. -/
theorem countEach_induction {motive : Index → Prop} {step : Index → α → Index × Except IndexError Nat}
    (items : List α) (keeps : ∀ index, ∀ item ∈ items, motive index → motive (step index item).1)
    (count : Nat) (start : motive index) : motive (countEach step count index items).1 := by
  induction items generalizing index count with
  | nil => exact start
  | cons item rest ih =>
    have first := keeps index item List.mem_cons_self start
    unfold countEach
    split
    · rename_i after more result
      rw [result] at first
      exact ih (fun other next member => keeps other next (List.mem_cons_of_mem _ member)) _ first
    · rename_i after problem result
      rw [result] at first
      exact first

/-- The step for a declaration inserts its placeholder at most, and adds parts to its entry. -/
theorem addUncommentedDeclaration_induction {motive : Index → Prop} (source : SourceTree) (id : DeclId)
    (insert : ∀ grown, index.insert (.uncommented id) = (grown, none) → motive grown)
    (modify : ∀ current, motive current → motive (current.modify (.declaration id) fun present =>
      (addSubParts source id present).1))
    (start : motive index) : motive (addUncommentedDeclaration source index id).1 := by
  unfold addUncommentedDeclaration
  by_cases present : index.contains (.declaration id) = true
  · simp only [present, ↓reduceIte]
    cases index.find? (.declaration id) with
    | none => exact start
    | some => exact modify index start
  · simp only [present, Bool.false_eq_true, ↓reduceIte]
    cases result : index.insert (.uncommented id) with
    | mk grown refusal =>
      cases refusal with
      | some => exact Index.insert_refused result ▸ start
      | none =>
        have added := insert grown result
        dsimp only
        cases grown.find? (.declaration id) with
        | none => exact added
        | some => exact modify grown added

theorem addUncommentedModule_induction {motive : Index → Prop} (name : String)
    (insert : ∀ grown, index.insert (.uncommentedModule name) = (grown, none) → motive grown)
    (start : motive index) : motive (addUncommentedModule index name).1 := by
  unfold addUncommentedModule
  split
  · exact start
  · split
    · rename_i grown inserted
      exact insert grown inserted
    · rename_i refused
      exact Index.insert_refused refused ▸ start

theorem addUncommentedEntities_induction {motive : Index → Prop} (source : SourceTree)
    (insert : ∀ index grown id, index.insert (.uncommented id) = (grown, none) → motive index →
      motive grown)
    (modify : ∀ index id, motive index → motive (index.modify (.declaration id) fun present =>
      (addSubParts source id present).1))
    (start : motive index) : motive (addUncommentedEntities source index).1 := by
  refine countEach_induction _ (fun current id _ holds => ?_) 0 start
  exact addUncommentedDeclaration_induction source id
    (fun grown inserted => insert current grown id inserted holds) (fun other => modify other id) holds

theorem addUncommentedModules_induction {motive : Index → Prop}
    (insert : ∀ index grown name, index.insert (.uncommentedModule name) = (grown, none) → motive index →
      motive grown)
    (start : motive index) : motive (addUncommentedModules index).1 := by
  refine countEach_induction _ (fun current name _ holds => ?_) 0 start
  exact addUncommentedModule_induction name
    (fun grown inserted => insert current grown name inserted holds) holds

theorem groupEntities_index (source : SourceTree) (index : Index) :
    (groupEntities source index).1 =
      (Index.rebuild (index.entities.foldl (Grouping.add source) {}).entities).1 := by
  unfold groupEntities
  dsimp only
  split <;> rename_i rebuilt <;> rw [rebuilt]

/-- What may be done to an index. -/
inductive Step where
  | insert (entity : Entity)
  | addUncommentedEntities (source : SourceTree)
  | addUncommentedModules
  | addMissingSections (source : SourceTree)
  | groupEntities (source : SourceTree)

/-- The index after a step, and the error if it fails. -/
def Step.apply (index : Index) : Step → Index × Option IndexError
  | .insert entity => index.insert entity
  | .addUncommentedEntities source =>
    let (after, result) := Normalize.addUncommentedEntities source index
    (after, match result with | .ok _ => none | .error problem => some problem)
  | .addUncommentedModules =>
    let (after, result) := Normalize.addUncommentedModules index
    (after, match result with | .ok _ => none | .error problem => some problem)
  | .addMissingSections source => (Normalize.addMissingSections source index, none)
  | .groupEntities source =>
    let (after, result) := Normalize.groupEntities source index
    (after, match result with | .ok _ => none | .error problem => some problem)

/-- The index after steps of which each runs whether or not those before it failed. -/
def Step.applyAll (index : Index) (steps : List Step) : Index :=
  steps.foldl (fun current step => (step.apply current).1) index

theorem Step.apply_exact (valid : Exact index) (step : Step) : Exact (step.apply index).1 := by
  cases step with
  | insert entity => exact Index.insert_induction (fun _ inserted => valid.insert inserted) valid
  | addUncommentedEntities source =>
    refine addUncommentedEntities_induction source
      (fun _ _ _ inserted before => before.insert inserted) (fun current id before => ?_) valid
    obtain ⟨positions, keeps⟩ := Index.modify_keeps current (.declaration id)
      (fun entity => (addSubParts_keeps source id entity).1)
      (fun entity => (addSubParts_keeps source id entity).2)
    have replaced := before.replace keeps
    rw [← positions] at replaced
    exact replaced
  | addUncommentedModules =>
    exact addUncommentedModules_induction (fun _ _ _ inserted before => before.insert inserted) valid
  | addMissingSections source => exact valid.replace (addMissingSections_keeps source index)
  | groupEntities source =>
    change Exact (Normalize.groupEntities source index).1
    rw [groupEntities_index]
    exact Index.rebuild_exact _

theorem Step.applyAll_exact (valid : Exact index) (steps : List Step) :
    Exact (Step.applyAll index steps) := by
  induction steps generalizing index with
  | nil => exact valid
  | cons step rest ih => exact ih (step.apply_exact valid)

/-- After any run of steps from an empty index its identities are exact. -/
theorem run_exact (steps : List Step) :
    let index := Step.applyAll {} steps
    (∀ key position, (key, position) ∈ index.positions ↔
        ∃ entity, index.entities[position]? = some entity ∧ key ∈ entity.identities) ∧
      (∀ key first second, (key, first) ∈ index.positions → (key, second) ∈ index.positions →
        first = second) ∧
      (∀ key, index.contains key = (index.find? key).isSome) ∧
      (∀ key entity, index.find? key = some entity → entity.hasKey key = true) ∧
      (∀ entity ∈ index.entities, entity.indexKeys ≠ []) ∧
      ∀ entity problem, ((Step.insert entity).apply index).2 = some problem →
        ((Step.insert entity).apply index).1 = index := by
  intro index
  have valid : Exact index := Step.applyAll_exact Index.empty_exact steps
  refine ⟨fun key position => valid.registered_iff, valid.indexed.single, valid.contains_eq,
    fun key entity found => (valid.indexed.find?_eq_some found).1, ?_, ?_⟩
  · intro entity member none
    exact valid.keyed entity member (by rw [Entity.identities, none, List.map_nil])
  · intro entity problem failed
    exact Index.insert_refused (Prod.ext rfl failed)

end Normalize

end DocComment
