import DocComment.Proofs.Normalize.Lookup

namespace DocComment

namespace Comment

theorem ensureParts_of_complete {kinds : List SectionKind} {children : List Entity}
    (complete : ∀ kind ∈ kinds, ∃ child ∈ children, child.partKind? = some kind) :
    ensureParts kinds children = children := by
  induction kinds with
  | nil => rfl
  | cons kind rest ih =>
    have present := findPart?_isSome.mpr (complete kind List.mem_cons_self)
    rw [ensureParts, List.foldl_cons, Entity.ensurePart, if_pos present]
    exact ih fun other member => complete other (List.mem_cons_of_mem _ member)

/-- Required sections are added once. -/
theorem ensureRequired_ensureRequired (source : SourceTree) (entity : Entity) :
    ensureRequired source (ensureRequired source entity) = ensureRequired source entity := by
  induction entity using Entity.treeInduction with
  | leaf => rfl
  | node tag children ih =>
    have again : (children.map (ensureRequired source)).map (ensureRequired source) =
        children.map (ensureRequired source) := by
      rw [List.map_map]
      exact List.map_congr_left ih
    cases tag with
    | declaration id anchor fields =>
      rw [ensureRequired_declaration, ensureRequired_declaration]
      obtain ⟨missing, added⟩ :=
        ensureParts_added (source.requiredSections id) (children.map (ensureRequired source))
      have empty : (missing.map (Entity.part · [])).map (ensureRequired source) =
          missing.map (Entity.part · []) := by
        rw [List.map_map]
        exact List.map_congr_left fun kind _ => ensureRequired_part source kind []
      have fixed : (ensureParts (source.requiredSections id)
          (children.map (ensureRequired source))).map (ensureRequired source) =
          ensureParts (source.requiredSections id) (children.map (ensureRequired source)) := by
        rw [added, List.map_append, again, empty]
      rw [fixed, ensureParts_of_complete (ensureParts_complete _ _)]
    | _ => simpa [ensureRequired, ensureRequiredAll_eq_map] using again

end Comment

namespace Normalize

open Comment (ensureRequired)
open Index (Exact)

variable {source : SourceTree} {index : Index}

theorem countEach_eq_self {step : Index → α → Index × Except IndexError Nat} {items : List α}
    (settled : ∀ item ∈ items, step index item = (index, .ok 0)) (count : Nat) :
    countEach step count index items = (index, .ok count) := by
  induction items with
  | nil => rfl
  | cons item rest ih =>
    rw [countEach, settled item List.mem_cons_self]
    exact ih fun other member => settled other (List.mem_cons_of_mem _ member)

theorem addUncommentedEntities_eq_self (valid : Exact index)
    (complete : ∀ id ∈ ownIds source, ∃ entity, index.find? (.declaration id) = some entity ∧
      Documented source id entity) : addUncommentedEntities source index = (index, .ok 0) := by
  refine countEach_eq_self (fun id member => ?_) 0
  obtain ⟨entity, found, documented⟩ := complete id member
  have present : index.contains (.declaration id) = true := by
    rw [valid.contains_eq, found]
    rfl
  have nothing := addSubParts_of_documented documented
  have unchanged : (index.modify (.declaration id) fun present => (addSubParts source id present).1) =
      index := Index.modify_eq_self found (by rw [nothing])
  simp only [addUncommentedDeclaration, present, ↓reduceIte, found, nothing, unchanged]

theorem addUncommentedModules_eq_self
    (known : ∀ name ∈ Entity.moduleNamesAll index.entities,
      (index.find? (.moduleName name)).isSome = true) :
    addUncommentedModules index = (index, .ok 0) := by
  refine countEach_eq_self (fun name member => ?_) 0
  rw [addUncommentedModule, if_pos (known name (List.mem_eraseDups.mp member))]

theorem addMissingSections_eq_self
    (fixed : ∀ entity ∈ index.entities, ensureRequired source entity = entity) :
    addMissingSections source index = index := by
  rw [addMissingSections, Comment.ensureRequiredAll_eq_map, Entity.map_unchanged fixed]

theorem addAll_of_ungrouped {entities : List Entity} (grouping : Grouping)
    (ungrouped : ∀ entity ∈ entities, groupKey? source entity = none) :
    entities.foldl (Grouping.add source) grouping =
      { grouping with entities := grouping.entities ++ entities } := by
  induction entities generalizing grouping with
  | nil => simp
  | cons entity rest ih =>
    have alone : grouping.add source entity =
        { grouping with entities := grouping.entities ++ [entity] } := by
      rw [Grouping.add, ungrouped entity List.mem_cons_self]
    rw [List.foldl_cons, alone, ih _ fun other member => ungrouped other (List.mem_cons_of_mem _ member)]
    simp

theorem groupEntities_eq_self
    (ungrouped : ∀ entity ∈ index.entities, groupKey? source entity = none)
    (rebuilt : Index.rebuild index.entities = (index, none)) :
    groupEntities source index = (index, .ok 0) := by
  have unchanged := addAll_of_ungrouped {} ungrouped
  simp only [List.nil_append] at unchanged
  simp only [groupEntities, unchanged, rebuilt]

theorem insertAll_entities {entities : List Entity} {after : Index}
    (inserted : Index.insertAll index entities = (after, none)) :
    after.entities = index.entities ++ entities := by
  induction entities generalizing index with
  | nil => obtain ⟨rfl, _⟩ := Prod.mk.inj inserted; simp
  | cons entity rest ih =>
    unfold Index.insertAll at inserted
    split at inserted
    · rename_i grown first
      obtain ⟨_, _, rfl⟩ := Index.insert_eq_ok.mp first
      rw [ih inserted, List.append_assoc]
      rfl
    · cases (Prod.mk.inj inserted).2

/-- The index after grouping is what its entities make. -/
theorem groupEntities_rebuilt {after : Index} {count : Nat}
    (success : groupEntities source index = (after, .ok count)) :
    Index.rebuild after.entities = (after, none) := by
  unfold groupEntities at success
  dsimp only at success
  split at success
  · rename_i rebuilt inserted
    obtain ⟨rfl, _⟩ := Prod.mk.inj success
    rw [insertAll_entities inserted]
    exact inserted
  · cases (Prod.mk.inj success).2

theorem moduleNamesAll_append (before after : List Entity) :
    Entity.moduleNamesAll (before ++ after) =
      Entity.moduleNamesAll before ++ Entity.moduleNamesAll after := by
  induction before with
  | nil => rfl
  | cons entity rest ih =>
    rw [List.cons_append, Entity.moduleNamesAll, Entity.moduleNamesAll, ih, List.append_assoc]

theorem moduleNamesAll_eq_flatMap (entities : List Entity) :
    Entity.moduleNamesAll entities = entities.flatMap Entity.moduleNames := by
  induction entities with
  | nil => rfl
  | cons entity rest ih => rw [Entity.moduleNamesAll, ih, List.flatMap_cons]

theorem Joined.moduleNames {after : Index} (joined : Joined index after) :
    Entity.moduleNamesAll after.entities = Entity.moduleNamesAll index.entities := by
  obtain ⟨names, same⟩ := joined.added
  have none : Entity.moduleNamesAll (names.map Entity.uncommentedModule) = [] := by
    rw [moduleNamesAll_eq_flatMap, List.flatMap_map]
    exact List.flatMap_eq_nil_iff.mpr fun _ _ => rfl
  rw [same, moduleNamesAll_append, none, List.append_nil]

theorem moduleNames_ensureRequired (source : SourceTree) (entity : Entity) :
    (ensureRequired source entity).moduleNames = entity.moduleNames := by
  induction entity using Entity.treeInduction with
  | leaf => rfl
  | node tag children ih =>
    have mapped : Entity.moduleNamesAll (children.map (ensureRequired source)) =
        Entity.moduleNamesAll children := by
      rw [moduleNamesAll_eq_flatMap, moduleNamesAll_eq_flatMap, List.flatMap_map]
      exact List.flatMap_congr ih
    cases tag with
    | declaration id anchor fields =>
      obtain ⟨missing, added⟩ :=
        Comment.ensureParts_added (source.requiredSections id) (children.map (ensureRequired source))
      have empty : Entity.moduleNamesAll (missing.map (Entity.part · [])) = [] := by
        rw [moduleNamesAll_eq_flatMap, List.flatMap_map]
        exact List.flatMap_eq_nil_iff.mpr fun _ _ => rfl
      rw [Comment.ensureRequired_declaration, added, Entity.moduleNames, moduleNamesAll_append, empty,
        List.append_nil, mapped]
      rfl
    | _ =>
      simp only [ensureRequired, Comment.ensureRequiredAll_eq_map, Entity.moduleNames, mapped]
      rfl

/-- Grouping brings no name of a module. -/
theorem grouped_moduleNames (source : SourceTree) (entities : List Entity) :
    ∀ name ∈ Entity.moduleNamesAll (grouped source entities),
      name ∈ Entity.moduleNamesAll entities := by
  have all : ∀ entity ∈ grouped source entities, ∀ name ∈ entity.moduleNames,
      name ∈ Entity.moduleNamesAll entities := by
    have own : ∀ entity ∈ entities, ∀ name ∈ entity.moduleNames,
        name ∈ Entity.moduleNamesAll entities := by
      intro entity member name inside
      rw [moduleNamesAll_eq_flatMap]
      exact List.mem_flatMap.mpr ⟨entity, member, inside⟩
    refine Grouping.addAll_all empty_slots (by simp) entities (fun entity member _ => own entity member)
      (fun entity member key _ name inside => ?_)
      (fun entity member key group _ isGroup before name inside => ?_)
    · simp only [newGroup, Entity.moduleNames, Entity.fields?, Entity.moduleNamesAll] at inside
      exact own entity member name (by simpa using inside)
    · cases group with
      | leaf => cases isGroup
      | node tag children =>
        cases tag with
        | group title anchor fields =>
          simp only [addMember, Entity.moduleNames, Entity.fields?, moduleNamesAll_append,
            Option.bind_some, ← List.append_assoc] at inside before
          rcases List.mem_append.mp inside with old | new
          · exact before name old
          · exact own entity member name (by simpa [Entity.moduleNamesAll] using new)
        | _ => cases isGroup
  intro name member
  rw [moduleNamesAll_eq_flatMap] at member
  obtain ⟨entity, present, inside⟩ := List.mem_flatMap.mp member
  exact all entity present name inside

/-- Members of groups keep their required sections. -/
theorem grouped_fixed (source : SourceTree) {entities : List Entity}
    (fixed : ∀ entity ∈ entities, ensureRequired source entity = entity) :
    ∀ entity ∈ grouped source entities, ensureRequired source entity = entity := by
  refine Grouping.addAll_all empty_slots (by simp) entities (fun entity member _ => fixed entity member)
    (fun entity member key _ => ?_) (fun entity member key group _ isGroup before => ?_)
  · simp [newGroup, ensureRequired, Comment.ensureRequiredAll_eq_map, fixed entity member]
  · cases group with
    | leaf => cases isGroup
    | node tag children =>
      cases tag with
      | group title anchor fields =>
        simp only [ensureRequired, Comment.ensureRequiredAll_eq_map, Entity.node.injEq,
          true_and] at before
        simp [addMember, ensureRequired, Comment.ensureRequiredAll_eq_map, before, fixed entity member]
      | _ => cases isGroup

/-- What normalization makes of an index. -/
structure Normalized (source : SourceTree) (index after : Index) : Prop where
  exact : Exact after
  /-- Every declaration is found, with documentation of its parts. -/
  declarations : ∀ id ∈ ownIds source,
    after.find? (.declaration id) = some (ensureRequired source (completed source index id))
  modules : ∀ name ∈ Entity.moduleNamesAll after.entities,
    (after.find? (.moduleName name)).isSome = true
  sections : ∀ entity ∈ after.entities, ensureRequired source entity = entity
  ungrouped : ∀ entity ∈ after.entities, groupKey? source entity = none
  rebuilt : Index.rebuild after.entities = (after, none)

/-- On an index with exact identities no step fails. -/
theorem run_normalized (valid : Exact index) (source : SourceTree) :
    ∃ after, Normalized source index after ∧
      ∀ diagnostics, run source index diagnostics = (after, diagnostics) := by
  obtain ⟨first, entities, addedEntities, exactFirst, found, _⟩ :=
    addUncommentedEntities_spec valid source
  obtain ⟨second, modules, addedModules, joined, known⟩ := addUncommentedModules_spec exactFirst
  obtain ⟨exactThird, lookups⟩ := addMissingSections_spec joined.exact source
  obtain ⟨last, groups, gathered, exactLast, same, kept⟩ := groupEntities_lookup exactThird source
  have sectioned : (addMissingSections source second).entities =
      second.entities.map (ensureRequired source) := Comment.ensureRequiredAll_eq_map ..
  have fixed : ∀ entity ∈ (addMissingSections source second).entities,
      ensureRequired source entity = entity := by
    rw [sectioned]
    intro entity member
    obtain ⟨original, _, rfl⟩ := List.mem_map.mp member
    exact Comment.ensureRequired_ensureRequired source original
  refine ⟨last, ⟨exactLast, fun id member => ?_, fun name member => ?_, ?_, ?_,
    groupEntities_rebuilt gathered⟩, fun diagnostics => ?_⟩
  · rw [kept, lookups, joined.found _ _ (found id member)]
    rfl
  · rw [same] at member
    have original := grouped_moduleNames source _ name member
    rw [sectioned, moduleNamesAll_eq_flatMap, List.flatMap_map] at original
    simp only [moduleNames_ensureRequired] at original
    rw [← moduleNamesAll_eq_flatMap, joined.moduleNames] at original
    rw [kept, lookups, Option.isSome_map]
    exact known name original
  · rw [same]
    exact grouped_fixed source fixed
  · rw [same]
    exact grouped_ungrouped source _
  · simp only [run, addedEntities, addedModules, gathered, recorded]

/-- What is found for a declaration, or its placeholder, has a key. -/
theorem completed_documented (valid : Exact index) (source : SourceTree) (id : DeclId) :
    Documented source id (completed source index id) := by
  refine addSubParts_documented source id ?_
  cases found : index.find? (.declaration id) with
  | none => rfl
  | some entity =>
    obtain ⟨own, same, _⟩ := Entity.hasKey_iff.mp (valid.indexed.find?_eq_some found).1
    rw [Option.getD_some, same]
    rfl

theorem Normalized.run_eq_self {after : Index} (normalized : Normalized source index after)
    (valid : Exact index) (diagnostics : Diagnostics) :
    run source after diagnostics = (after, diagnostics) := by
  have entities : addUncommentedEntities source after = (after, .ok 0) := by
    refine addUncommentedEntities_eq_self normalized.exact fun id member => ?_
    refine ⟨_, normalized.declarations id member, ?_⟩
    exact (completed_documented valid source id).congr fun kind =>
      documented_ensureRequired source kind _
  have modules := addUncommentedModules_eq_self normalized.modules
  have sections := addMissingSections_eq_self normalized.sections
  have groups := groupEntities_eq_self normalized.ungrouped normalized.rebuilt
  simp only [run, entities, modules, sections, groups, recorded]

/-- A step that succeeds, and that run again changes nothing and counts nothing. -/
def Settles (step : Index → Index × Except IndexError Nat) (index : Index) : Prop :=
  ∃ after count, step index = (after, .ok count) ∧ step after = (after, .ok 0)

theorem addUncommentedEntities_settles (valid : Exact index) (source : SourceTree) :
    Settles (addUncommentedEntities source) index := by
  obtain ⟨after, count, added, exact, found, _⟩ := addUncommentedEntities_spec valid source
  refine ⟨after, count, added, addUncommentedEntities_eq_self exact fun id member => ?_⟩
  exact ⟨_, found id member, completed_documented valid source id⟩

theorem addUncommentedModules_settles (valid : Exact index) :
    Settles addUncommentedModules index := by
  obtain ⟨after, count, added, joined, known⟩ := addUncommentedModules_spec valid
  refine ⟨after, count, added, addUncommentedModules_eq_self fun name member => ?_⟩
  exact known name (joined.moduleNames ▸ member)

theorem addMissingSections_settles (source : SourceTree) (index : Index) :
    addMissingSections source (addMissingSections source index) = addMissingSections source index := by
  refine addMissingSections_eq_self fun entity member => ?_
  rw [addMissingSections, Comment.ensureRequiredAll_eq_map] at member
  obtain ⟨original, _, rfl⟩ := List.mem_map.mp member
  exact Comment.ensureRequired_ensureRequired source original

theorem groupEntities_settles (valid : Exact index) (source : SourceTree) :
    Settles (groupEntities source) index := by
  obtain ⟨after, count, gathered, _, same, _⟩ := groupEntities_lookup valid source
  refine ⟨after, count, gathered, groupEntities_eq_self ?_ (groupEntities_rebuilt gathered)⟩
  rw [same]
  exact grouped_ungrouped source _

/-- After any run of insertions and steps from an empty index, each step and all of them together
succeed, record nothing, and change nothing when they run again. -/
theorem run_idempotent (source : SourceTree) (steps : List Step) :
    let index := Step.applyAll {} steps
    Settles (addUncommentedEntities source) index ∧ Settles addUncommentedModules index ∧
      addMissingSections source (addMissingSections source index) =
        addMissingSections source index ∧
      Settles (groupEntities source) index ∧
      ∃ after, ∀ diagnostics, run source index diagnostics = (after, diagnostics) ∧
        run source after diagnostics = (after, diagnostics) := by
  intro index
  have valid : Exact index := Step.applyAll_exact Index.empty_exact steps
  obtain ⟨after, normalized, first⟩ := run_normalized valid source
  exact ⟨addUncommentedEntities_settles valid source, addUncommentedModules_settles valid,
    addMissingSections_settles source index, groupEntities_settles valid source,
    after, fun diagnostics => ⟨first diagnostics, normalized.run_eq_self valid diagnostics⟩⟩

end Normalize

end DocComment
