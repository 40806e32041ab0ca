import DocComment.Proofs.Session.Collected
import DocComment.Proofs.Source.Tree

/-! Normalization is complete: whichever comments failed to compile or were refused, every declaration
is documented with its parts and its required sections, and every module that is named. -/
namespace DocComment

namespace Entity

theorem sublist_preorderAll (entities : List Entity) : entities.Sublist (preorderAll entities) := by
  induction entities with
  | nil => exact .slnil
  | cons entity rest ih =>
    have head : [entity].Sublist entity.preorder := by
      cases entity <;> simp [preorder]
    exact head.append ih

theorem preorder_sublist {entities : List Entity} (member : entity ∈ entities) :
    entity.preorder.Sublist (preorderAll entities) := by
  rw [preorderAll_eq_flatMap]
  exact List.sublist_flatten_of_mem (List.mem_map.mpr ⟨entity, member, rfl⟩)

theorem findPart?_eq_some {children : List Entity} (found : findPart? kind children = some content) :
    ∃ child ∈ children, child.children = content := by
  induction children with
  | nil => cases found
  | cons child rest ih =>
    unfold findPart? at found
    split at found
    · exact ⟨child, List.mem_cons_self, Option.some.inj found⟩
    · obtain ⟨other, member, same⟩ := ih found
      exact ⟨other, List.mem_cons_of_mem _ member, same⟩

theorem mem_moduleNames {entity : Entity} :
    ∀ node ∈ entity.preorder, node.fields?.bind Fields.moduleName = some name →
      name ∈ entity.moduleNames := by
  induction entity using treeInduction with
  | leaf content =>
    intro node member named
    rw [List.mem_singleton.mp member] at named
    cases named
  | node tag children ih =>
    intro node member named
    rw [moduleNames, Normalize.moduleNamesAll_eq_flatMap, List.mem_append]
    rcases List.mem_cons.mp member with same | below
    · exact .inl (by rw [← same, named]; simp)
    · obtain ⟨child, present, deeper⟩ := mem_preorderAll.mp below
      exact .inr (List.mem_flatMap.mpr ⟨child, present, ih child present node deeper named⟩)

end Entity

namespace Comment

/-- Where nothing has to be added, no declaration in the tree lacks a section. -/
theorem required_of_fixed {entity : Entity} (fixed : ensureRequired source entity = entity) :
    ∀ node ∈ entity.preorder, ∀ id, node.declaration? = some id →
      ∀ kind ∈ source.requiredSections id, (node.section? kind).isSome = true := by
  induction entity using Entity.treeInduction with
  | leaf content =>
    intro node member id declared
    rw [List.mem_singleton.mp member] at declared
    cases declared
  | node tag children ih =>
    have inner : children.map (ensureRequired source) = children ∧ ∀ id,
        (Entity.node tag children).declaration? = some id → ∀ kind ∈ source.requiredSections id,
          ∃ child ∈ children, child.partKind? = some kind := by
      cases tag with
      | declaration id anchor fields =>
        rw [ensureRequired_declaration] at fixed
        have same := (Entity.node.inj fixed).2
        have complete := ensureParts_complete (source.requiredSections id)
          (children.map (ensureRequired source))
        obtain ⟨missing, added⟩ :=
          ensureParts_added (source.requiredSections id) (children.map (ensureRequired source))
        have none : missing = [] := by
          have lengths := congrArg List.length (added.symm.trans same)
          simpa using lengths
        refine ⟨by simpa [none] using added.symm.trans same, ?_⟩
        rintro _ ⟨⟩
        rwa [same] at complete
      | _ =>
        refine ⟨?_, fun id declared => by cases declared⟩
        simpa [ensureRequired, ensureRequiredAll_eq_map] using fixed
    have fixedChildren : ∀ child ∈ children, ensureRequired source child = child :=
      List.map_inj_left.mp (inner.1.trans (List.map_id _).symm)
    intro node member id declared
    rcases List.mem_cons.mp member with same | below
    · subst node
      exact fun kind required => findPart?_isSome.mpr (inner.2 id declared kind required)
    · obtain ⟨child, present, deeper⟩ := Entity.mem_preorderAll.mp below
      exact ih child present (fixedChildren child present) node deeper id declared

end Comment

namespace Normalize

variable {source : SourceTree} {index after : Index}

/-- No declaration is documented twice below an entity. -/
def Once (entity : Entity) : Prop :=
  ((Entity.preorderAll entity.children).filterMap Entity.declaration?).Nodup

theorem documented_sublist (kind : SectionKind) (entity : Entity) :
    (documented kind entity).Sublist
      ((Entity.preorderAll entity.children).filterMap Entity.declaration?) := by
  unfold documented Entity.section?
  cases found : Entity.findPart? kind entity.children with
  | none => exact List.nil_sublist _
  | some content =>
    obtain ⟨child, member, same⟩ := Entity.findPart?_eq_some found
    have inner : content.Sublist child.preorder := by
      rw [← same]
      cases child with
      | leaf => exact List.nil_sublist _
      | node tag children => exact (Entity.sublist_preorderAll children).cons _
    exact (inner.trans (Entity.preorder_sublist member)).filterMap _

theorem Once.documented {entity : Entity} (once : Once entity) (kind : SectionKind) :
    (documented kind entity).Nodup :=
  once.sublist (documented_sublist kind entity)

/-- Placeholders are added for parts without documentation, so that each part has it once. -/
theorem count_documented (arranged : source.Arranged) {entity : Entity} {id : DeclId}
    (keyed : entity.key?.isSome = true) (once : Once entity) :
    (∀ part ∈ source.parameters id,
        (documented .parameters (addSubParts source id entity).1).count part = 1) ∧
      ∀ part ∈ source.templateParameters id,
        (documented .requires (addSubParts source id entity).1).count part = 1 := by
  have complete := addSubParts_documented source id keyed
  have distinct (kind : SectionKind) {parts : List DeclId} (apart : parts.Nodup) :
      (documented kind entity ++ missingParts entity kind parts).Nodup := by
    refine List.nodup_append.mpr ⟨once.documented kind, apart.filter _, fun part present other missing => ?_⟩
    rintro rfl
    exact (mem_missingParts.mp missing).2 present
  cases entity with
  | leaf => simp [Entity.key?] at keyed
  | node tag children =>
    obtain ⟨parameters, templates⟩ := documented_addSubParts source id tag children
    constructor
    · intro part member
      refine List.count_eq_one_of_mem ?_ (complete.parameters part member)
      rw [parameters]
      exact distinct .parameters (arranged.childrenOfKind_nodup id _)
    · intro part member
      refine List.count_eq_one_of_mem ?_ (complete.templateParameters part member)
      rw [templates]
      exact distinct .requires (arranged.childrenOfKind_nodup id _)

/-- What an index has to have for a source tree. -/
structure Covers (source : SourceTree) (index : Index) : Prop where
  /-- Every declaration that is no part of another is found, with each parameter and each template
  parameter documented once in the section for it. -/
  declarations : ∀ id < source.size, (source.kind id).isSubPart = false →
    ∃ entity, index.find? (.declaration id) = some entity ∧ entity.declaration? = some id ∧
      (∀ part ∈ source.parameters id, (documented .parameters entity).count part = 1) ∧
      ∀ part ∈ source.templateParameters id, (documented .requires entity).count part = 1
  /-- Every module that documentation belongs to is found. -/
  modules : ∀ entity ∈ Entity.preorderAll index.entities, ∀ name,
    entity.fields?.bind Fields.moduleName = some name →
      ∃ anchor fields children,
        index.find? (.moduleName name) = some (.node (.moduleDoc name anchor fields) children)
  sections : ∀ entity ∈ Entity.preorderAll index.entities, ∀ id, entity.declaration? = some id →
    ∀ kind ∈ source.requiredSections id, (entity.section? kind).isSome = true
  ungrouped : ∀ entity ∈ index.entities, ∀ id, entity.declaration? = some id →
    entity.fields?.bind Fields.group = none

theorem Normalized.covers (normalized : Normalized source index after) (valid : Index.Exact index)
    (flat : ∀ entity ∈ after.entities, entity.Flat) (arranged : source.Arranged)
    (once : ∀ id entity, index.find? (.declaration id) = some entity → Once entity) :
    Covers source after := by
  have lookup {key : Key} {entity : Entity} (found : after.find? key = some entity) :
      entity.isGroup = false ∧ entity.hasKey key = true :=
    ⟨normalized.exact.single_of_find? flat found, (normalized.exact.indexed.find?_eq_some found).1⟩
  refine ⟨fun id declared own => ?_, fun entity member name named => ?_,
    fun entity member id declared => ?_, fun entity member id declared => ?_⟩
  · have listed : id ∈ ownIds source := by
      simp [ownIds, SourceTree.ids, declared, own]
    have found := normalized.declarations id listed
    obtain ⟨single, has⟩ := lookup found
    obtain ⟨anchor, fields, children, same⟩ := Entity.eq_declaration_of_hasKey single has
    refine ⟨_, found, by rw [same]; rfl, ?_⟩
    simp only [documented_ensureRequired, completed]
    cases present : index.find? (.declaration id) with
    | none => exact count_documented arranged rfl .nil
    | some entity =>
      obtain ⟨key, keyed, _⟩ := Entity.hasKey_iff.mp (valid.indexed.find?_eq_some present).1
      exact count_documented arranged (by simp [keyed]) (once id entity present)
  · obtain ⟨root, present, below⟩ := Entity.mem_preorderAll.mp member
    have mentioned : name ∈ Entity.moduleNamesAll after.entities := by
      rw [moduleNamesAll_eq_flatMap]
      exact List.mem_flatMap.mpr ⟨root, present, Entity.mem_moduleNames entity below named⟩
    obtain ⟨found, same⟩ := Option.isSome_iff_exists.mp (normalized.modules name mentioned)
    obtain ⟨single, has⟩ := lookup same
    obtain ⟨anchor, fields, children, rfl⟩ := Entity.eq_module_of_hasKey single has
    exact ⟨anchor, fields, children, same⟩
  · obtain ⟨root, present, below⟩ := Entity.mem_preorderAll.mp member
    exact Comment.required_of_fixed (normalized.sections root present) entity below id declared
  · have none := normalized.ungrouped entity member
    unfold Entity.declaration? at declared
    split at declared
    · simpa [groupKey?, Entity.fields?] using none
    · cases declared

/-- What comments and documents give is no group, and documents no declaration twice. -/
theorem collected_once {table : Comment.CommandTable} {freeFileBinding : Bool} (member : entity ∈
    (Collect.documents ⟨Markup.read, table, freeFileBinding⟩ documents pool
      (Collect.sourceInOrder ⟨Markup.read, table, freeFileBinding⟩ source pool' order diagnostics).1
      diagnostics').1.entities) :
    entity.isGroup = false ∧ Once entity := by
  rcases Collect.mem_documents member with compiled | ⟨document, _, rfl⟩
  · obtain ⟨item, _, success⟩ := Collect.mem_sourceInOrder compiled
    obtain ⟨_, _, bound, assembled⟩ := Comment.compile_eq_ok success
    have shape := Comment.assemble_shape (Comment.bound_markup bound) assembled
    exact ⟨compile_single success, shape.distinct⟩
  · refine ⟨rfl, ?_⟩
    have none : (Entity.preorderAll (Markup.read document.text)).filterMap Entity.declaration? = [] := by
      refine List.filterMap_eq_nil_iff.mpr fun node below => ?_
      obtain ⟨block, present, inside⟩ := Entity.mem_preorderAll.mp below
      exact ((Markup.read_markup _ block present).of_mem_preorder node inside).declaration?_eq_none
    rw [Once, Comment.Compiler.document, Entity.children, none]
    exact .nil

/-- Normalizing what is collected from comments and documents covers the source tree, whatever the
commands, comments and documents are. -/
theorem collected_covers (edits : List SourceTree.Edit) (table : Comment.CommandTable)
    (freeFileBinding : Bool) (documents : List DocumentSource) (pool pool' : Pool) (order : List Nat)
    (diagnostics diagnostics' diagnostics'' : Diagnostics) :
    let source := SourceTree.ofEdits edits
    let compiler : Comment.Compiler := ⟨Markup.read, table, freeFileBinding⟩
    let comments := (Collect.sourceInOrder compiler source pool order diagnostics).1
    let index := (Collect.documents compiler documents pool' comments diagnostics').1
    Covers source (run source index diagnostics'').1 := by
  intro source compiler comments index
  have collected : Collected source index := .documents (.comments ..) ..
  have sound := (Collected.normalize collected diagnostics'').reached.sound
  obtain ⟨after, normalized, same⟩ := run_normalized collected.exact source
  rw [same] at sound ⊢
  refine normalized.covers collected.exact sound.flat (SourceTree.ofEdits_arranged edits) ?_
  intro id entity found
  rw [collected.exact.find?_eq] at found
  obtain ⟨holder, present, inside⟩ := List.mem_flatMap.mp (List.mem_of_find?_eq_some found)
  obtain ⟨single, once⟩ := collected_once present
  rw [Entity.members_of_single single, List.mem_singleton] at inside
  rwa [inside]

end Normalize

end DocComment
