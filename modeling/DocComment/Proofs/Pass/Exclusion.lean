import DocComment.Proofs.Pass.Members

/-! What exclusion leaves as it is: documentation that is marked as excluded, and documentation without
anything excluded in it. Exclusion makes everything so, and changes that keep outlines keep it so. -/
namespace DocComment

namespace Entity

/-- The documentation inside an entity, at any depth, in preorder. -/
def inside (entity : Entity) : List Tag :=
  catalogAll entity.children

theorem catalog_eq (entity : Entity) : entity.catalog = entity.stub?.toList ++ entity.inside := by
  cases entity with
  | leaf => rfl
  | node tag children => exact catalog_node tag children

theorem inside_congr {old new : Entity} (same : new.outline = old.outline) :
    new.inside = old.inside := by
  have catalogs : new.catalog = old.catalog := by
    rw [← catalog_outline, same, catalog_outline]
  have stubs : new.stub? = old.stub? := by
    rw [← stub?_outline, same, stub?_outline]
  rw [catalog_eq, catalog_eq, stubs] at catalogs
  exact List.append_cancel_left catalogs

end Entity

namespace Exclusion

variable {source : SourceTree} {options : ExclusionOptions}

theorem excludes_of_unnamed {entity : Entity} (unnamed : entity.stub? = none) :
    excludes source options entity = false := by
  cases entity with
  | leaf => rfl
  | node tag _ =>
    cases tag with
    | document | moduleDoc | group | declaration => cases unnamed
    | _ => rfl

/-- Whether something is excluded depends on its tag without the anchor. -/
theorem excludes_congr {old new : Entity} (same : new.stub? = old.stub?) :
    excludes source options new = excludes source options old := by
  cases named : old.stub? with
  | none => rw [excludes_of_unnamed named, excludes_of_unnamed (same.trans named)]
  | some tag => rw [← excludes_stub named, ← excludes_stub (same.trans named)]

/-- Nothing inside is excluded. -/
def Clear (source : SourceTree) (options : ExclusionOptions) (entity : Entity) : Prop :=
  ∀ tag ∈ entity.inside, excludes source options (.node tag []) = false

/-- An entity whose metadata, if it has any, says that it is excluded. -/
def Marked (entity : Entity) : Prop :=
  ∀ fields, entity.fields? = some fields → fields.excludeMode = .exclude

/-- A top-level entity that exclusion leaves as it is. -/
structure Settled (source : SourceTree) (options : ExclusionOptions) (entity : Entity) : Prop where
  group : entity.isGroup = true →
    Clear source options entity ∧ (entity.children = [] → Marked entity)
  single : entity.isGroup = false →
    if excludes source options entity then Marked entity else Clear source options entity

theorem setExcluded_of_marked {entity : Entity} (marked : Marked entity) :
    setExcluded entity = entity := by
  have same (fields : Fields) (mode : fields.excludeMode = .exclude) :
      { fields with excludeMode := .exclude } = fields := by
    rw [← mode]
  cases entity with
  | leaf => rfl
  | node tag children =>
    cases tag with
    | moduleDoc name anchor fields | group name anchor fields | declaration name anchor fields =>
      simp only [setExcluded, Entity.mapFields, same fields (marked fields rfl)]
    | _ => rfl

theorem setExcluded_marked (entity : Entity) : Marked (setExcluded entity) := by
  intro fields found
  cases entity with
  | leaf => cases found
  | node tag children =>
    cases tag with
    | moduleDoc | group | declaration => cases found; rfl
    | _ => cases found

theorem setExcluded_isGroup (entity : Entity) : (setExcluded entity).isGroup = entity.isGroup := by
  cases entity with
  | leaf => rfl
  | node tag _ => cases tag <;> rfl

theorem clear_node {tag : Tag} {children : List Entity} :
    Clear source options (.node tag children) ↔
      ∀ child ∈ children, excludes source options child = false ∧ Clear source options child := by
  have own (child : Entity) : (∀ tag ∈ child.stub?.toList, excludes source options (.node tag []) = false) ↔
      excludes source options child = false := by
    cases named : child.stub? with
    | none => simp [excludes_of_unnamed named]
    | some tag => simp [excludes_stub named]
  have all (child : Entity) : (∀ tag ∈ child.catalog, excludes source options (.node tag []) = false) ↔
      excludes source options child = false ∧ Clear source options child := by
    rw [Entity.catalog_eq, List.forall_mem_append, own, Clear]
  rw [Clear, Entity.inside, Entity.children, Entity.catalogAll_eq_flatMap, List.forall_mem_flatMap]
  exact forall₂_congr fun child _ => all child

theorem filter_of_clear {tag : Tag} {children : List Entity}
    (clear : Clear source options (.node tag children)) :
    (children.filter fun child => !excludes source options child) = children :=
  List.filter_eq_self.mpr fun child member => by simp [(clear_node.mp clear child member).1]

theorem prune_of_clear {entity : Entity} (clear : Clear source options entity) :
    prune source options entity = entity := by
  induction entity using Entity.treeInduction with
  | leaf => rfl
  | node tag children ih =>
    rw [prune, pruneAll_eq, filter_of_clear clear]
    have inner := Entity.map_unchanged fun child member =>
      ih child member (clear_node.mp clear child member).2
    rw [inner]

/-- Any entity but a group is excluded as a whole or pruned. -/
theorem apply_single {entity : Entity} (single : entity.isGroup = false) :
    apply source options entity =
      if excludes source options entity then setExcluded entity else prune source options entity := by
  cases entity with
  | leaf => rfl
  | node tag _ =>
    cases tag with
    | group => cases single
    | _ => rfl

/-- What is settled stays as it is. -/
theorem apply_of_settled {entity : Entity} (settled : Settled source options entity) :
    apply source options entity = entity := by
  cases kind : entity.isGroup with
  | true =>
    obtain ⟨clear, empty⟩ := settled.group kind
    cases entity with
    | leaf => cases kind
    | node tag children =>
      cases tag with
      | group name anchor fields =>
        simp only [apply, filter_of_clear clear]
        cases children with
        | nil => exact setExcluded_of_marked (empty rfl)
        | cons => exact prune_of_clear clear
      | _ => cases kind
  | false =>
    have own := settled.single kind
    rw [apply_single kind]
    split
    · rename_i excluded
      rw [if_pos excluded] at own
      exact setExcluded_of_marked own
    · rename_i kept
      rw [if_neg kept] at own
      exact prune_of_clear own

/-- Nothing is left inside that is excluded. -/
theorem prune_clear (entity : Entity) : Clear source options (prune source options entity) := by
  induction entity using Entity.treeInduction with
  | leaf => simp [prune, Clear, Entity.inside, Entity.children, Entity.catalogAll]
  | node tag children ih =>
    rw [prune, pruneAll_eq, clear_node]
    intro child member
    obtain ⟨old, kept, rfl⟩ := List.mem_map.mp member
    obtain ⟨present, included⟩ := List.mem_filter.mp kept
    exact ⟨by rw [excludes_congr (stub?_prune old)]; simpa using included, ih old present⟩

theorem excludes_setExcluded {entity : Entity} (excluded : excludes source options entity = true) :
    excludes source options (setExcluded entity) = true := by
  cases entity with
  | leaf => cases excluded
  | node tag _ =>
    cases tag with
    | moduleDoc | group | declaration => rfl
    | _ => cases excluded

theorem apply_isGroup (entity : Entity) :
    (apply source options entity).isGroup = entity.isGroup := by
  cases kind : entity.isGroup with
  | true =>
    cases entity with
    | leaf => cases kind
    | node tag children =>
      cases tag with
      | group => simp only [apply]; split <;> rfl
      | _ => cases kind
  | false =>
    rw [apply_single kind]
    split
    · rw [setExcluded_isGroup, kind]
    · cases entity with
      | leaf => rfl
      | node tag children =>
        rw [prune]
        cases tag with
        | group => cases kind
        | _ => rfl

theorem apply_settled (entity : Entity) : Settled source options (apply source options entity) := by
  refine ⟨fun group => ?_, fun single => ?_⟩
  · rw [apply_isGroup] at group
    cases entity with
    | leaf => cases group
    | node tag children =>
      cases tag with
      | group name anchor fields =>
        simp only [apply]
        split
        · exact ⟨by simp [setExcluded, Entity.mapFields, clear_node], fun _ => setExcluded_marked _⟩
        · rename_i nonempty
          refine ⟨prune_clear _, fun none => absurd ?_ nonempty⟩
          rw [prune, Entity.children, pruneAll_filter, pruneAll_eq] at none
          exact List.map_eq_nil_iff.mp none
      | _ => cases group
  · rw [apply_isGroup] at single
    rw [apply_single single]
    split
    · rename_i excluded
      rw [if_pos (excludes_setExcluded excluded)]
      exact setExcluded_marked entity
    · rename_i kept
      rw [if_neg]
      · exact prune_clear entity
      · rwa [excludes_congr (stub?_prune entity)]

/-- What keeps the tag and empties no group, and excludes nothing inside, keeps what is settled. -/
theorem Settled.of_stub {old new : Entity} (settled : Settled source options old)
    (same : new.stub? = old.stub?) (clear : Clear source options old → Clear source options new)
    (empty : old.isGroup = true → new.children = [] → old.children = []) :
    Settled source options new := by
  have kind := Entity.isGroup_congr same
  have fields := Entity.fields?_congr same
  refine ⟨fun group => ?_, fun single => ?_⟩
  · rw [kind] at group
    obtain ⟨inside, marked⟩ := settled.group group
    refine ⟨clear inside, fun none => ?_⟩
    rw [Marked, fields]
    exact marked (empty group none)
  · have own := settled.single (kind ▸ single)
    rw [excludes_congr same]
    split
    · rename_i excluded
      rw [if_pos excluded] at own
      rwa [Marked, fields]
    · rename_i kept
      rw [if_neg kept] at own
      exact clear own

/-- Outlines tell what is settled. -/
theorem Settled.congr {old new : Entity} (settled : Settled source options old)
    (same : new.outline = old.outline) : Settled source options new := by
  have stubs : new.stub? = old.stub? := by
    rw [← Entity.stub?_outline, same, Entity.stub?_outline]
  refine settled.of_stub stubs (fun clear => by rwa [Clear, Entity.inside_congr same]) ?_
  intro group none
  have children := congrArg Entity.children same
  have groupNew : new.isGroup = true := (Entity.isGroup_congr stubs).trans group
  rw [Entity.children_outline groupNew, Entity.children_outline group, none] at children
  exact List.map_eq_nil_iff.mp children.symm

end Exclusion

end DocComment
