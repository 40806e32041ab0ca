import DocComment.Proofs.Index.Lookup
import DocComment.Proofs.Markup.Tree
import DocComment.Proofs.Pass.Outline

/-! The members of a group through the passes. Exclusion takes out those that it excludes. All other
passes keep the members, whatever they add, fill in, or drop. -/
namespace DocComment

/-- The reader of markup gives markup, as the passes have it. -/
theorem Synthesis.read_markup (source : SourceTree) (formatter : Formatter) : ∀ text,
    ∀ entity ∈ (Synthesis.mk source Markup.read formatter).read text, Entity.IsMarkup entity := by
  dsimp only
  exact Markup.read_markup

namespace Entity

/-- The documentation directly inside an entity, without anchors. -/
def roster (entity : Entity) : List Tag :=
  entity.children.filterMap stub?

theorem isGroup_congr {old new : Entity} (same : new.stub? = old.stub?) :
    new.isGroup = old.isGroup := by
  have named (entity : Entity) : entity.isGroup =
      entity.stub?.any fun tag => (Entity.node tag []).isGroup := by
    cases entity with
    | leaf => rfl
    | node tag _ => cases tag <;> rfl
  rw [named, same, ← named]

theorem fields?_congr {old new : Entity} (same : new.stub? = old.stub?) :
    new.fields? = old.fields? := by
  have named (entity : Entity) : entity.fields? =
      entity.stub?.bind fun tag => (Entity.node tag []).fields? := by
    cases entity with
    | leaf => rfl
    | node tag _ => cases tag <;> rfl
  rw [named, same, ← named]

theorem isGroup_outline (entity : Entity) : entity.outline.isGroup = entity.isGroup :=
  isGroup_congr (stub?_outline entity)

theorem children_outline {entity : Entity} (group : entity.isGroup = true) :
    entity.outline.children = entity.children.map outline := by
  cases entity with
  | leaf => cases group
  | node tag children =>
    cases tag with
    | group => exact outlineAll_false children
    | _ => cases group

/-- Groups of one outline have the same members. -/
theorem roster_congr {old new : Entity} (group : old.isGroup = true)
    (same : new.outline = old.outline) : new.roster = old.roster := by
  have newGroup : new.isGroup = true := by
    rw [← isGroup_outline, same, isGroup_outline, group]
  have children := congrArg Entity.children same
  rw [children_outline group, children_outline newGroup] at children
  have stubs := congrArg (List.filterMap stub?) children
  have forget : stub? ∘ outline = stub? := funext stub?_outline
  rwa [List.filterMap_map, List.filterMap_map, forget] at stubs

theorem stub?_of_partKind? {entity : Entity} (section_ : entity.partKind?.isSome = true) :
    entity.stub? = none := by
  cases entity with
  | leaf => cases section_
  | node tag _ =>
    cases tag with
    | part => rfl
    | _ => cases section_

/-- What has a key and is no group is named by its tag. -/
theorem hasKey_iff_stub {entity : Entity} {key : Key} (single : entity.isGroup = false) :
    entity.hasKey key = true ↔
      ∃ tag, entity.stub? = some tag ∧ (Entity.node tag []).hasKey key = true := by
  have keys (tag : Tag) (named : entity.stub? = some tag) :
      (Entity.node tag []).key? = entity.key? := by
    cases entity with
    | leaf => cases named
    | node own children =>
      cases own with
      | group => cases single
      | _ => simp_all [stub?, Tag.outline] <;> (subst tag; simp [key?])
  constructor
  · intro has
    obtain ⟨own, found, _⟩ := hasKey_iff.mp has
    have named : entity.stub?.isSome = true := by
      cases entity with
      | leaf => simp [key?] at found
      | node tag children => cases tag <;> simp_all [stub?, key?]
    obtain ⟨tag, same⟩ := Option.isSome_iff_exists.mp named
    exact ⟨tag, same, by rwa [hasKey_congr (keys tag same)]⟩
  · rintro ⟨tag, same, has⟩
    rwa [hasKey_congr (keys tag same)] at has

end Entity

namespace Exclusion

variable {source : SourceTree} {options : ExclusionOptions}

/-- Whether a member is excluded depends on its tag without the anchor. -/
theorem excludes_stub {entity : Entity} {tag : Tag} (named : entity.stub? = some tag) :
    excludes source options (.node tag []) = excludes source options entity := by
  cases entity with
  | leaf => cases named
  | node own children =>
    cases own with
    | document | moduleDoc | group | declaration => cases named; rfl
    | _ => cases named

theorem pruneAll_eq (entities : List Entity) : pruneAll source options entities =
    (entities.filter fun entity => !excludes source options entity).map (prune source options) := by
  induction entities with
  | nil => rfl
  | cons entity rest ih =>
    cases excluded : excludes source options entity <;> simp [pruneAll, excluded, ih]

theorem stub?_prune (entity : Entity) : (prune source options entity).stub? = entity.stub? := by
  cases entity <;> rfl

theorem pruneAll_filter (entities : List Entity) :
    pruneAll source options (entities.filter fun entity => !excludes source options entity) =
      pruneAll source options entities := by
  rw [pruneAll_eq, pruneAll_eq, List.filter_filter]
  simp only [Bool.and_self]

theorem apply_group (name id : String) (fields : Fields) (children : List Entity) :
    (apply source options (.node (.group name id fields) children)).children =
      pruneAll source options children := by
  simp only [apply]
  split
  · rename_i none
    rw [← pruneAll_filter, none]
    rfl
  · exact pruneAll_filter children

/-- The members that exclusion leaves in a group. -/
theorem apply_roster {entity : Entity} (group : entity.isGroup = true) :
    (apply source options entity).roster =
      entity.roster.filter fun tag => !excludes source options (.node tag []) := by
  cases entity with
  | leaf => cases group
  | node tag children =>
    cases tag with
    | group name id fields =>
      have forget : Entity.stub? ∘ prune source options = Entity.stub? := funext stub?_prune
      rw [Entity.roster, Entity.roster, apply_group, pruneAll_eq, List.filterMap_map, forget,
        Entity.children, List.filterMap_filter, List.filter_filterMap]
      refine List.filterMap_congr fun child _ => ?_
      cases named : child.stub? with
      | none => simp
      | some tag =>
        rw [← excludes_stub named]
        cases excluded : excludes source options (.node tag []) <;> simp [excluded, Option.filter]
    | _ => cases group

end Exclusion

namespace Headings

variable {synthesis : Synthesis} {templates : HeadingTemplates}

theorem stub?_synthesize (depth : Nat) (entity : Entity) :
    (synthesize synthesis templates depth entity).1.stub? = entity.stub? := by
  cases entity with
  | leaf => rfl
  | node tag children =>
    unfold synthesize
    split <;> rfl

theorem dropParts_stubs (kinds : List SectionKind) (children : List Entity) :
    (Entity.dropParts kinds children).filterMap Entity.stub? = children.filterMap Entity.stub? := by
  induction children generalizing kinds with
  | nil => rfl
  | cons child rest ih =>
    unfold Entity.dropParts
    split
    · rw [List.filterMap_cons, List.filterMap_cons, ih]
    · rename_i section_
      have none : child.stub? = none := Entity.stub?_of_partKind? (by rw [section_]; rfl)
      split
      · rw [ih, List.filterMap_cons, none]
      · rw [List.filterMap_cons, List.filterMap_cons, ih]

theorem synthesizeKept_stubs (depth : Nat) (dropped : List SectionKind) (children : List Entity) :
    (synthesizeKept synthesis templates depth dropped children).1.filterMap Entity.stub? =
      children.filterMap Entity.stub? := by
  induction children generalizing dropped with
  | nil => rfl
  | cons child rest ih =>
    have changed : (if isVisited child then synthesize synthesis templates depth child
        else (child, none)).1.stub? = child.stub? := by
      split
      · exact stub?_synthesize depth child
      · rfl
    unfold synthesizeKept
    split
    · rename_i taken
      have none : child.stub? = none :=
        Entity.stub?_of_partKind? (by cases kind : child.partKind? <;> simp_all)
      rw [ih, List.filterMap_cons, none]
    · generalize (if isVisited child then synthesize synthesis templates depth child
        else (child, none)) = visited at changed ⊢
      obtain ⟨new, fault⟩ := visited
      dsimp only at changed ⊢
      cases fault with
      | some => rw [List.filterMap_cons, List.filterMap_cons, changed, dropParts_stubs]
      | none => rw [List.filterMap_cons, List.filterMap_cons, changed, ih]

/-- Headings are markup, and only sections are dropped. -/
theorem synthesize_roster (markup : ∀ text, ∀ entity ∈ synthesis.read text, Entity.IsMarkup entity)
    (depth : Nat) (entity : Entity) :
    (synthesize synthesis templates depth entity).1.roster = entity.roster := by
  cases entity with
  | leaf => rfl
  | node tag children =>
    unfold synthesize
    split
    · rfl
    · rename_i blocks dropped heading
      have none : blocks.filterMap Entity.stub? = [] := List.filterMap_eq_nil_iff.mpr
        fun block member => (headingOf_markup markup heading block member).stub?_eq_none
      simp only [Entity.roster, Entity.children, List.filterMap_append, none, List.nil_append,
        synthesizeKept_stubs]

end Headings

end DocComment
