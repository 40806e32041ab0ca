import DocComment.Proofs.Entity.Outline
import DocComment.Proofs.Pass.Identity

namespace DocComment

open Entity (IsMarkup isPlain_iff outline)

namespace Anchors

theorem applyAll_eq_map (entities : List Entity) : applyAll entities = entities.map apply := by
  induction entities with
  | nil => rfl
  | cons entity rest ih => simp [applyAll, ih]

/-- An anchor is all that changes in a tag. -/
theorem anchored_outline (tag : Tag) (children : List Entity) :
    ∃ tag', anchored (.node tag children) = .node tag' children ∧ tag'.outline = tag.outline := by
  unfold anchored
  split
  · split
    · cases tag <;> exact ⟨_, rfl, rfl⟩
    · exact ⟨tag, rfl, rfl⟩
  · exact ⟨tag, rfl, rfl⟩

theorem apply_outline (entity : Entity) : (apply entity).outline = entity.outline := by
  induction entity using Entity.treeInduction with
  | leaf => rfl
  | node tag children ih =>
    obtain ⟨tag', same, tags⟩ := anchored_outline tag children
    rw [apply, same, applyAll_eq_map, Entity.withChildren]
    exact Entity.outline_node tags (Entity.forall₂_map ih)

end Anchors

namespace Targets

theorem mapUnresolvedAll_eq_map (resolve : String → Option LinkTarget) (entities : List Entity) :
    mapUnresolvedAll resolve entities = entities.map (mapUnresolved resolve) := by
  induction entities with
  | nil => rfl
  | cons entity rest ih => simp [mapUnresolvedAll, ih]

theorem mapUnresolved_outline (resolve : String → Option LinkTarget) (entity : Entity) :
    (mapUnresolved resolve entity).outline = entity.outline := by
  induction entity using Entity.treeInduction with
  | leaf => rfl
  | node tag children ih =>
    have inner : List.Forall₂ (fun old new : Entity => new.outline = old.outline) children
        (children.map (mapUnresolved resolve)) :=
      Entity.forall₂_map ih
    unfold mapUnresolved
    dsimp only
    rw [mapUnresolvedAll_eq_map]
    split
    · exact Entity.outline_node rfl inner
    · exact Entity.outline_node rfl inner

end Targets

namespace LinkText

/-- Texts for links that are markup, whatever the progress is. -/
def GivesMarkup (text : LinkTarget → Progress → Option (List Entity) × Progress) : Prop :=
  ∀ target progress content, (text target progress).1 = some content →
    ∀ entity ∈ content, IsMarkup entity

/-- A link without text that is to be filled. -/
def missing? (progress : Progress) (tag : Tag) (children : List Entity) : Option LinkTarget :=
  match tag, children with
  | .link target _, [] => if progress.failure.isNone then some target else none
  | _, _ => none

variable {text : LinkTarget → Progress → Option (List Entity) × Progress}

/-- What happens to a node: a link without text gets one, or else the children are filled. -/
theorem fill_node (text : LinkTarget → Progress → Option (List Entity) × Progress)
    (progress : Progress) (tag : Tag) (children : List Entity) :
    fill text progress (.node tag children) =
      match missing? progress tag children with
      | some target => (.node tag ((text target progress).1.getD []), (text target progress).2)
      | none => (.node tag (fillAll text progress children).1, (fillAll text progress children).2) := by
  unfold fill missing?
  rfl

theorem missing?_eq_some {progress : Progress} {tag : Tag} {children : List Entity}
    (found : missing? progress tag children = some target) :
    (∃ title, tag = .link target title) ∧ children = [] ∧ progress.failure = none := by
  unfold missing? at found
  split at found
  · split at found
    · rename_i fine
      cases found
      exact ⟨⟨_, rfl⟩, rfl, by simpa using fine⟩
    · cases found
  · cases found

theorem fillAll_forall₂ {related : Entity → Entity → Prop} {children : List Entity}
    (each : ∀ child ∈ children, ∀ progress, related child (fill text progress child).1)
    (progress : Progress) : List.Forall₂ related children (fillAll text progress children).1 := by
  induction children generalizing progress with
  | nil => exact .nil
  | cons child rest ih =>
    exact .cons (each child List.mem_cons_self progress)
      (ih (fun other member => each other (List.mem_cons_of_mem _ member)) _)

theorem fill_outline (gives : GivesMarkup text) (entity : Entity) (progress : Progress) :
    (fill text progress entity).1.outline = entity.outline := by
  induction entity using Entity.treeInduction generalizing progress with
  | leaf => rfl
  | node tag children ih =>
    rw [fill_node]
    split
    · rename_i target found
      obtain ⟨⟨title, rfl⟩, rfl, _⟩ := missing?_eq_some found
      have plain : ∀ entity ∈ (text target progress).1.getD [], entity.isPlain = true := by
        cases given : (text target progress).1 with
        | none => simp
        | some content =>
          exact fun entity member => isPlain_iff.mpr (gives target progress content given entity member)
      simp only [outline, Tag.isLink, Entity.outlineAll_of_plain plain, Entity.outlineAll]
    · exact Entity.outline_node rfl (fillAll_forall₂ ih progress)

theorem fill_markup (gives : GivesMarkup text) {entity : Entity} (markup : IsMarkup entity)
    (progress : Progress) : IsMarkup (fill text progress entity).1 := by
  rw [← isPlain_iff, ← Entity.isPlain_outline, fill_outline gives, Entity.isPlain_outline, isPlain_iff]
  exact markup

theorem inlineContent_markup {blocks : List Entity} (markup : ∀ block ∈ blocks, IsMarkup block) :
    ∀ entity ∈ inlineContent blocks, IsMarkup entity := by
  intro entity member
  obtain ⟨block, present, inside⟩ := List.mem_flatMap.mp member
  have own := markup block present
  split at inside
  · exact own.of_mem_children entity inside
  · exact own.of_mem_children entity inside
  · split at inside
    · rw [List.mem_singleton.mp inside]
      exact .leaf _
    · rw [List.mem_singleton.mp inside]
      exact own

theorem textOf_markup {synthesis : Synthesis}
    (markup : ∀ text, ∀ entity ∈ synthesis.read text, IsMarkup entity) (templates : LinkTemplates)
    (known : Known) : GivesMarkup (textOf synthesis templates known) := by
  intro target progress content given
  unfold textOf at given
  dsimp only at given
  split at given
  · cases given
  · split at given
    · cases given
    · split at given
      · cases given
        exact inlineContent_markup (markup _)
      · cases given

theorem filledText_markup {synthesis : Synthesis}
    (markup : ∀ text, ∀ entity ∈ synthesis.read text, IsMarkup entity) (templates : LinkTemplates)
    (known : Known) (depth : Nat) : GivesMarkup (filledText synthesis templates known depth) := by
  induction depth with
  | zero =>
    intro target progress content given
    cases given
  | succ depth ih =>
    intro target progress content given
    rcases made : textOf synthesis templates known target progress with ⟨_ | plain, after⟩
    · rw [filledText_of_none made] at given
      cases given
    · rw [filledText_of_some made] at given
      cases given
      have own := textOf_markup markup templates known target progress plain (by rw [made])
      intro entity member
      have filled : List.Forall₂ (fun _ new : Entity => IsMarkup new) plain
          (fillAll (filledText synthesis templates known depth) after plain).1 :=
        fillAll_forall₂ (fun child present => fill_markup ih (own child present)) after
      obtain ⟨_, _, holds⟩ := Index.exists_related filled member
      exact holds

theorem apply_outline {synthesis : Synthesis}
    (markup : ∀ text, ∀ entity ∈ synthesis.read text, IsMarkup entity) (templates : LinkTemplates)
    (known : Known) (entity : Entity) :
    (apply synthesis templates known entity).entity.outline = entity.outline := by
  obtain ⟨depth, filled⟩ | same := apply_entity synthesis templates known entity
  · rw [filled]
    exact fill_outline (filledText_markup markup _ _ _) entity {}
  · rw [same]

end LinkText

end DocComment
