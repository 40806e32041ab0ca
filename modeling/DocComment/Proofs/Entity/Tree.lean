import DocComment.LinkTable
import DocComment.Normalize
import Mathlib.Data.List.Forall2

/-! Entities as trees: induction over the children, the nodes in preorder, trees of markup alone, which hold
neither sections nor documentation, and trees of one shape, with tags that are related place by place. -/
namespace DocComment

/-- Tags of markup: neither a section nor documentation. -/
def Tag.isMarkup : Tag → Bool
  | .part _ | .document .. | .moduleDoc .. | .group .. | .declaration .. => false
  | _ => true

namespace Entity

/-- Induction over a tree: a node follows from its children. -/
@[elab_as_elim]
theorem treeInduction {motive : Entity → Prop} (leaf : ∀ content, motive (.leaf content))
    (node : ∀ tag children, (∀ child ∈ children, motive child) → motive (.node tag children))
    (entity : Entity) : motive entity := by
  refine Entity.rec (motive_1 := motive) (motive_2 := fun entities => ∀ child ∈ entities, motive child)
    leaf node ?_ ?_ entity
  · intro child member
    cases member
  · intro head rest headHolds restHolds child member
    rcases List.mem_cons.mp member with same | later
    · subst child; exact headHolds
    · exact restHolds child later

@[simp] theorem preorderAll_eq_flatMap (entities : List Entity) :
    preorderAll entities = entities.flatMap preorder := by
  induction entities with
  | nil => rfl
  | cons entity rest ih => simp [preorderAll, ih]

theorem mem_preorderAll {entities : List Entity} {node : Entity} :
    node ∈ preorderAll entities ↔ ∃ entity ∈ entities, node ∈ entity.preorder := by
  rw [preorderAll_eq_flatMap, List.mem_flatMap]

theorem mem_preorder_self (entity : Entity) : entity ∈ entity.preorder := by
  cases entity <;> simp [preorder]

theorem mem_preorder_of_child {tag : Tag} {children : List Entity} {child node : Entity}
    (member : child ∈ children) (below : node ∈ child.preorder) :
    node ∈ (Entity.node tag children).preorder :=
  List.mem_cons_of_mem _ (mem_preorderAll.mpr ⟨child, member, below⟩)

theorem plainTextAll_append (first second : List Entity) :
    plainTextAll (first ++ second) = plainTextAll first ++ plainTextAll second := by
  induction first with
  | nil => exact String.empty_append.symm
  | cons entity rest ih => rw [List.cons_append, plainTextAll, plainTextAll, ih, String.append_assoc]

theorem map_unchanged {change : Entity → Entity} {entities : List Entity}
    (each : ∀ entity ∈ entities, change entity = entity) : entities.map change = entities :=
  (List.map_congr_left each).trans (List.map_id' entities)

theorem forall₂_map {related : Entity → Entity → Prop} {change : Entity → Entity}
    {entities : List Entity} (each : ∀ entity ∈ entities, related entity (change entity)) :
    List.Forall₂ related entities (entities.map change) := by
  rw [List.forall₂_map_right_iff]
  exact List.forall₂_same.mpr each

/-- Markup in the whole tree. -/
inductive IsMarkup : Entity → Prop where
  | leaf (content : Leaf) : IsMarkup (.leaf content)
  | node {tag : Tag} {inner : List Entity} (plain : tag.isMarkup = true)
      (below : ∀ child ∈ inner, IsMarkup child) : IsMarkup (.node tag inner)

namespace IsMarkup

theorem of_mem_children (markup : IsMarkup entity) : ∀ child ∈ entity.children, IsMarkup child := by
  cases markup with
  | leaf => simp [Entity.children]
  | node _ below => exact below

theorem declaration?_eq_none (markup : IsMarkup entity) : entity.declaration? = none := by
  cases markup with
  | leaf => rfl
  | @node tag _ plain _ => cases tag <;> simp_all [Tag.isMarkup, declaration?]

theorem key?_eq_none (markup : IsMarkup entity) : entity.key? = none := by
  cases markup with
  | leaf => simp [key?]
  | @node tag _ plain _ => cases tag <;> simp_all [Tag.isMarkup, key?]

/-- Every node below markup is markup. -/
theorem of_mem_preorder (markup : IsMarkup entity) : ∀ node ∈ entity.preorder, IsMarkup node := by
  induction markup with
  | leaf content => simp [preorder, IsMarkup.leaf]
  | @node tag inner plain below ih =>
    intro node member
    rcases List.mem_cons.mp member with same | deeper
    · subst node; exact .node plain below
    · obtain ⟨child, present, inside⟩ := mem_preorderAll.mp deeper
      exact ih child present node inside

end IsMarkup

end Entity

end DocComment

namespace DocComment.Entity

/-- The same tree but for the tags, which are related. -/
inductive Retagged (related : Tag → Tag → Prop) : Entity → Entity → Prop where
  | leaf (content : Leaf) : Retagged related (.leaf content) (.leaf content)
  | node {old new : Tag} {before after : List Entity} (own : related old new)
      (below : List.Forall₂ (Retagged related) before after) :
      Retagged related (.node old before) (.node new after)

variable {related : Tag → Tag → Prop}

theorem retagged_refl (own : ∀ tag, related tag tag) (entity : Entity) :
    Retagged related entity entity := by
  induction entity using treeInduction with
  | leaf content => exact .leaf content
  | node tag children ih => exact .node (own tag) (List.forall₂_same.mpr ih)

/-- A change that goes through all nodes and replaces tags by related ones. -/
theorem retagged_of_change {change : Entity → Entity} (leaf : ∀ content, change (.leaf content) = .leaf content)
    (node : ∀ tag children, ∃ other, related tag other ∧
      change (.node tag children) = .node other (children.map change)) (entity : Entity) :
    Retagged related entity (change entity) := by
  induction entity using treeInduction with
  | leaf content =>
    rw [leaf]
    exact .leaf content
  | node tag children ih =>
    obtain ⟨other, own, changed⟩ := node tag children
    rw [changed]
    exact .node own (forall₂_map ih)

/-- Elements are related to their images alone. -/
theorem forall₂_iff_map {relation : Entity → Entity → Prop} {change : Entity → Entity} {before after : List Entity}
    (each : ∀ entity ∈ before, ∀ other, relation entity other ↔ other = change entity) :
    List.Forall₂ relation before after ↔ after = before.map change := by
  induction before generalizing after with
  | nil => rw [List.forall₂_nil_left_iff, List.map_nil]
  | cons entity rest ih =>
    obtain ⟨own, others⟩ := List.forall_mem_cons.mp each
    simp only [List.forall₂_cons_left_iff, own, ih others, List.map_cons]
    constructor
    · rintro ⟨_, _, rfl, rfl, rfl⟩
      rfl
    · rintro rfl
      exact ⟨_, _, rfl, rfl, rfl⟩

/-- If tags are related to one tag each, trees are to what the change of all tags makes of them. -/
theorem retagged_iff {change : Entity → Entity} {retag : Tag → Tag}
    (leaf : ∀ content, change (.leaf content) = .leaf content)
    (node : ∀ tag children, change (.node tag children) = .node (retag tag) (children.map change))
    (own : ∀ tag other, related tag other ↔ other = retag tag) (entity other : Entity) :
    Retagged related entity other ↔ other = change entity := by
  induction entity using treeInduction generalizing other with
  | leaf content =>
    rw [leaf]
    constructor
    · rintro ⟨⟩
      rfl
    · rintro rfl
      exact .leaf content
  | node tag children ih =>
    rw [node]
    constructor
    · intro retagged
      cases retagged with
      | node tags below => rw [(own _ _).mp tags, (forall₂_iff_map ih).mp below]
    · rintro rfl
      exact .node ((own _ _).mpr rfl) ((forall₂_iff_map ih).mpr rfl)

/-- Lists are related over a list between them if elements are. -/
theorem forall₂_trans {first second third : List Entity} (chain : ∀ one ∈ first, ∀ two three,
      Retagged related one two → Retagged related two three → Retagged related one three)
    (left : List.Forall₂ (Retagged related) first second)
    (right : List.Forall₂ (Retagged related) second third) :
    List.Forall₂ (Retagged related) first third := by
  induction left generalizing third with
  | nil =>
    cases right
    exact .nil
  | cons own _ ih =>
    cases right with
    | cons next further =>
      refine .cons (chain _ List.mem_cons_self _ _ own next) (ih ?_ further)
      exact fun one member => chain one (List.mem_cons_of_mem _ member)

/-- Trees are related over a tree between them if tags are. -/
theorem Retagged.trans (chain : ∀ {first second third}, related first second → related second third →
      related first third) {first second third : Entity} (one : Retagged related first second)
    (two : Retagged related second third) : Retagged related first third := by
  induction first using treeInduction generalizing second third with
  | leaf =>
    cases one
    exact two
  | node tag children ih =>
    cases one with
    | node own below =>
      cases two with
      | node next further =>
        refine .node (chain own next) (forall₂_trans ?_ below further)
        exact fun child member _ _ left right => ih child member left right

end DocComment.Entity
