import DocComment.Proofs.Pass.Headings
import DocComment.Proofs.Pass.Links

/-! When anchors stay as they are. An anchor is made from the text of a heading, which resolving links
leaves as it is. Filling the text of links leaves it where no link in the heading is without. -/
namespace DocComment

open Entity (IsMarkup)
open Headings (startsWithHeading)

namespace Entity

theorem plainTextAll_congr {old new : List Entity}
    (same : List.Forall₂ (fun old new : Entity => new.plainText = old.plainText) old new) :
    plainTextAll new = plainTextAll old := by
  induction same with
  | nil => rfl
  | cons own _ ih => rw [plainTextAll, plainTextAll, own, ih]

end Entity

namespace Anchors

theorem headingText?_cons (entity : Entity) (rest : List Entity) :
    headingText? (entity :: rest) =
      if startsWithHeading [entity] then some entity.plainText else none := by
  cases entity with
  | leaf => rfl
  | node tag children => cases tag <;> rfl

/-- An entity that has an anchor or whose heading gives none. -/
def Kept (entity : Entity) : Prop :=
  entity.anchor? = some "" →
    ∀ text, headingText? entity.children = some text → Text.slug text = ""

theorem anchored_of_kept {entity : Entity} (kept : Kept entity) : anchored entity = entity := by
  unfold anchored
  split
  · rename_i missing
    have none : entity.anchor? = some "" := by simpa using missing
    split
    · rename_i text heading
      rw [kept none text heading]
      cases entity with
      | leaf => rfl
      | node tag children =>
        cases tag with
        | document | moduleDoc | group | declaration =>
          obtain rfl := Option.some.inj none
          rfl
        | _ => rfl
    · rfl
  · rfl

theorem kept_congr {tag : Tag} {children children' : List Entity}
    (same : headingText? children' = headingText? children) (kept : Kept (.node tag children)) :
    Kept (.node tag children') := by
  have anchor : (Entity.node tag children').anchor? = (Entity.node tag children).anchor? := by
    cases tag <;> rfl
  unfold Kept Entity.children at kept ⊢
  rwa [anchor, same]

theorem anchored_kept (entity : Entity) : Kept (anchored entity) := by
  have anchor (id : String) : (entity.setAnchor id).anchor? = entity.anchor?.map fun _ => id := by
    cases entity with
    | leaf => rfl
    | node tag _ => cases tag <;> rfl
  have children (id : String) : (entity.setAnchor id).children = entity.children := by
    cases entity with
    | leaf => rfl
    | node tag _ => cases tag <;> rfl
  unfold anchored
  split
  · rename_i missing
    have none : entity.anchor? = some "" := by simpa using missing
    split
    · rename_i text heading
      intro empty other found
      rw [children, heading] at found
      obtain rfl := Option.some.inj found
      rw [anchor, none] at empty
      exact Option.some.inj empty
    · rename_i without
      intro _ text found
      rw [without] at found
      cases found
  · rename_i present
    intro none
    simp [none] at present

theorem apply_node_eq_self {tag : Tag} {children : List Entity} (kept : Kept (.node tag children))
    (below : ∀ child ∈ children, apply child = child) :
    apply (.node tag children) = .node tag children := by
  rw [apply, anchored_of_kept kept, applyAll_eq_map, Entity.map_unchanged below, Entity.withChildren]

theorem kept_of_apply {tag : Tag} {children : List Entity}
    (same : apply (.node tag children) = .node tag children) :
    Kept (.node tag children) ∧ ∀ child ∈ children, apply child = child := by
  obtain ⟨tag', own, _⟩ := anchored_outline tag children
  have kept := anchored_kept (.node tag children)
  rw [apply, own, applyAll_eq_map, Entity.withChildren] at same
  obtain ⟨rfl, inner⟩ := Entity.node.inj same
  rw [own] at kept
  exact ⟨kept, List.map_inj_left.mp (inner.trans (List.map_id children).symm)⟩

theorem apply_eq_self_iff {entity : Entity} :
    apply entity = entity ↔ ∀ node ∈ entity.preorder, Kept node := by
  induction entity using Entity.treeInduction with
  | leaf content =>
    refine ⟨fun _ node member => ?_, fun _ => rfl⟩
    rw [List.mem_singleton.mp member]
    nofun
  | node tag children ih =>
    constructor
    · intro same node member
      obtain ⟨kept, below⟩ := kept_of_apply same
      rcases List.mem_cons.mp member with rfl | inside
      · exact kept
      · obtain ⟨child, present, deeper⟩ := Entity.mem_preorderAll.mp inside
        exact (ih child present).mp (below child present) node deeper
    · intro kept
      refine apply_node_eq_self (kept _ (Entity.mem_preorder_self _)) fun child present => ?_
      exact (ih child present).mpr fun node deeper =>
        kept node (Entity.mem_preorder_of_child present deeper)

/-- Changes that keep the text of the children keep the text of a heading. -/
theorem headingText?_map {change : Entity → Entity} {children : List Entity}
    (outline : ∀ child ∈ children, (change child).outline = child.outline)
    (text : ∀ child ∈ children, (change child).plainText = child.plainText) :
    headingText? (children.map change) = headingText? children := by
  cases children with
  | nil => rfl
  | cons child rest =>
    rw [List.map_cons, headingText?_cons, headingText?_cons, ← Headings.startsWithHeading_outline,
      outline child List.mem_cons_self, Headings.startsWithHeading_outline,
      text child List.mem_cons_self]

theorem apply_plainText (entity : Entity) : (apply entity).plainText = entity.plainText := by
  induction entity using Entity.treeInduction with
  | leaf => rfl
  | node tag children ih =>
    obtain ⟨tag', own, _⟩ := anchored_outline tag children
    rw [apply, own, applyAll_eq_map, Entity.withChildren, Entity.plainText, Entity.plainText]
    exact Entity.plainTextAll_congr (Entity.forall₂_map ih)

/-- Anchors that were just made stay. -/
theorem apply_apply (entity : Entity) : apply (apply entity) = apply entity := by
  induction entity using Entity.treeInduction with
  | leaf => rfl
  | node tag children ih =>
    obtain ⟨tag', own, _⟩ := anchored_outline tag children
    have kept := anchored_kept (.node tag children)
    rw [own] at kept
    rw [apply, own, applyAll_eq_map, Entity.withChildren]
    refine apply_node_eq_self (kept_congr ?_ kept) (List.forall_mem_map.mpr ih)
    exact headingText?_map (fun child _ => apply_outline child) fun child _ => apply_plainText child

theorem mapUnresolved_plainText (resolve : String → Option LinkTarget) (entity : Entity) :
    (Targets.mapUnresolved resolve entity).plainText = entity.plainText := by
  induction entity using Entity.treeInduction with
  | leaf => rfl
  | node tag children ih =>
    have inner : Entity.plainTextAll (children.map (Targets.mapUnresolved resolve)) =
        Entity.plainTextAll children :=
      Entity.plainTextAll_congr (Entity.forall₂_map ih)
    unfold Targets.mapUnresolved
    rw [Targets.mapUnresolvedAll_eq_map]
    dsimp only
    split <;> exact inner

/-- Resolving links gives no anchor anything to be made from. -/
theorem apply_mapUnresolved {resolve : String → Option LinkTarget} {entity : Entity}
    (same : apply entity = entity) :
    apply (Targets.mapUnresolved resolve entity) = Targets.mapUnresolved resolve entity := by
  induction entity using Entity.treeInduction with
  | leaf => rfl
  | node tag children ih =>
    obtain ⟨kept, below⟩ := kept_of_apply same
    have inner : ∀ child ∈ children.map (Targets.mapUnresolved resolve), apply child = child :=
      List.forall_mem_map.mpr fun child member => ih child member (below child member)
    cases kind : tag.isLink with
    | true =>
      cases tag with
      | link target title =>
        rw [Targets.mapUnresolved_link]
        exact apply_node_eq_self (by nofun) inner
      | _ => cases kind
    | false =>
      rw [Targets.mapUnresolved_other kind]
      refine apply_node_eq_self (kept_congr ?_ kept) inner
      exact headingText?_map (fun child _ => Targets.mapUnresolved_outline _ child)
        fun child _ => mapUnresolved_plainText _ child

theorem apply_markup {entity : Entity} (markup : IsMarkup entity) : apply entity = entity := by
  induction markup with
  | leaf => rfl
  | @node tag inner plain _ ih =>
    refine apply_node_eq_self ?_ ih
    cases tag with
    | part | document | moduleDoc | group | declaration => cases plain
    | _ => nofun

/-- An entity that has no anchor although it starts with a heading has no link without text in the
heading. -/
def Written (entity : Entity) : Prop :=
  entity.anchor? = some "" → startsWithHeading entity.children = true →
    ∀ heading ∈ entity.children.head?, ∀ link ∈ heading.links, link.bare = false

instance (entity : Entity) : Decidable (Written entity) :=
  inferInstanceAs (Decidable (_ → _ → ∀ heading ∈ entity.children.head?, ∀ link ∈ heading.links, _))

/-- Text for links gives an anchor something to be made from only in a heading. -/
theorem apply_fill {text : LinkTarget → LinkText.Progress → Option (List Entity) × LinkText.Progress}
    (gives : LinkText.GivesMarkup text) {entity : Entity} (same : apply entity = entity)
    (written : ∀ node ∈ entity.preorder, Written node) (progress : LinkText.Progress) :
    apply (LinkText.fill text progress entity).1 = (LinkText.fill text progress entity).1 := by
  induction entity using Entity.treeInduction generalizing progress with
  | leaf => rfl
  | node tag children ih =>
    obtain ⟨kept, below⟩ := kept_of_apply same
    rw [LinkText.fill_node]
    split
    · rename_i target found
      obtain ⟨⟨title, rfl⟩, rfl, _⟩ := LinkText.missing?_eq_some found
      refine apply_node_eq_self (by nofun) fun child member => apply_markup ?_
      cases given : (text target progress).1 with
      | none => rw [given] at member; cases member
      | some content =>
        rw [given] at member
        exact gives target progress content given child member
    · have inner : ∀ child ∈ (LinkText.fillAll text progress children).1, apply child = child := by
        intro child member
        have each : List.Forall₂ (fun _ new : Entity => apply new = new) children
            (LinkText.fillAll text progress children).1 := by
          refine LinkText.fillAll_forall₂ (fun old present => ?_) progress
          exact ih old present (below old present) fun node among =>
            written node (Entity.mem_preorder_of_child present among)
        obtain ⟨_, _, holds⟩ := Index.exists_related each member
        exact holds
      refine apply_node_eq_self (fun none => ?_) inner
      have missing : (Entity.node tag children).anchor? = some "" := by
        rw [← none]
        cases tag <;> rfl
      have heading : headingText? (LinkText.fillAll text progress children).1 =
          headingText? children := by
        cases children with
        | nil => rfl
        | cons child rest =>
          have outline := LinkText.fill_outline gives child progress
          rw [LinkText.fillAll, headingText?_cons, headingText?_cons,
            ← Headings.startsWithHeading_outline, outline, Headings.startsWithHeading_outline]
          split
          · rename_i first
            have all := written (.node tag (child :: rest)) (Entity.mem_preorder_self _) missing
              (by rwa [Entity.children, Headings.startsWithHeading_cons]) child rfl
            rw [LinkText.fill_of_written all]
          · rfl
      rw [Entity.children, heading]
      exact kept missing

theorem apply_linkText {synthesis : Synthesis}
    (markup : ∀ text, ∀ entity ∈ synthesis.read text, IsMarkup entity) (templates : LinkTemplates)
    (known : LinkText.Known) {entity : Entity} (same : apply entity = entity)
    (written : ∀ node ∈ entity.preorder, Written node) :
    apply (LinkText.apply synthesis templates known entity).entity =
      (LinkText.apply synthesis templates known entity).entity := by
  obtain ⟨depth, filled⟩ | kept := LinkText.apply_entity synthesis templates known entity
  · rw [filled]
    exact apply_fill (LinkText.filledText_markup markup templates known (depth + 1)) same written {}
  · rw [kept]
    exact same

end Anchors

end DocComment
