import DocComment.Pass.LinkText
import DocComment.Proofs.Entity.Tree
import Mathlib.Data.List.Flatten

/-! The outline of an entity: its tree without anchors, link targets, and the markup inside of links.
These are what the passes after the headings fill in. The outline determines the identity of an entity
and the documentation in it, which in turn determine what links resolve to and what templates see. -/
namespace DocComment

namespace Tag

def isLink : Tag → Bool
  | .link .. => true
  | _ => false

/-- The tag without anchor and link target. -/
def outline : Tag → Tag
  | .link _ title => .link (.unresolved "") title
  | .document name path _ => .document name path ""
  | .moduleDoc name _ fields => .moduleDoc name "" fields
  | .group name _ fields => .group name "" fields
  | .declaration declared _ fields => .declaration declared "" fields
  | tag => tag

theorem isLink_outline (tag : Tag) : tag.outline.isLink = tag.isLink := by
  cases tag <;> rfl

theorem isMarkup_outline (tag : Tag) : tag.outline.isMarkup = tag.isMarkup := by
  cases tag <;> rfl

end Tag

namespace Entity

mutual

/-- Whether a whole tree is markup. -/
def isPlain : Entity → Bool
  | .leaf _ => true
  | .node tag children => tag.isMarkup && arePlain children

def arePlain : List Entity → Bool
  | [] => true
  | entity :: rest => isPlain entity && arePlain rest

end

mutual

def outline : Entity → Entity
  | .leaf content => .leaf content
  | .node tag children => .node tag.outline (outlineAll tag.isLink children)

/-- The outlines of children. Of those of a link, markup is left out. -/
def outlineAll (inLink : Bool) : List Entity → List Entity
  | [] => []
  | entity :: rest =>
    if inLink && isPlain entity then outlineAll inLink rest
    else outline entity :: outlineAll inLink rest

end

theorem arePlain_iff {entities : List Entity} :
    arePlain entities = true ↔ ∀ entity ∈ entities, entity.isPlain = true := by
  induction entities with
  | nil => simp [arePlain]
  | cons entity rest ih => simp [arePlain, ih]

theorem isPlain_iff {entity : Entity} : entity.isPlain = true ↔ IsMarkup entity := by
  constructor
  · induction entity using treeInduction with
    | leaf content => exact fun _ => .leaf content
    | node tag children ih =>
      intro plain
      simp only [isPlain, Bool.and_eq_true, arePlain_iff] at plain
      exact .node plain.1 fun child member => ih child member (plain.2 child member)
  · intro markup
    induction markup with
    | leaf => rfl
    | node own _ ih =>
      simp only [isPlain, Bool.and_eq_true, arePlain_iff]
      exact ⟨own, ih⟩

theorem outlineAll_false (entities : List Entity) : outlineAll false entities = entities.map outline := by
  induction entities with
  | nil => rfl
  | cons entity rest ih => simp [outlineAll, ih]

theorem outlineAll_true (entities : List Entity) :
    outlineAll true entities = (entities.filter fun entity => !entity.isPlain).map outline := by
  induction entities with
  | nil => rfl
  | cons entity rest ih =>
    by_cases plain : entity.isPlain = true <;> simp [outlineAll, ih, plain]

theorem outlineAll_of_plain {entities : List Entity} (plain : ∀ entity ∈ entities, entity.isPlain = true) :
    outlineAll true entities = [] := by
  rw [outlineAll_true, List.map_eq_nil_iff, List.filter_eq_nil_iff]
  simpa using plain

theorem isPlain_outline (entity : Entity) : entity.outline.isPlain = entity.isPlain := by
  induction entity using treeInduction with
  | leaf => rfl
  | node tag children ih =>
    have inner : arePlain (outlineAll tag.isLink children) = arePlain children := by
      rw [Bool.eq_iff_iff, arePlain_iff, arePlain_iff]
      cases tag.isLink with
      | false =>
        simp only [outlineAll_false, List.forall_mem_map]
        exact forall₂_congr fun child member => by rw [ih child member]
      | true =>
        simp only [outlineAll_true, List.forall_mem_map, List.mem_filter, and_imp]
        refine forall₂_congr fun child member => ?_
        rw [ih child member]
        cases child.isPlain <;> simp
    simp only [outline, isPlain, Tag.isMarkup_outline, inner]

/-- Changes of children that keep their outlines, whatever they are children of. -/
theorem outlineAll_congr {entities changed : List Entity} (inLink : Bool)
    (same : List.Forall₂ (fun old new : Entity => new.outline = old.outline) entities changed) :
    outlineAll inLink changed = outlineAll inLink entities := by
  induction same with
  | nil => rfl
  | @cons old new _ _ own _ ih =>
    have plain : new.isPlain = old.isPlain := by
      rw [← isPlain_outline new, own, isPlain_outline]
    simp only [outlineAll, own, plain, ih]

theorem outline_node (same : tag'.outline = tag.outline) {children children' : List Entity}
    (inner : List.Forall₂ (fun old new : Entity => new.outline = old.outline) children children') :
    (Entity.node tag' children').outline = (Entity.node tag children).outline := by
  have link : tag'.isLink = tag.isLink := by
    rw [← Tag.isLink_outline tag', same, Tag.isLink_outline]
  simp only [outline, same, link, outlineAll_congr _ inner]

/-- The tag of documentation or of a document, without its anchor. -/
def stub? : Entity → Option Tag
  | .leaf _ => none
  | .node tag _ =>
    match tag with
    | .document .. | .moduleDoc .. | .group .. | .declaration .. => some tag.outline
    | _ => none

/-- The documentation in entities, in preorder. -/
def catalogAll (entities : List Entity) : List Tag :=
  (preorderAll entities).filterMap stub?

def catalog (entity : Entity) : List Tag :=
  entity.preorder.filterMap stub?

theorem catalogAll_eq_flatMap (entities : List Entity) :
    catalogAll entities = entities.flatMap catalog := by
  rw [catalogAll, preorderAll_eq_flatMap, List.filterMap_flatMap]
  rfl

theorem catalog_node (tag : Tag) (children : List Entity) :
    catalog (.node tag children) = (stub? (.node tag children)).toList ++ catalogAll children := by
  rw [catalog, preorder, List.filterMap_cons, catalogAll]
  cases stub? (.node tag children) <;> rfl

theorem IsMarkup.stub?_eq_none (markup : IsMarkup entity) : entity.stub? = none := by
  cases markup with
  | leaf => rfl
  | @node tag _ plain _ =>
    cases tag with
    | document => cases plain
    | moduleDoc => cases plain
    | group => cases plain
    | declaration => cases plain
    | _ => rfl

theorem catalog_of_plain {entity : Entity} (plain : entity.isPlain = true) : entity.catalog = [] :=
  List.filterMap_eq_nil_iff.mpr fun node member =>
    ((isPlain_iff.mp plain).of_mem_preorder node member).stub?_eq_none

theorem stub?_outline (entity : Entity) : entity.outline.stub? = entity.stub? := by
  cases entity with
  | leaf => rfl
  | node tag _ => cases tag <;> simp [outline, stub?, Tag.outline]

theorem catalog_outline (entity : Entity) : entity.outline.catalog = entity.catalog := by
  induction entity using treeInduction with
  | leaf => rfl
  | node tag children ih =>
    have inner : catalogAll (outlineAll tag.isLink children) = catalogAll children := by
      rw [catalogAll_eq_flatMap, catalogAll_eq_flatMap]
      generalize tag.isLink = inLink
      induction children with
      | nil => rfl
      | cons child rest ih' =>
        have own := ih child List.mem_cons_self
        have later := ih' fun other member => ih other (List.mem_cons_of_mem _ member)
        unfold outlineAll
        split
        · rename_i left
          have nothing := catalog_of_plain (Bool.and_eq_true_iff.mp left).2
          rw [later, List.flatMap_cons, nothing, List.nil_append]
        · rw [List.flatMap_cons, List.flatMap_cons, own, later]
    have own := stub?_outline (.node tag children)
    simp only [outline] at own ⊢
    rw [catalog_node, catalog_node, own, inner]

theorem key?_outline (entity : Entity) : entity.outline.key? = entity.key? := by
  induction entity using treeInduction with
  | leaf => rfl
  | node tag children ih =>
    cases tag with
    | group name anchor fields =>
      simp only [outline, Tag.outline, Tag.isLink, outlineAll_false, key?]
      induction children with
      | nil => rfl
      | cons child rest ih' =>
        rw [List.map_cons, firstKey?, firstKey?, ih child List.mem_cons_self,
          ih' fun other member => ih other (List.mem_cons_of_mem _ member)]
    | _ => simp [outline, Tag.outline, key?]

end Entity

end DocComment
