import DocComment.Proofs.Pass.Outline

/-! The links of an entity through the passes after the headings. Anchors leave them, resolving changes
targets that are unresolved, and text is put into links that have none. What these passes see of the index,
the documentation in it without anchors, is the same before and after them. -/
namespace DocComment

namespace Entity

/-- A link: its target, and whether it is without text. -/
structure Link where
  target : LinkTarget
  bare : Bool
  deriving Repr, DecidableEq

/-- A node itself, if it is a link. -/
def link? : Entity → Option Link
  | .node (.link target _) children => some ⟨target, children.isEmpty⟩
  | _ => none

/-- The links of an entity, in preorder. -/
def links (entity : Entity) : List Link :=
  entity.preorder.filterMap link?

theorem links_node (tag : Tag) (children : List Entity) :
    links (.node tag children) = (link? (.node tag children)).toList ++ children.flatMap links := by
  rw [links, preorder, preorderAll_eq_flatMap, List.filterMap_cons, List.filterMap_flatMap]
  cases link? (.node tag children) <;> rfl

theorem links_of_child {tag : Tag} {children : List Entity} {child : Entity} {link : Link}
    (member : child ∈ children) (among : link ∈ child.links) :
    link ∈ (Entity.node tag children).links := by
  rw [links_node]
  exact List.mem_append_right _ (List.mem_flatMap.mpr ⟨child, member, among⟩)

theorem link_mem_links (target : LinkTarget) (title : String) (children : List Entity) :
    ⟨target, children.isEmpty⟩ ∈ (Entity.node (.link target title) children).links := by
  rw [links_node]
  exact List.mem_append_left _ (by simp [link?])

theorem link?_map (tag : Tag) (children : List Entity) (change : Entity → Entity) :
    (Entity.node tag (children.map change)).link? = (Entity.node tag children).link? := by
  cases tag <;> simp [link?]

theorem link?_of_other {tag : Tag} (other : tag.isLink = false) (children : List Entity) :
    (Entity.node tag children).link? = none := by
  cases tag with
  | link => cases other
  | _ => rfl

end Entity

open Entity (Link)

namespace Anchors

theorem link?_anchored (tag : Tag) (children inner : List Entity) :
    ((anchored (.node tag children)).withChildren inner).link? = (Entity.node tag inner).link? := by
  unfold anchored
  split
  · rename_i present
    split
    · cases tag with
      | link => cases present
      | _ => rfl
    · rfl
  · rfl

theorem apply_links (entity : Entity) : (apply entity).links = entity.links := by
  induction entity using Entity.treeInduction with
  | leaf => rfl
  | node tag children ih =>
    obtain ⟨tag', same, _⟩ := anchored_outline tag children
    have own := link?_anchored tag children (children.map apply)
    rw [same, Entity.withChildren, Entity.link?_map, Entity.link?_map] at own
    have below := List.flatMap_congr ih
    rw [apply, same, applyAll_eq_map, Entity.withChildren, Entity.links_node, Entity.links_node,
      Entity.link?_map, own, List.flatMap_map, below]

end Anchors

namespace Targets

variable {resolve : String → Option LinkTarget}

/-- A target after resolving. -/
def settle (resolve : String → Option LinkTarget) : LinkTarget → LinkTarget
  | .unresolved raw => (resolve raw).getD (.unresolved raw)
  | target => target

theorem mapUnresolved_link (target : LinkTarget) (title : String) (children : List Entity) :
    mapUnresolved resolve (.node (.link target title) children) =
      .node (.link (settle resolve target) title) (children.map (mapUnresolved resolve)) := by
  rw [← mapUnresolvedAll_eq_map]
  cases target <;> rfl

theorem mapUnresolved_other {tag : Tag} (other : tag.isLink = false) (children : List Entity) :
    mapUnresolved resolve (.node tag children) =
      .node tag (children.map (mapUnresolved resolve)) := by
  rw [← mapUnresolvedAll_eq_map]
  cases tag with
  | link => cases other
  | _ => rfl

theorem mapUnresolved_links (entity : Entity) : (mapUnresolved resolve entity).links =
    entity.links.map fun link => { link with target := settle resolve link.target } := by
  induction entity using Entity.treeInduction with
  | leaf => rfl
  | node tag children ih =>
    have below := List.flatMap_congr ih
    rw [Entity.links_node tag, List.map_append, List.map_flatMap, ← below]
    cases kind : tag.isLink with
    | true =>
      cases tag with
      | link target title =>
        rw [mapUnresolved_link, Entity.links_node, Entity.link?_map, List.flatMap_map]
        rfl
      | _ => cases kind
    | false =>
      rw [mapUnresolved_other kind, Entity.links_node, Entity.link?_of_other kind, Entity.link?_of_other kind,
        List.flatMap_map]
      rfl

/-- The raw targets are those of the links. -/
theorem mem_unresolved {entity : Entity} {raw : String} :
    raw ∈ unresolved entity ↔ ∃ link ∈ entity.links, link.target = .unresolved raw := by
  simp only [unresolved, Entity.links, List.mem_filterMap]
  constructor
  · rintro ⟨node, member, found⟩
    split at found
    · cases found
      exact ⟨_, ⟨_, member, rfl⟩, rfl⟩
    · cases found
  · rintro ⟨link, ⟨node, member, found⟩, target⟩
    unfold Entity.link? at found
    split at found
    · cases found
      cases target
      exact ⟨_, member, rfl⟩
    · cases found

/-- Where nothing is found nothing changes. -/
theorem mapUnresolved_eq_self {entity : Entity}
    (none : ∀ raw ∈ unresolved entity, resolve raw = none) : mapUnresolved resolve entity = entity := by
  have settled (target : LinkTarget) (bare : Bool) (among : ⟨target, bare⟩ ∈ entity.links) :
      settle resolve target = target := by
    cases target with
    | unresolved raw => rw [settle, none raw (mem_unresolved.mpr ⟨_, among, rfl⟩), Option.getD_none]
    | _ => rfl
  clear none
  induction entity using Entity.treeInduction with
  | leaf => rfl
  | node tag children ih =>
    have below : children.map (mapUnresolved resolve) = children :=
      Entity.map_unchanged fun child member => ih child member fun target bare among =>
        settled target bare (Entity.links_of_child member among)
    cases kind : tag.isLink with
    | true =>
      cases tag with
      | link target title =>
        have own := settled target children.isEmpty (Entity.link_mem_links target title children)
        rw [mapUnresolved_link, below, own]
      | _ => cases kind
    | false => rw [mapUnresolved_other kind, below]

end Targets

namespace LinkText

variable {text : LinkTarget → Progress → Option (List Entity) × Progress}

theorem fillAll_unchanged {children : List Entity} {progress : Progress}
    (each : ∀ child ∈ children, fill text progress child = (child, progress)) :
    fillAll text progress children = (children, progress) := by
  induction children with
  | nil => rfl
  | cons child rest ih =>
    have own := each child List.mem_cons_self
    have later := ih fun other member => each other (List.mem_cons_of_mem _ member)
    simp only [fillAll, own, later]

/-- After a failure nothing changes. -/
theorem fill_of_failed {progress : Progress} (failed : progress.failure ≠ none) (entity : Entity) :
    fill text progress entity = (entity, progress) := by
  induction entity using Entity.treeInduction with
  | leaf => rfl
  | node tag children ih =>
    have below := fillAll_unchanged ih
    have present : missing? progress tag children = none := by
      cases found : missing? progress tag children with
      | none => rfl
      | some target => exact absurd (missing?_eq_some found).2.2 failed
    rw [fill_node, present, below]

theorem failure_of_fill {progress : Progress} {entity : Entity}
    (fine : (fill text progress entity).2.failure = none) : progress.failure = none := by
  by_contra failed
  rw [fill_of_failed failed] at fine
  exact failed fine

theorem failure_of_fillAll {progress : Progress} {entities : List Entity}
    (fine : (fillAll text progress entities).2.failure = none) : progress.failure = none := by
  induction entities generalizing progress with
  | nil => exact fine
  | cons entity rest ih => exact failure_of_fill (ih fine)

/-- Without a failure no child fails. -/
theorem fillAll_fine {related : Entity → Entity → Prop} {children : List Entity} {progress : Progress}
    (fine : (fillAll text progress children).2.failure = none)
    (each : ∀ child ∈ children, ∀ progress, (fill text progress child).2.failure = none →
      related child (fill text progress child).1) :
    List.Forall₂ related children (fillAll text progress children).1 := by
  induction children generalizing progress with
  | nil => exact .nil
  | cons child rest ih =>
    refine .cons (each child List.mem_cons_self progress (failure_of_fillAll fine)) ?_
    exact ih fine fun other member => each other (List.mem_cons_of_mem _ member)

theorem fillAll_eq_self {children : List Entity}
    (each : ∀ child ∈ children, ∀ progress : Progress, progress.failure = none →
      (fill text progress child).1 = child ∧ (fill text progress child).2.failure = none)
    {progress : Progress} (fine : progress.failure = none) :
    (fillAll text progress children).1 = children ∧
      (fillAll text progress children).2.failure = none := by
  induction children generalizing progress with
  | nil => exact ⟨rfl, fine⟩
  | cons child rest ih =>
    obtain ⟨same, failure⟩ := each child List.mem_cons_self progress fine
    obtain ⟨later, still⟩ := ih (fun other member => each other (List.mem_cons_of_mem _ member)) failure
    simp only [fillAll, same, later]
    exact ⟨trivial, still⟩

/-- The text and the failure for a target, whatever is reported before. -/
def Gives (text : LinkTarget → Progress → Option (List Entity) × Progress) (target : LinkTarget)
    (content : List Entity) (failure : Option Fault) : Prop :=
  ∀ progress : Progress, progress.failure = none →
    (text target progress).1.getD [] = content ∧ (text target progress).2.failure = failure

/-- Where there is no text for any link without text, nothing changes. -/
theorem fill_eq_self {entity : Entity}
    (silent : ∀ link ∈ entity.links, link.bare = true → Gives text link.target [] none)
    {progress : Progress} (fine : progress.failure = none) :
    (fill text progress entity).1 = entity ∧ (fill text progress entity).2.failure = none := by
  induction entity using Entity.treeInduction generalizing progress with
  | leaf => exact ⟨rfl, fine⟩
  | node tag children ih =>
    rw [fill_node]
    split
    · rename_i target found
      obtain ⟨⟨title, rfl⟩, rfl, _⟩ := missing?_eq_some found
      obtain ⟨content, failure⟩ := silent _ (Entity.link_mem_links target title []) rfl progress fine
      exact ⟨by rw [content], failure⟩
    · have each : ∀ child ∈ children, ∀ progress : Progress, progress.failure = none →
          (fill text progress child).1 = child ∧ (fill text progress child).2.failure = none := by
        intro child member progress fine
        exact ih child member (fun link among => silent link (Entity.links_of_child member among)) fine
      obtain ⟨same, failure⟩ := fillAll_eq_self each fine
      exact ⟨by rw [same], failure⟩

/-- Where every link has text nothing changes. -/
theorem fill_of_written {entity : Entity} (written : ∀ link ∈ entity.links, link.bare = false)
    (progress : Progress) : (fill text progress entity).1 = entity := by
  by_cases fine : progress.failure = none
  · have silent : ∀ link ∈ entity.links, link.bare = true → Gives text link.target [] none := by
      intro link among bare
      rw [written link among] at bare
      cases bare
    exact (fill_eq_self silent fine).1
  · rw [fill_of_failed fine]

/-- What becomes of the links: their targets are those from before, and one is without text only if
there is no text for it. -/
theorem fill_links {entity : Entity} {progress : Progress}
    (fine : (fill text progress entity).2.failure = none)
    (plain : ∀ link ∈ entity.links, link.bare = true →
      ∃ content failure, Gives text link.target content failure ∧ ∀ inner ∈ content, inner.links = []) :
    ∀ link ∈ (fill text progress entity).1.links, (∃ bare, ⟨link.target, bare⟩ ∈ entity.links) ∧
      (link.bare = true → Gives text link.target [] none) := by
  induction entity using Entity.treeInduction generalizing progress with
  | leaf => simp [fill, Entity.links, Entity.preorder, Entity.link?]
  | node tag children ih =>
    rw [fill_node] at fine ⊢
    split at fine
    · rename_i target found
      obtain ⟨⟨title, rfl⟩, rfl, noFailure⟩ := missing?_eq_some found
      have given := plain _ (Entity.link_mem_links target title []) rfl
      dsimp only at given
      obtain ⟨content, failure, gives, linkless⟩ := given
      obtain ⟨filled, failed⟩ := gives progress noFailure
      obtain rfl : failure = none := failed.symm.trans fine
      simp only [filled, Entity.links_node, List.flatMap_eq_nil_iff.mpr linkless, List.append_nil,
        Entity.link?, Option.toList_some, List.mem_singleton]
      rintro link rfl
      refine ⟨⟨true, by simp⟩, fun bare => ?_⟩
      obtain rfl : content = [] := List.isEmpty_iff.mp bare
      exact gives
    · rename_i present
      have below : List.Forall₂ (fun old new : Entity => ∀ link ∈ new.links,
          (∃ bare, ⟨link.target, bare⟩ ∈ old.links) ∧
            (link.bare = true → Gives text link.target [] none))
          children (fillAll text progress children).1 := by
        refine fillAll_fine fine fun child member progress fine => ih child member fine ?_
        exact fun link among => plain link (Entity.links_of_child member among)
      simp only [Entity.links_node, List.mem_append, List.mem_flatMap]
      rintro link (own | ⟨new, member, among⟩)
      · cases kind : tag.isLink with
        | false => simp [Entity.link?_of_other kind] at own
        | true =>
          cases tag with
          | link target title =>
            obtain rfl : link = ⟨target, (fillAll text progress children).1.isEmpty⟩ := by
              simpa [Entity.link?] using own
            refine ⟨⟨children.isEmpty, .inl (by simp [Entity.link?])⟩, fun bare => ?_⟩
            have noFailure := failure_of_fillAll fine
            have none : children = [] := by
              rw [← List.length_eq_zero_iff, below.length_eq, List.length_eq_zero_iff]
              exact List.isEmpty_iff.mp bare
            subst none
            simp [missing?, noFailure] at present
          | _ => cases kind
      · obtain ⟨old, was, holds⟩ := Index.exists_related below member
        obtain ⟨⟨bare, before⟩, silent⟩ := holds link among
        exact ⟨⟨bare, .inr ⟨old, was, before⟩⟩, silent⟩

variable {synthesis : Synthesis} {templates : LinkTemplates} {known : Known}

/-- The text for a target, and whether it fails, before links in it are filled. -/
theorem textOf_gives (synthesis : Synthesis) (templates : LinkTemplates) (known : Known)
    (target : LinkTarget) :
    Gives (textOf synthesis templates known) target
      ((textOf synthesis templates known target {}).1.getD [])
      (textOf synthesis templates known target {}).2.failure := by
  intro progress fine
  unfold textOf
  dsimp only
  split
  · exact ⟨rfl, fine⟩
  · split
    · exact ⟨rfl, fine⟩
    · split
      · exact ⟨rfl, fine⟩
      · exact ⟨rfl, rfl⟩

/-- Whether there are no links in the text for a target. -/
def isPlainText (synthesis : Synthesis) (templates : LinkTemplates) (known : Known)
    (target : LinkTarget) : Bool :=
  ((textOf synthesis templates known target {}).1.getD []).all (·.links.isEmpty)

/-- Text without links in it is not filled any further. -/
theorem filledText_gives {target : LinkTarget}
    (plain : isPlainText synthesis templates known target = true) (depth : Nat) :
    Gives (filledText synthesis templates known (depth + 1)) target
      ((textOf synthesis templates known target {}).1.getD [])
      (textOf synthesis templates known target {}).2.failure := by
  intro progress fine
  obtain ⟨content, failure⟩ := textOf_gives synthesis templates known target progress fine
  rcases made : textOf synthesis templates known target progress with ⟨_ | written, after⟩
  · rw [made] at content failure
    rw [filledText_of_none made]
    exact ⟨content, failure⟩
  · rw [made] at content failure
    rw [filledText_of_some made, ← content, ← failure]
    have linkless : ∀ inner ∈ written, inner.links = [] := by
      simpa [isPlainText, ← content] using plain
    by_cases failed : after.failure = none
    · have each : ∀ inner ∈ written, ∀ progress : Progress, progress.failure = none →
          (fill (filledText synthesis templates known depth) progress inner).1 = inner ∧
            (fill (filledText synthesis templates known depth) progress inner).2.failure = none := by
        intro inner member progress fine
        exact fill_eq_self (by simp [linkless inner member]) fine
      rw [failed]
      exact fillAll_eq_self each failed
    · rw [fillAll_unchanged fun inner _ => fill_of_failed failed inner]
      exact ⟨rfl, rfl⟩

/-- There is no text for a target if and only if there is none before links in it are filled. -/
theorem filledText_silent_iff {target : LinkTarget} {depth : Nat} :
    Gives (filledText synthesis templates known (depth + 1)) target [] none ↔
      Gives (textOf synthesis templates known) target [] none := by
  constructor
  · intro silent
    obtain ⟨content, failure⟩ := silent {} rfl
    have gives := textOf_gives synthesis templates known target
    rcases made : textOf synthesis templates known target {} with ⟨_ | written, after⟩
    · rw [filledText_of_none made] at failure
      rw [made] at gives
      exact failure ▸ gives
    · rw [filledText_of_some made] at content failure
      dsimp only [Option.getD_some] at content failure
      obtain rfl : written = [] := by
        cases written with
        | nil => rfl
        | cons => cases content
      rw [made] at gives
      exact failure ▸ gives
  · intro silent
    obtain ⟨content, failure⟩ := silent {} rfl
    have plain : isPlainText synthesis templates known target = true := by
      rw [isPlainText, content]
      rfl
    have gives := filledText_gives plain depth
    rwa [content, failure] at gives

end LinkText

open Entity (catalogAll preorderAll stub?)

namespace Entity

theorem catalogAll_congr {old new : List Entity}
    (same : List.Forall₂ (fun old new : Entity => new.outline = old.outline) old new) :
    catalogAll new = catalogAll old := by
  rw [catalogAll_eq_flatMap, catalogAll_eq_flatMap]
  induction same with
  | nil => rfl
  | cons own _ ih => rw [List.flatMap_cons, List.flatMap_cons, ih, ← catalog_outline, own, catalog_outline]

/-- What is read off documentation alone, whatever its anchor, depends on the catalog. -/
theorem filterMap_preorderAll {read : Entity → Option α}
    (named : ∀ entity, read entity = entity.stub?.bind fun tag => read (.node tag []))
    {old new : List Entity} (same : catalogAll new = catalogAll old) :
    (preorderAll new).filterMap read = (preorderAll old).filterMap read := by
  have all (entities : List Entity) : (preorderAll entities).filterMap read =
      (catalogAll entities).filterMap fun tag => read (.node tag []) := by
    rw [catalogAll, List.filterMap_filterMap]
    exact List.filterMap_congr fun entity _ => named entity
  rw [all, same, all]

end Entity

theorem LinkTable.build_congr {source : SourceTree} {old new : Index} {order : SetOrder}
    {isAddress : String → Bool} (same : catalogAll new.entities = catalogAll old.entities) :
    build source new order isAddress = build source old order isAddress := by
  unfold build uniqueNames
  dsimp only
  rw [Entity.filterMap_preorderAll ?ids same, Entity.filterMap_preorderAll ?names same,
    Entity.filterMap_preorderAll ?modules same]
  case ids | names | modules =>
    intro entity
    cases entity with
    | leaf => rfl
    | node tag _ => cases tag <;> rfl

theorem LinkText.knownIn_congr {source : SourceTree} {old new : Index}
    (same : catalogAll new.entities = catalogAll old.entities) :
    knownIn source new = knownIn source old := by
  unfold knownIn
  dsimp only
  rw [Entity.filterMap_preorderAll ?declarations same, Entity.filterMap_preorderAll ?modules same]
  case declarations | modules =>
    intro entity
    cases entity with
    | leaf => rfl
    | node tag _ => cases tag <;> rfl

theorem entityScope_congr {source : SourceTree} {old new : Entity} (same : new.outline = old.outline) :
    entityScope source new = entityScope source old := by
  have keys : new.key? = old.key? := by
    rw [← Entity.key?_outline, same, Entity.key?_outline]
  rw [entityScope, entityScope, keys]

/-- An unresolved target is found only for an address that carries one. -/
theorem LinkTable.resolve_unresolved {table : LinkTable} {raw scope inner : String}
    (found : (table.resolve raw scope).1 = some (.unresolved inner)) :
    Carrier.decode? raw = some (.unresolved inner) := by
  unfold resolve at found
  split at found
  · unfold carried at found
    split at found
    · cases found
    · split at found <;> cases found
    · rename_i decoded
      rw [decoded]
      exact found
  · have named (name : String) : table.named? name ≠ some (.unresolved inner) := by
      unfold named?
      split
      · simp
      · split <;> simp
    have fuzzy (ignoreCase : Bool) (name : String) :
        table.fuzzy? ignoreCase name scope ≠ some (.unresolved inner) := by
      unfold fuzzy?
      dsimp only
      split
      · simp
      · split <;> simp
    dsimp only at found
    split at found
    · cases found
    · split at found
      · cases found
      · split at found
        · exact absurd found (fuzzy _ _)
        · exact absurd found (fuzzy _ _)
        · exact absurd found (named _)

theorem Targets.resolveExternal_resolved {inventories : List Inventory} {raw : String}
    {target : LinkTarget} (found : resolveExternal inventories raw = some target) :
    target.isUnresolved = false := by
  unfold resolveExternal at found
  split at found
  · cases found
    rfl
  · obtain ⟨entry, _, rfl⟩ := Option.map_eq_some_iff.mp found
    rfl

end DocComment
