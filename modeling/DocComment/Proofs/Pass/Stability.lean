import DocComment.Proofs.Pass.Headings
import DocComment.Proofs.Pass.Run
import DocComment.Proofs.Pass.Links
import DocComment.Proofs.LinkTable.Resolution

/-! What a run of all passes leaves for the next one. Each pass brings about that it has nothing more to
do, and no later pass undoes that. Only anchors are an exception: one is made from a heading, and the
text of links in the heading comes later. -/
namespace DocComment

open Entity (IsMarkup catalogAll preorderAll)

namespace Pass

variable {pass : Pass} {pool : Pool} {index : Index}

/-- A pass that changes no entity leaves the index. -/
theorem after_eq_self (same : ∀ entity ∈ index.entities, (pass.prepare index entity).entity = entity) :
    pass.after pool index = index := by
  have entities : pass.entitiesAfter pool index = index.entities := by
    unfold entitiesAfter
    cases pool.fate with
    | run => exact Entity.map_unchanged same
    | dropped => rfl
    | refused => rfl
  rw [after, entities]

theorem Succeeds.mem_entities (succeeds : pass.Succeeds pool index) {entity : Entity}
    (member : entity ∈ (pass.after pool index).entities) :
    ∃ old ∈ index.entities, entity = (pass.prepare index old).entity ∧
      (pass.prepare index old).failure = none := by
  rw [succeeds.entities] at member
  obtain ⟨old, present, same⟩ := List.mem_map.mp member
  exact ⟨old, present, same.symm, (succeeds old present).2⟩

/-- A pass that keeps outlines keeps the catalog. -/
theorem after_catalog
    (outline : ∀ entity ∈ index.entities, (pass.prepare index entity).entity.outline = entity.outline) :
    catalogAll (pass.after pool index).entities = catalogAll index.entities := by
  refine Entity.catalogAll_congr ?_
  change List.Forall₂ _ _ (pass.entitiesAfter pool index)
  unfold entitiesAfter
  cases pool.fate with
  | run => exact Entity.forall₂_map outline
  | dropped => exact List.forall₂_same.mpr fun _ _ => rfl
  | refused => exact List.forall₂_same.mpr fun _ _ => rfl

end Pass

namespace Targets

/-- What stays unresolved: raw targets for which nothing is found, and what carriers of raw targets
are replaced by. -/
theorem unresolved_mapUnresolved {resolve : String → Option LinkTarget} {entity : Entity} {raw : String}
    (member : raw ∈ unresolved (mapUnresolved resolve entity)) :
    ∃ old ∈ unresolved entity,
      (resolve old = none ∧ old = raw) ∨ resolve old = some (.unresolved raw) := by
  obtain ⟨link, among, target⟩ := mem_unresolved.mp member
  rw [mapUnresolved_links] at among
  obtain ⟨old, present, rfl⟩ := List.mem_map.mp among
  dsimp only at target
  cases own : old.target with
  | unresolved written =>
    refine ⟨written, mem_unresolved.mpr ⟨old, present, own⟩, ?_⟩
    rw [own, settle] at target
    cases found : resolve written with
    | none =>
      rw [found] at target
      cases target
      exact .inl ⟨rfl, rfl⟩
    | some other =>
      rw [found] at target
      exact .inr (congrArg some target)
  | _ => rw [own] at target; cases target

end Targets

namespace Pipeline

variable {synthesis : Synthesis} {options : PipelineOptions} {pool : Pool} {index : Index}
  {order : SetOrder}

/-- Nothing is found for what is unresolved in the index, in whatever order modules are gone through. -/
def Resolved (source : SourceTree) (index : Index) : Prop :=
  ∀ entity ∈ index.entities, ∀ raw ∈ Targets.unresolved entity, ∀ order : SetOrder,
    ((LinkTable.build source index order).resolve raw (entityScope source entity)).1 = none

/-- Nothing is found in other projects for what is unresolved. -/
def ResolvedOutside (inventories : List Inventory) (index : Index) : Prop :=
  ∀ entity ∈ index.entities, ∀ raw ∈ Targets.unresolved entity,
    Targets.resolveExternal inventories raw = none

/-- There is no text for any link that is without. -/
def Filled (synthesis : Synthesis) (templates : LinkTemplates) (index : Index) : Prop :=
  ∀ entity ∈ index.entities, ∀ link ∈ entity.links, link.bare = true →
    LinkText.Gives (LinkText.textOf synthesis templates (LinkText.knownIn synthesis.source index))
      link.target [] none

/-- An index in which no pass has anything to do, except for anchors. -/
structure Stable (synthesis : Synthesis) (options : PipelineOptions) (index : Index) : Prop where
  settled : ∀ entity ∈ index.entities, Exclusion.Settled synthesis.source options.exclusion entity
  headed : ∀ entity ∈ index.entities, Headings.Headed options.templates.heading entity
  resolved : Resolved synthesis.source index
  outside : ResolvedOutside options.inventories index
  filled : Filled synthesis options.templates.link index

/-- What templates and links are like where a run does its work at once: whatever is made from the
template of a heading starts with a heading, no raw target that is looked up carries another raw
target, and there are no links in the text for a link. -/
structure Regular (synthesis : Synthesis) (options : PipelineOptions) (pool : Pool) (index : Index)
    (order : SetOrder := .arrival) : Prop where
  titled : ∀ node ∈ preorderAll (indexAfter pool index
      ((passes synthesis options order).take 1)).entities,
    Headings.titled synthesis options.templates.heading node = true
  direct : ∀ entity ∈ (indexAfter pool index ((passes synthesis options order).take 3)).entities,
    ∀ raw ∈ Targets.unresolved entity, (Carrier.decode? raw).any LinkTarget.isUnresolved = false
  plain : ∀ entity ∈ (indexAfter pool index ((passes synthesis options order).take 5)).entities,
    ∀ link ∈ entity.links, link.bare = true →
      LinkText.isPlainText synthesis options.templates.link
        (LinkText.knownIn synthesis.source
          (indexAfter pool index ((passes synthesis options order).take 5))) link.target = true

instance : Decidable (Regular synthesis options pool index order) :=
  decidable_of_iff (_ ∧ _ ∧ _) ⟨fun ⟨titled, direct, plain⟩ => ⟨titled, direct, plain⟩,
    fun ⟨titled, direct, plain⟩ => ⟨titled, direct, plain⟩⟩

theorem exclusion_settles (succeeds : (exclusion synthesis options).Succeeds pool index) :
    ∀ entity ∈ ((exclusion synthesis options).after pool index).entities,
      Exclusion.Settled synthesis.source options.exclusion entity := by
  intro entity member
  obtain ⟨old, _, rfl, _⟩ := succeeds.mem_entities member
  exact Exclusion.apply_settled old

theorem headings_settle (markup : ∀ text, ∀ entity ∈ synthesis.read text, IsMarkup entity)
    (succeeds : (headings synthesis options).Succeeds pool index)
    (titled : ∀ node ∈ preorderAll index.entities,
      Headings.titled synthesis options.templates.heading node = true)
    (settled : ∀ entity ∈ index.entities,
      Exclusion.Settled synthesis.source options.exclusion entity) :
    ∀ entity ∈ ((headings synthesis options).after pool index).entities,
      Exclusion.Settled synthesis.source options.exclusion entity ∧
        Headings.Headed options.templates.heading entity := by
  intro entity member
  obtain ⟨old, present, rfl, failure⟩ := succeeds.mem_entities member
  have fine : (Headings.synthesize synthesis options.templates.heading 0 old).2 = none :=
    Option.map_eq_none_iff.mp failure
  have named : ∀ node ∈ old.preorder,
      Headings.titled synthesis options.templates.heading node = true := by
    intro node among
    exact titled node (Entity.mem_preorderAll.mpr ⟨old, present, among⟩)
  have own := named old (Entity.mem_preorder_self old)
  exact ⟨(settled old present).synthesize markup fine own,
    Headings.synthesize_headed markup fine named⟩

/-- What outlines tell is kept by what keeps them. -/
theorem outline_keeps {pass : Pass} (succeeds : pass.Succeeds pool index)
    (outline : ∀ entity ∈ index.entities, (pass.prepare index entity).entity.outline = entity.outline)
    (kept : ∀ entity ∈ index.entities, Exclusion.Settled synthesis.source options.exclusion entity ∧
      Headings.Headed options.templates.heading entity) :
    ∀ entity ∈ (pass.after pool index).entities,
      Exclusion.Settled synthesis.source options.exclusion entity ∧
        Headings.Headed options.templates.heading entity := by
  intro entity member
  obtain ⟨old, present, rfl, _⟩ := succeeds.mem_entities member
  obtain ⟨settled, headed⟩ := kept old present
  have same := outline old present
  refine ⟨settled.congr same, ?_⟩
  rw [← Headings.headed_outline, same, Headings.headed_outline]
  exact headed

theorem internal_resolves
    (succeeds : (Targets.internalPass source order).Succeeds pool index)
    (direct : ∀ entity ∈ index.entities, ∀ raw ∈ Targets.unresolved entity,
      (Carrier.decode? raw).any LinkTarget.isUnresolved = false) :
    Resolved source ((Targets.internalPass source order).after pool index) := by
  have outline (entity : Entity) :
      ((Targets.internalPass source order).prepare index entity).entity.outline = entity.outline :=
    Targets.mapUnresolved_outline _ entity
  intro entity member raw unresolved other
  obtain ⟨old, present, rfl, _⟩ := succeeds.mem_entities member
  rw [LinkTable.build_congr (Pass.after_catalog fun entity _ => outline entity),
    entityScope_congr (outline old), LinkTable.resolve_eq_none_iff other order]
  obtain ⟨written, among, ⟨none, rfl⟩ | carried⟩ := Targets.unresolved_mapUnresolved unresolved
  · exact none
  · have plain := direct old present written among
    rw [LinkTable.resolve_unresolved carried] at plain
    cases plain

theorem Resolved.after {pass : Pass} (resolved : Resolved source index)
    (succeeds : pass.Succeeds pool index)
    (outline : ∀ entity ∈ index.entities, (pass.prepare index entity).entity.outline = entity.outline)
    (fewer : ∀ entity ∈ index.entities,
      ∀ raw ∈ Targets.unresolved (pass.prepare index entity).entity, raw ∈ Targets.unresolved entity) :
    Resolved source (pass.after pool index) := by
  intro entity member raw unresolved order
  obtain ⟨old, present, rfl, _⟩ := succeeds.mem_entities member
  rw [LinkTable.build_congr (Pass.after_catalog outline), entityScope_congr (outline old present)]
  exact resolved old present raw (fewer old present raw unresolved) order

/-- Of what is unresolved, what is found in no other project is left. -/
theorem external_unresolved {inventories : List Inventory} {entity : Entity} {raw : String}
    (member : raw ∈ Targets.unresolved
      (Targets.mapUnresolved (Targets.resolveExternal inventories) entity)) :
    raw ∈ Targets.unresolved entity ∧ Targets.resolveExternal inventories raw = none := by
  obtain ⟨old, among, ⟨none, rfl⟩ | found⟩ := Targets.unresolved_mapUnresolved member
  · exact ⟨among, none⟩
  · cases Targets.resolveExternal_resolved found

/-- What becomes of the links of an entity when their text is filled in. -/
theorem linkText_links {entity : Entity}
    (fine : ((linkText synthesis options).prepare index entity).failure = none)
    (plain : ∀ link ∈ entity.links, link.bare = true →
      LinkText.isPlainText synthesis options.templates.link
        (LinkText.knownIn synthesis.source index) link.target = true) :
    ∀ link ∈ ((linkText synthesis options).prepare index entity).entity.links,
      (∃ bare, ⟨link.target, bare⟩ ∈ entity.links) ∧ (link.bare = true →
        LinkText.Gives (LinkText.textOf synthesis options.templates.link
          (LinkText.knownIn synthesis.source index)) link.target [] none) := by
  obtain ⟨depth, filled, complete⟩ := LinkText.apply_fine fine
  have links := LinkText.fill_links complete fun link among bare => by
    have own := plain link among bare
    refine ⟨_, _, LinkText.filledText_gives own depth, ?_⟩
    simpa [LinkText.isPlainText] using own
  rw [← filled] at links
  intro link among
  exact ⟨(links link among).1, fun bare => LinkText.filledText_silent_iff.mp ((links link among).2 bare)⟩

theorem linkText_outline (markup : ∀ text, ∀ entity ∈ synthesis.read text, IsMarkup entity)
    (index : Index) (entity : Entity) :
    ((linkText synthesis options).prepare index entity).entity.outline = entity.outline :=
  LinkText.apply_outline markup _ _ entity

theorem linkText_fills (markup : ∀ text, ∀ entity ∈ synthesis.read text, IsMarkup entity)
    (succeeds : (linkText synthesis options).Succeeds pool index)
    (plain : ∀ entity ∈ index.entities, ∀ link ∈ entity.links, link.bare = true →
      LinkText.isPlainText synthesis options.templates.link
        (LinkText.knownIn synthesis.source index) link.target = true) :
    Filled synthesis options.templates.link ((linkText synthesis options).after pool index) := by
  intro entity member link among bare
  obtain ⟨old, present, rfl, fine⟩ := succeeds.mem_entities member
  rw [LinkText.knownIn_congr (Pass.after_catalog fun entity _ => linkText_outline markup index entity)]
  exact (linkText_links fine (plain old present) link among).2 bare

/-- A run in which nothing fails leaves nothing to do but for anchors. -/
theorem passes_stable (markup : ∀ text, ∀ entity ∈ synthesis.read text, IsMarkup entity)
    (regular : Regular synthesis options pool index order)
    (succeed : AllSucceed pool index (passes synthesis options order)) :
    Stable synthesis options (indexAfter pool index (passes synthesis options order)) := by
  obtain ⟨excluded, headed, anchored, internal, external, filled, _⟩ := succeed
  obtain ⟨titled, direct, plain⟩ := regular
  simp only [passes, List.take, indexAfter, List.foldl_cons, List.foldl_nil] at titled direct plain ⊢
  have settled := exclusion_settles excluded
  generalize (exclusion synthesis options).after pool index = first at *
  have kept := headings_settle markup headed titled settled
  generalize (headings synthesis options).after pool first = second at *
  replace kept := outline_keeps anchored (fun entity _ => Anchors.apply_outline entity) kept
  generalize Anchors.pass.after pool second = third at *
  replace kept := outline_keeps internal (fun entity _ => Targets.mapUnresolved_outline _ entity) kept
  have resolved := internal_resolves internal direct
  generalize (Targets.internalPass synthesis.source order).after pool third = fourth at *
  replace kept := outline_keeps external (fun entity _ => Targets.mapUnresolved_outline _ entity) kept
  replace resolved := resolved.after external (fun entity _ => Targets.mapUnresolved_outline _ entity)
    fun entity _ raw unresolved => (external_unresolved unresolved).1
  have outside : ResolvedOutside options.inventories
      ((Targets.externalPass synthesis.source options.inventories).after pool fourth) := by
    intro entity member raw unresolved
    obtain ⟨old, _, rfl, _⟩ := external.mem_entities member
    exact (external_unresolved unresolved).2
  generalize (Targets.externalPass synthesis.source options.inventories).after pool fourth = fifth at *
  have outline (entity : Entity) :
      ((linkText synthesis options).prepare fifth entity).entity.outline = entity.outline :=
    linkText_outline markup fifth entity
  have fewer : ∀ entity ∈ fifth.entities, ∀ raw ∈ Targets.unresolved
      ((linkText synthesis options).prepare fifth entity).entity, raw ∈ Targets.unresolved entity := by
    intro entity member raw unresolved
    obtain ⟨link, among, target⟩ := Targets.mem_unresolved.mp unresolved
    obtain ⟨⟨bare, before⟩, _⟩ := linkText_links (filled entity member).2 (plain entity member) link among
    exact Targets.mem_unresolved.mpr ⟨_, before, target⟩
  replace kept := outline_keeps filled (fun entity _ => outline entity) kept
  refine ⟨fun entity member => (kept entity member).1, fun entity member => (kept entity member).2,
    resolved.after filled (fun entity _ => outline entity) fewer, ?_,
    linkText_fills markup filled plain⟩
  intro entity member raw unresolved
  obtain ⟨old, present, rfl, _⟩ := filled.mem_entities member
  exact outside old present raw (fewer old present raw unresolved)

/-- The index with anchors made from the headings as they are now. -/
def anchored (index : Index) : Index :=
  { index with entities := index.entities.map Anchors.apply }

theorem anchored_catalog (index : Index) :
    catalogAll (anchored index).entities = catalogAll index.entities :=
  Entity.catalogAll_congr (Entity.forall₂_map fun entity _ => Anchors.apply_outline entity)

/-- Anchors give no other pass anything to do. -/
theorem Stable.anchored (stable : Stable synthesis options index) :
    Stable synthesis options (anchored index) := by
  have unresolved {entity : Entity} {raw : String}
      (member : raw ∈ Targets.unresolved (Anchors.apply entity)) : raw ∈ Targets.unresolved entity := by
    rwa [Targets.mem_unresolved, Anchors.apply_links, ← Targets.mem_unresolved] at member
  refine ⟨?_, ?_, ?_, ?_, ?_⟩
  · intro entity member
    obtain ⟨old, present, rfl⟩ := List.mem_map.mp member
    exact (stable.settled old present).congr (Anchors.apply_outline old)
  · intro entity member
    obtain ⟨old, present, rfl⟩ := List.mem_map.mp member
    rw [← Headings.headed_outline, Anchors.apply_outline, Headings.headed_outline]
    exact stable.headed old present
  · intro entity member raw among order
    obtain ⟨old, present, rfl⟩ := List.mem_map.mp member
    rw [LinkTable.build_congr (anchored_catalog index), entityScope_congr (Anchors.apply_outline old)]
    exact stable.resolved old present raw (unresolved among) order
  · intro entity member raw among
    obtain ⟨old, present, rfl⟩ := List.mem_map.mp member
    exact stable.outside old present raw (unresolved among)
  · intro entity member link among bare
    obtain ⟨old, present, rfl⟩ := List.mem_map.mp member
    rw [LinkText.knownIn_congr (anchored_catalog index)]
    rw [Anchors.apply_links] at among
    exact stable.filled old present link among bare

/-- In a stable index all passes but that for anchors leave every entity, and none fails. -/
theorem Stable.passes_eq (stable : Stable synthesis options index)
    (runs : ∀ entity ∈ index.entities, pool.fate = .run) (order : SetOrder) :
    AllSucceed pool index (passes synthesis options order) ∧
      indexAfter pool index (passes synthesis options order) = Pipeline.anchored index := by
  have runsAnchored : ∀ entity ∈ (Pipeline.anchored index).entities, pool.fate = .run := by
    intro entity member
    obtain ⟨old, present, _⟩ := List.mem_map.mp member
    exact runs old present
  have again := stable.anchored
  have made (entity : Entity) (member : entity ∈ index.entities) :
      Headings.synthesize synthesis options.templates.heading 0 entity = (entity, none) :=
    (stable.headed entity member).synthesize_eq 0
  have text (entity : Entity) (member : entity ∈ (Pipeline.anchored index).entities) :
      ((linkText synthesis options).prepare (Pipeline.anchored index) entity).entity = entity ∧
        ((linkText synthesis options).prepare (Pipeline.anchored index) entity).failure = none := by
    have start : ({} : LinkText.Progress).failure = none := rfl
    obtain ⟨same, fine⟩ := LinkText.fill_eq_self (fun link among bare =>
      LinkText.filledText_silent_iff.mpr (again.filled entity member link among bare)) start
    exact LinkText.apply_eq_self same fine
  have anchors : Anchors.pass.Succeeds pool index := fun entity member => ⟨runs entity member, rfl⟩
  have first : (exclusion synthesis options).after pool index = index :=
    Pass.after_eq_self fun entity member => Exclusion.apply_of_settled (stable.settled entity member)
  have second : (headings synthesis options).after pool index = index :=
    Pass.after_eq_self fun entity member => congrArg Prod.fst (made entity member)
  have third : Anchors.pass.after pool index = Pipeline.anchored index :=
    congrArg (fun entities => { index with entities }) anchors.entities
  have fourth : (Targets.internalPass synthesis.source order).after pool (Pipeline.anchored index) =
      Pipeline.anchored index :=
    Pass.after_eq_self fun entity member =>
      Targets.mapUnresolved_eq_self fun raw among => again.resolved entity member raw among order
  have fifth : (Targets.externalPass synthesis.source options.inventories).after pool
      (Pipeline.anchored index) = Pipeline.anchored index :=
    Pass.after_eq_self fun entity member =>
      Targets.mapUnresolved_eq_self (again.outside entity member)
  have sixth : (linkText synthesis options).after pool (Pipeline.anchored index) =
      Pipeline.anchored index :=
    Pass.after_eq_self fun entity member => (text entity member).1
  simp only [passes, AllSucceed, indexAfter, List.foldl_cons, List.foldl_nil, first, second, third,
    fourth, fifth, sixth, and_true]
  refine ⟨fun entity member => ⟨runs entity member, rfl⟩, fun entity member => ⟨runs entity member, ?_⟩,
    anchors, fun entity member => ⟨runsAnchored entity member, rfl⟩,
    fun entity member => ⟨runsAnchored entity member, rfl⟩,
    fun entity member => ⟨runsAnchored entity member, (text entity member).2⟩⟩
  have fault := congrArg Prod.snd (made entity member)
  exact Option.map_eq_none_iff.mpr fault

end Pipeline

end DocComment
