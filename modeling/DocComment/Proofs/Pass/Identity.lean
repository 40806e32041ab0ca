import DocComment.Pass.LinkText
import DocComment.Pipeline
import DocComment.Proofs.Entity.Tree
import DocComment.Proofs.Index.Identity

namespace DocComment.LinkText

variable {synthesis : Synthesis} {templates : LinkTemplates} {known : Known} {entity : Entity}

theorem filledText_of_none {target : LinkTarget} {progress after : Progress}
    (made : textOf synthesis templates known target progress = (none, after)) (depth : Nat) :
    filledText synthesis templates known (depth + 1) target progress = (none, after) := by
  rw [filledText, made]

theorem filledText_of_some {target : LinkTarget} {progress after : Progress} {content : List Entity}
    (made : textOf synthesis templates known target progress = (some content, after)) (depth : Nat) :
    filledText synthesis templates known (depth + 1) target progress =
      (some (fillAll (filledText synthesis templates known depth) after content).1,
        (fillAll (filledText synthesis templates known depth) after content).2) := by
  rw [filledText, made]

/-- Within a depth there is a run unless text in text gets deeper. -/
theorem runWithin_isSome {depth : Nat} :
    (runWithin synthesis templates known depth entity).isSome = true ↔
      (fill (filledText synthesis templates known (depth + 1)) {} entity).2.failure ≠ some .tooDeep := by
  unfold runWithin
  dsimp only
  split <;> rename_i stopped <;> simp [stopped]

/-- A run leaves what is filled, and fails where that fails. -/
theorem runWithin_eq_some {depth : Nat} {run : PassRun}
    (found : runWithin synthesis templates known depth entity = some run) :
    run.entity = (fill (filledText synthesis templates known (depth + 1)) {} entity).1 ∧
      (run.failure = none ↔
        (fill (filledText synthesis templates known (depth + 1)) {} entity).2.failure = none) := by
  unfold runWithin at found
  dsimp only at found
  split at found
  · rename_i fine
    cases found
    exact ⟨rfl, iff_of_true rfl fine⟩
  · rename_i causes failed
    cases found
    exact ⟨rfl, iff_of_false nofun (by simp [failed])⟩
  · cases found

/-- The search for a depth goes on from twice the depth. -/
theorem depthFrom_eq (start : Nat) : depthFrom synthesis templates known start entity =
    if (runWithin synthesis templates known start entity).isSome then start
    else depthFrom synthesis templates known (2 * start) entity := by
  rw [depthFrom, repeatM_eq_of_monadTail]
  by_cases enough : (runWithin synthesis templates known start entity).isSome = true
  · simp [repeatM.body, enough]
  · simp [repeatM.body, enough, depthFrom]

/-- A pass over an entity is a run within some depth, or there is none at all. -/
theorem apply_cases (synthesis : Synthesis) (templates : LinkTemplates) (known : Known)
    (entity : Entity) :
    (∃ depth, runWithin synthesis templates known depth entity =
      some (apply synthesis templates known entity)) ∨
    apply synthesis templates known entity = endless entity := by
  unfold apply
  split
  · rename_i run found
    exact .inl ⟨usualDepth, found⟩
  · cases found : runWithin synthesis templates known
        (depthFrom synthesis templates known vastDepth entity) entity with
    | none => exact .inr rfl
    | some run => exact .inl ⟨_, found⟩

/-- What a pass leaves of an entity is what is filled at some depth, or the entity as it was. -/
theorem apply_entity (synthesis : Synthesis) (templates : LinkTemplates) (known : Known)
    (entity : Entity) :
    (∃ depth, (apply synthesis templates known entity).entity =
      (fill (filledText synthesis templates known (depth + 1)) {} entity).1) ∨
    (apply synthesis templates known entity).entity = entity := by
  obtain ⟨depth, found⟩ | lost := apply_cases synthesis templates known entity
  · exact .inl ⟨depth, (runWithin_eq_some found).1⟩
  · rw [lost]
    exact .inr rfl

/-- Where a pass does not fail, nothing fails at some depth. -/
theorem apply_fine (fine : (apply synthesis templates known entity).failure = none) :
    ∃ depth, (apply synthesis templates known entity).entity =
        (fill (filledText synthesis templates known (depth + 1)) {} entity).1 ∧
      (fill (filledText synthesis templates known (depth + 1)) {} entity).2.failure = none := by
  obtain ⟨depth, found⟩ | lost := apply_cases synthesis templates known entity
  · obtain ⟨same, failure⟩ := runWithin_eq_some found
    exact ⟨depth, same, failure.mp fine⟩
  · rw [lost] at fine
    cases fine

/-- Where nothing is left to fill and nothing fails, a pass leaves the entity. -/
theorem apply_eq_self
    (same : (fill (filledText synthesis templates known (usualDepth + 1)) {} entity).1 = entity)
    (fine : (fill (filledText synthesis templates known (usualDepth + 1)) {} entity).2.failure = none) :
    (apply synthesis templates known entity).entity = entity ∧
      (apply synthesis templates known entity).failure = none := by
  have ends : (runWithin synthesis templates known usualDepth entity).isSome = true :=
    runWithin_isSome.mpr (by rw [fine]; nofun)
  obtain ⟨run, found⟩ := Option.isSome_iff_exists.mp ends
  obtain ⟨filled, failure⟩ := runWithin_eq_some found
  have applied : apply synthesis templates known entity = run := by
    rw [apply, found]
  rw [applied]
  exact ⟨filled.trans same, failure.mpr fine⟩

end DocComment.LinkText

namespace DocComment

namespace Entity

/-- One entity in place of another that is no group. -/
structure Alike (old new : Entity) : Prop where
  single : new.isGroup = false
  key : new.key? = old.key?

/-- Children in place of others among which there is no group: some are lost, and none has a key
that was not there. -/
structure Shrinks (old new : List Entity) : Prop where
  keys : (new.filterMap key?).Sublist (old.filterMap key?)
  single : ∀ child ∈ new, child.isGroup = false

theorem Shrinks.nil : Shrinks [] [] :=
  ⟨.slnil, by simp⟩

theorem Shrinks.cons (shrinks : Shrinks before after) (alike : Alike old new) :
    Shrinks (old :: before) (new :: after) := by
  refine ⟨?_, by simpa using ⟨alike.single, shrinks.single⟩⟩
  simp only [List.filterMap_cons, alike.key]
  split
  · exact shrinks.keys
  · exact shrinks.keys.cons_cons _

theorem Shrinks.drop (shrinks : Shrinks before after) (old : Entity) :
    Shrinks (old :: before) after := by
  refine ⟨?_, shrinks.single⟩
  simp only [List.filterMap_cons]
  split
  · exact shrinks.keys
  · exact shrinks.keys.cons _

theorem Shrinks.trans (first : Shrinks old middle) (second : Shrinks middle new) : Shrinks old new :=
  ⟨second.keys.trans first.keys, second.single⟩

theorem Shrinks.of_sublist (single : ∀ child ∈ old, child.isGroup = false) (kept : new.Sublist old) :
    Shrinks old new :=
  ⟨kept.filterMap key?, fun child member => single child (kept.subset member)⟩

theorem IsMarkup.isGroup_eq_false (markup : IsMarkup entity) : entity.isGroup = false := by
  cases markup with
  | leaf => rfl
  | @node tag _ plain _ =>
    cases tag with
    | group => cases plain
    | _ => rfl

/-- Markup in front of children has no key. -/
theorem Shrinks.prepend (shrinks : Shrinks old new) (markup : ∀ block ∈ blocks, IsMarkup block) :
    Shrinks old (blocks ++ new) := by
  have none : blocks.filterMap key? = [] :=
    List.filterMap_eq_nil_iff.mpr fun block member => (markup block member).key?_eq_none
  refine ⟨by rw [List.filterMap_append, none]; exact shrinks.keys, fun child member => ?_⟩
  rcases List.mem_append.mp member with front | back
  · exact (markup child front).isGroup_eq_false
  · exact shrinks.single child back

/-- What a pass may make of a top-level entity. -/
structure Preserved (old new : Entity) : Prop where
  keeps : Index.Keeps true old new
  flat : new.Flat

theorem Preserved.of_alike {old new : Entity} (single : old.isGroup = false) (alike : Alike old new) :
    Preserved old new := by
  refine ⟨.of_eq (alike.single.trans single.symm) ?_, .of_single alike.single⟩
  rw [identities, identities, indexKeys_of_single alike.single, indexKeys_of_single single, alike.key]

theorem Preserved.of_shrinks {name id name' id' : String} {old new : List Entity}
    (shrinks : Shrinks old new) :
    Preserved (.node (.group name id fields) old) (.node (.group name' id' fields') new) :=
  ⟨⟨rfl, shrinks.keys.map Key.normal, .inl ⟨rfl, rfl⟩⟩, fun _ => shrinks.single⟩

/-- Tags of one identity. -/
inductive Renamed : Tag → Tag → Prop where
  | same (tag : Tag) : Renamed tag tag
  | link : Renamed (.link target title) (.link target' title)
  | document : Renamed (.document name path anchor) (.document name path anchor')
  | moduleDoc : Renamed (.moduleDoc name anchor fields) (.moduleDoc name anchor' fields')
  | group : Renamed (.group name anchor fields) (.group name' anchor' fields')
  | declaration :
    Renamed (.declaration declared anchor fields) (.declaration declared anchor' fields')

/-- A node keeps its identity, whatever its children. -/
theorem Alike.node {old : List Entity} (renamed : Renamed tag tag')
    (single : (Entity.node tag old).isGroup = false) (new : List Entity) :
    Alike (.node tag old) (.node tag' new) := by
  cases renamed with
  | group => cases single
  | same =>
    cases tag with
    | group => cases single
    | _ => exact ⟨rfl, by simp [key?]⟩
  | _ => exact ⟨rfl, by simp [key?]⟩

/-- A change of nodes that renames tags and shrinks lists of children. -/
theorem Preserved.node {old new : List Entity} (flat : (Entity.node tag old).Flat)
    (renamed : Renamed tag tag')
    (members : (∀ child ∈ old, child.isGroup = false) → Shrinks old new) :
    Preserved (.node tag old) (.node tag' new) := by
  cases kind : (Entity.node tag old).isGroup with
  | false => exact .of_alike kind (.node renamed kind new)
  | true =>
    have shrinks := members (flat kind)
    cases renamed with
    | group => exact .of_shrinks shrinks
    | same =>
      cases tag with
      | group => exact .of_shrinks shrinks
      | _ => cases kind
    | _ => cases kind

end Entity

open Entity (Alike Shrinks Preserved IsMarkup)

namespace Anchors

theorem anchored_renamed (tag : Tag) (children : List Entity) :
    ∃ tag', anchored (.node tag children) = .node tag' children ∧ Entity.Renamed tag tag' := by
  unfold anchored
  split
  · split
    · cases tag with
      | document => exact ⟨_, rfl, .document⟩
      | moduleDoc => exact ⟨_, rfl, .moduleDoc⟩
      | group => exact ⟨_, rfl, .group⟩
      | declaration => exact ⟨_, rfl, .declaration⟩
      | _ => exact ⟨_, rfl, .same _⟩
    · exact ⟨tag, rfl, .same tag⟩
  · exact ⟨tag, rfl, .same tag⟩

theorem apply_alike {entity : Entity} (single : entity.isGroup = false) :
    Alike entity (apply entity) := by
  cases entity with
  | leaf => exact ⟨rfl, rfl⟩
  | node tag children =>
    obtain ⟨tag', same, renamed⟩ := anchored_renamed tag children
    rw [apply, same]
    exact .node renamed single _

theorem applyAll_shrinks {children : List Entity} (single : ∀ child ∈ children, child.isGroup = false) :
    Shrinks children (applyAll children) := by
  induction children with
  | nil => exact .nil
  | cons child rest ih =>
    exact (ih fun other member => single other (List.mem_cons_of_mem _ member)).cons
      (apply_alike (single child List.mem_cons_self))

theorem apply_preserved (flat : entity.Flat) : Preserved entity (apply entity) := by
  cases entity with
  | leaf => exact .of_alike rfl ⟨rfl, rfl⟩
  | node tag children =>
    obtain ⟨tag', same, renamed⟩ := anchored_renamed tag children
    rw [apply, same]
    exact .node flat renamed applyAll_shrinks

end Anchors

namespace Exclusion

variable {source : SourceTree} {options : ExclusionOptions}

theorem setExcluded_renamed (tag : Tag) (children : List Entity) :
    ∃ tag', setExcluded (.node tag children) = .node tag' children ∧ Entity.Renamed tag tag' := by
  cases tag with
  | moduleDoc => exact ⟨_, rfl, .moduleDoc⟩
  | group => exact ⟨_, rfl, .group⟩
  | declaration => exact ⟨_, rfl, .declaration⟩
  | _ => exact ⟨_, rfl, .same _⟩

theorem prune_alike {entity : Entity} (single : entity.isGroup = false) :
    Alike entity (prune source options entity) := by
  cases entity with
  | leaf => exact ⟨rfl, rfl⟩
  | node tag children => exact .node (.same tag) single _

theorem pruneAll_shrinks {children : List Entity} (single : ∀ child ∈ children, child.isGroup = false) :
    Shrinks children (pruneAll source options children) := by
  induction children with
  | nil => exact .nil
  | cons child rest ih =>
    have later := ih fun other member => single other (List.mem_cons_of_mem _ member)
    unfold pruneAll
    split
    · exact later.drop child
    · exact later.cons (prune_alike (single child List.mem_cons_self))

theorem apply_preserved {entity : Entity} (flat : entity.Flat) :
    Preserved entity (apply source options entity) := by
  unfold apply
  split
  · rename_i name id fields children
    have single : ∀ child ∈ children, child.isGroup = false := flat rfl
    split
    · exact .of_shrinks (.of_sublist single (List.nil_sublist _))
    · have kept := Shrinks.of_sublist single
        (List.filter_sublist (p := fun member => !excludes source options member))
      exact .of_shrinks (kept.trans (pruneAll_shrinks kept.single))
  · rename_i noGroup
    have single : entity.isGroup = false := by
      cases entity with
      | leaf => rfl
      | node tag children =>
        cases tag with
        | group name id fields => exact absurd rfl (noGroup name id fields children)
        | _ => rfl
    split
    · cases entity with
      | leaf => exact .of_alike rfl ⟨rfl, rfl⟩
      | node tag children =>
        obtain ⟨tag', same, renamed⟩ := setExcluded_renamed tag children
        rw [same]
        exact .of_alike single (.node renamed single children)
    · exact .of_alike single (prune_alike single)

end Exclusion

namespace Targets

theorem mapUnresolved_renamed (resolve : String → Option LinkTarget) (tag : Tag)
    (children : List Entity) :
    ∃ tag', mapUnresolved resolve (.node tag children) =
      .node tag' (mapUnresolvedAll resolve children) ∧ Entity.Renamed tag tag' := by
  unfold mapUnresolved
  dsimp only
  split
  · exact ⟨_, rfl, .link⟩
  · exact ⟨tag, rfl, .same tag⟩

theorem mapUnresolved_alike (resolve : String → Option LinkTarget) {entity : Entity}
    (single : entity.isGroup = false) : Alike entity (mapUnresolved resolve entity) := by
  cases entity with
  | leaf => exact ⟨rfl, rfl⟩
  | node tag children =>
    obtain ⟨tag', same, renamed⟩ := mapUnresolved_renamed resolve tag children
    rw [same]
    exact .node renamed single _

theorem mapUnresolvedAll_shrinks (resolve : String → Option LinkTarget) {children : List Entity}
    (single : ∀ child ∈ children, child.isGroup = false) :
    Shrinks children (mapUnresolvedAll resolve children) := by
  induction children with
  | nil => exact .nil
  | cons child rest ih =>
    exact (ih fun other member => single other (List.mem_cons_of_mem _ member)).cons
      (mapUnresolved_alike resolve (single child List.mem_cons_self))

theorem mapUnresolved_preserved (resolve : String → Option LinkTarget) {entity : Entity}
    (flat : entity.Flat) : Preserved entity (mapUnresolved resolve entity) := by
  cases entity with
  | leaf => exact .of_alike rfl ⟨rfl, rfl⟩
  | node tag children =>
    obtain ⟨tag', same, renamed⟩ := mapUnresolved_renamed resolve tag children
    rw [same]
    exact .node flat renamed (mapUnresolvedAll_shrinks resolve)

end Targets

namespace LinkText

variable {text : LinkTarget → Progress → Option (List Entity) × Progress}

theorem fill_alike {entity : Entity} (single : entity.isGroup = false) (progress : Progress) :
    Alike entity (fill text progress entity).1 := by
  cases entity with
  | leaf => exact ⟨rfl, rfl⟩
  | node tag children =>
    unfold fill
    dsimp only
    split <;> exact .node (.same tag) single _

theorem fillAll_shrinks {children : List Entity} (single : ∀ child ∈ children, child.isGroup = false)
    (progress : Progress) : Shrinks children (fillAll text progress children).1 := by
  induction children generalizing progress with
  | nil => exact .nil
  | cons child rest ih =>
    exact (ih (fun other member => single other (List.mem_cons_of_mem _ member)) _).cons
      (fill_alike (single child List.mem_cons_self) progress)

theorem fill_preserved {entity : Entity} (flat : entity.Flat) (progress : Progress) :
    Preserved entity (fill text progress entity).1 := by
  cases entity with
  | leaf => exact .of_alike rfl ⟨rfl, rfl⟩
  | node tag children =>
    cases kind : (Entity.node tag children).isGroup with
    | false => exact .of_alike kind (fill_alike kind progress)
    | true =>
      cases tag with
      | group => exact .of_shrinks (fillAll_shrinks (flat kind) progress)
      | _ => cases kind

theorem apply_preserved (synthesis : Synthesis) (templates : LinkTemplates) (known : Known)
    {entity : Entity} (flat : entity.Flat) :
    Preserved entity (apply synthesis templates known entity).entity := by
  obtain ⟨depth, filled⟩ | same := apply_entity synthesis templates known entity
  · rw [filled]
    exact fill_preserved flat {}
  · rw [same]
    exact ⟨.of_eq rfl rfl, flat⟩

end LinkText

namespace Headings

theorem shiftAll_eq_map (depth : Nat) (entities : List Entity) :
    shiftAll depth entities = entities.map (shift depth) := by
  induction entities with
  | nil => rfl
  | cons entity rest ih => simp [shiftAll, ih]

theorem shift_markup (depth : Nat) (markup : IsMarkup entity) : IsMarkup (shift depth entity) := by
  induction markup with
  | leaf => exact .leaf _
  | @node tag inner plain _ ih =>
    have below : ∀ child ∈ shiftAll depth inner, IsMarkup child := by
      rw [shiftAll_eq_map]
      intro child member
      obtain ⟨original, present, rfl⟩ := List.mem_map.mp member
      exact ih original present
    unfold shift
    dsimp only
    split
    · exact .node rfl below
    · exact .node plain below

/-- The blocks of a heading are markup. -/
theorem headingOf_markup {synthesis : Synthesis}
    (markup : ∀ text, ∀ entity ∈ synthesis.read text, IsMarkup entity)
    (success : headingOf synthesis templates depth entity = .ok (blocks, dropped)) :
    ∀ block ∈ blocks, IsMarkup block := by
  unfold headingOf at success
  split at success
  · cases success; simp
  · split at success
    · cases success; simp
    · split at success
      · cases success; simp
      · simp only [bind, Except.bind, pure, Except.pure] at success
        split at success
        · cases success
        · cases success
          intro block member
          rw [shiftAll_eq_map] at member
          obtain ⟨original, present, rfl⟩ := List.mem_map.mp member
          exact shift_markup depth (markup _ original present)

theorem dropParts_sublist (kinds : List SectionKind) (children : List Entity) :
    (Entity.dropParts kinds children).Sublist children := by
  induction children generalizing kinds with
  | nil => exact .slnil
  | cons child rest ih =>
    unfold Entity.dropParts
    split
    · exact (ih kinds).cons_cons child
    · split
      · exact (ih _).cons child
      · exact (ih kinds).cons_cons child

theorem synthesize_alike {synthesis : Synthesis} {templates : HeadingTemplates} {entity : Entity}
    (single : entity.isGroup = false) (depth : Nat) :
    Alike entity (synthesize synthesis templates depth entity).1 := by
  cases entity with
  | leaf => exact ⟨rfl, rfl⟩
  | node tag children =>
    unfold synthesize
    split <;> exact .node (.same tag) single _

theorem synthesizeKept_shrinks {synthesis : Synthesis} {templates : HeadingTemplates}
    {children : List Entity} (single : ∀ child ∈ children, child.isGroup = false) (depth : Nat)
    (dropped : List SectionKind) :
    Shrinks children (synthesizeKept synthesis templates depth dropped children).1 := by
  induction children generalizing dropped with
  | nil => exact .nil
  | cons child rest ih =>
    have later : ∀ other ∈ rest, other.isGroup = false := fun other member =>
      single other (List.mem_cons_of_mem _ member)
    have changed : Alike child (if isVisited child then synthesize synthesis templates depth child
        else (child, none)).1 := by
      split
      · exact synthesize_alike (single child List.mem_cons_self) depth
      · exact ⟨single child List.mem_cons_self, rfl⟩
    unfold synthesizeKept
    split
    · exact (ih later _).drop child
    · generalize (if isVisited child then synthesize synthesis templates depth child
        else (child, none)) = visited at changed ⊢
      obtain ⟨new, fault⟩ := visited
      cases fault with
      | some fault => exact (Shrinks.of_sublist later (dropParts_sublist dropped rest)).cons changed
      | none => exact (ih later dropped).cons changed

theorem synthesize_preserved {synthesis : Synthesis} {templates : HeadingTemplates} {entity : Entity}
    (markup : ∀ text, ∀ entity ∈ synthesis.read text, IsMarkup entity) (flat : entity.Flat)
    (depth : Nat) : Preserved entity (synthesize synthesis templates depth entity).1 := by
  cases entity with
  | leaf => exact .of_alike rfl ⟨rfl, rfl⟩
  | node tag children =>
    unfold synthesize
    split
    · exact .node flat (.same tag) fun single => .of_sublist single (.refl _)
    · rename_i blocks dropped heading
      exact .node flat (.same tag) fun single =>
        (synthesizeKept_shrinks single _ dropped).prepend (headingOf_markup markup heading)

end Headings

/-- Every pass preserves every entity, whatever its options are. -/
theorem prepare_preserved {pass : Pass} (synthesis : Synthesis) {options : PipelineOptions}
    {entity : Entity}
    (markup : ∀ text, ∀ entity ∈ synthesis.read text, IsMarkup entity)
    {order : SetOrder} (member : pass ∈ Pipeline.passes synthesis options order) (index : Index)
    (flat : entity.Flat) :
    Preserved entity (pass.prepare index entity).entity := by
  simp only [Pipeline.passes, List.mem_cons, List.not_mem_nil, or_false] at member
  rcases member with rfl | rfl | rfl | rfl | rfl | rfl
  · exact Exclusion.apply_preserved flat
  · exact Headings.synthesize_preserved markup flat 0
  · exact Anchors.apply_preserved flat
  · exact Targets.mapUnresolved_preserved _ flat
  · exact Targets.mapUnresolved_preserved _ flat
  · exact LinkText.apply_preserved _ _ _ flat

end DocComment
