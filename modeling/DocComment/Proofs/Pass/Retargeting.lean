import DocComment.Proofs.Entity.Tree
import DocComment.Proofs.Pass.Links
import DocComment.Proofs.Pass.Stability

/-! What the passes for links do to an entity, in any order and any number: unresolved targets are replaced,
and nothing else is. What the pass for other projects leaves unresolved it reports, link by link. -/
namespace DocComment

namespace Diagnostics

/-- A sink after some more warnings. -/
def warned (diagnostics : Diagnostics) (texts : List String) : Diagnostics :=
  if diagnostics.warningsAsErrors then
    { diagnostics with
      errors := diagnostics.errors + texts.length
      log := diagnostics.log ++ texts.map fun text => ⟨.error, text⟩ }
  else
    { diagnostics with
      warnings := diagnostics.warnings + texts.length
      log := diagnostics.log ++ texts.map fun text => ⟨.warning, text⟩ }

theorem noticeAll_warnings (texts : List String) (diagnostics : Diagnostics) :
    diagnostics.noticeAll (texts.map .warning) = diagnostics.warned texts := by
  induction texts generalizing diagnostics with
  | nil =>
    obtain ⟨errors, warnings, policy, log⟩ := diagnostics
    cases policy <;> simp [noticeAll, warned]
  | cons text rest ih =>
    have first : diagnostics.noticeAll ((text :: rest).map .warning) =
        (diagnostics.warning text).noticeAll (rest.map .warning) := rfl
    obtain ⟨errors, warnings, policy, log⟩ := diagnostics
    rw [first, ih]
    cases policy <;> simp [warned, warning, error, write, Nat.add_assoc, Nat.add_comm 1]

end Diagnostics

namespace Entity

mutual

/-- Visits the nodes of an entity, each before its children, and carries a state along. -/
def walk (visit : State → Tag → Tag × State) (state : State) : Entity → Entity × State
  | .leaf content => (.leaf content, state)
  | .node tag children =>
    let (changed, next) := visit state tag
    let (inner, last) := walkAll visit next children
    (.node changed inner, last)

def walkAll (visit : State → Tag → Tag × State) (state : State) : List Entity → List Entity × State
  | [] => ([], state)
  | entity :: rest =>
    let (changed, next) := walk visit state entity
    let (others, last) := walkAll visit next rest
    (changed :: others, last)

end

end Entity

namespace Targets

variable {resolve : String → Option LinkTarget} {inventories : List Inventory} {source : SourceTree}

/-- The raw target that a tag is a link to. -/
def rawTarget? : Tag → Option String
  | .link (.unresolved raw) _ => some raw
  | _ => none

/-- The visit of one node: an unresolved target is replaced, or else kept in mind. -/
def visitTarget (resolve : String → Option LinkTarget) (missing : List String) (tag : Tag) :
    Tag × List String :=
  match tag with
  | .link (.unresolved raw) title =>
    match resolve raw with
    | some target => (.link target title, missing)
    | none => (tag, missing ++ [raw])
  | _ => (tag, missing)

/-- A tag after resolving. -/
def settleTag (resolve : String → Option LinkTarget) : Tag → Tag
  | .link target title => .link (settle resolve target) title
  | tag => tag

theorem mapUnresolved_node (tag : Tag) (children : List Entity) :
    mapUnresolved resolve (.node tag children) =
      .node (settleTag resolve tag) (children.map (mapUnresolved resolve)) := by
  cases tag with
  | link target title => exact mapUnresolved_link target title children
  | _ => exact mapUnresolved_other rfl children

theorem unresolved_node (tag : Tag) (children : List Entity) :
    unresolved (.node tag children) = (rawTarget? tag).toList ++ children.flatMap unresolved := by
  unfold unresolved
  rw [Entity.preorder, List.filterMap_cons, Entity.preorderAll_eq_flatMap, List.filterMap_flatMap]
  cases tag with
  | link target _ => cases target <;> rfl
  | _ => rfl

theorem visitTarget_eq (missing : List String) (tag : Tag) : visitTarget resolve missing tag =
    (settleTag resolve tag,
      missing ++ (rawTarget? tag).toList.filter fun raw => (resolve raw).isNone) := by
  cases tag with
  | link target title =>
    cases target with
    | unresolved raw =>
      cases found : resolve raw <;> simp [visitTarget, settleTag, settle, rawTarget?, found]
    | _ => simp [visitTarget, settleTag, settle, rawTarget?]
  | _ => simp [visitTarget, settleTag, rawTarget?]

theorem walkAll_visitTarget {children : List Entity}
    (each : ∀ child ∈ children, ∀ missing, child.walk (visitTarget resolve) missing =
      (mapUnresolved resolve child,
        missing ++ (unresolved child).filter fun raw => (resolve raw).isNone))
    (missing : List String) :
    Entity.walkAll (visitTarget resolve) missing children = (children.map (mapUnresolved resolve),
      missing ++ (children.flatMap unresolved).filter fun raw => (resolve raw).isNone) := by
  induction children generalizing missing with
  | nil => simp [Entity.walkAll]
  | cons child rest ih =>
    have later := ih fun other member => each other (List.mem_cons_of_mem _ member)
    rw [Entity.walkAll, each child List.mem_cons_self]
    simp only [later, List.map_cons, List.flatMap_cons, List.filter_append, List.append_assoc]

/-- The walk that replaces targets ends with what is found nowhere, in preorder. -/
theorem walk_visitTarget (entity : Entity) (missing : List String) :
    entity.walk (visitTarget resolve) missing = (mapUnresolved resolve entity,
      missing ++ (unresolved entity).filter fun raw => (resolve raw).isNone) := by
  induction entity using Entity.treeInduction generalizing missing with
  | leaf content => simp [Entity.walk, mapUnresolved, unresolved, Entity.preorder]
  | node tag children ih =>
    rw [Entity.walk, visitTarget_eq, mapUnresolved_node, unresolved_node]
    simp only [walkAll_visitTarget ih, List.filter_append, List.append_assoc]

/-- Where nothing unresolved is found, what is left is what nothing is found for. -/
theorem unresolved_mapUnresolved_eq (final : ∀ raw inner, resolve raw ≠ some (.unresolved inner))
    (entity : Entity) : unresolved (mapUnresolved resolve entity) =
      (unresolved entity).filter fun raw => (resolve raw).isNone := by
  have own (tag : Tag) : (rawTarget? (settleTag resolve tag)).toList =
      (rawTarget? tag).toList.filter fun raw => (resolve raw).isNone := by
    cases tag with
    | link target title =>
      cases target with
      | unresolved raw =>
        cases found : resolve raw with
        | none => simp [settleTag, settle, rawTarget?, found]
        | some target =>
          cases target with
          | unresolved inner => exact absurd found (final raw inner)
          | _ => simp [settleTag, settle, rawTarget?, found]
      | _ => simp [settleTag, settle, rawTarget?]
    | _ => simp [settleTag, rawTarget?]
  induction entity using Entity.treeInduction with
  | leaf content => rfl
  | node tag children ih =>
    rw [mapUnresolved_node, unresolved_node, unresolved_node, own, List.filter_append, List.flatMap_map,
      List.filter_flatMap, List.flatMap_congr ih]

end Targets

/-- A tag but for a target that was unresolved. -/
def Tag.Retargeted (old new : Tag) : Prop :=
  new = old ∨ ∃ raw target title, old = .link (.unresolved raw) title ∧ new = .link target title

theorem Tag.Retargeted.trans {first second third : Tag} (one : Retargeted first second)
    (two : Retargeted second third) : Retargeted first third := by
  rcases one with rfl | ⟨raw, target, title, rfl, rfl⟩
  · exact two
  · rcases two with rfl | ⟨_, other, _, same, rfl⟩
    · exact .inr ⟨raw, target, title, rfl, rfl⟩
    · cases same
      exact .inr ⟨raw, other, title, rfl, rfl⟩

/-- A pass for links, with what it looks targets up in. -/
inductive LinkPass where
  | internal (table : LinkTable)
  | external (inventories : List Inventory)

namespace LinkPass

open Targets

variable (source : SourceTree)

def run (pass : LinkPass) (entity : Entity) : PassRun :=
  match pass with
  | .internal table => applyInternal source table entity
  | .external inventories => applyExternal source inventories entity

/-- What passes leave of an entity, one after the other. -/
def runs (passes : List LinkPass) (entity : Entity) : Entity :=
  passes.foldl (fun entity pass => (pass.run source entity).entity) entity

theorem settleTag_retargeted (resolve : String → Option LinkTarget) (tag : Tag) :
    tag.Retargeted (settleTag resolve tag) := by
  cases tag with
  | link target title =>
    cases target with
    | unresolved raw => exact .inr ⟨raw, _, title, rfl, rfl⟩
    | _ => exact .inl rfl
  | _ => exact .inl rfl

theorem mapUnresolved_retargeted (resolve : String → Option LinkTarget) (entity : Entity) :
    entity.Retagged Tag.Retargeted (mapUnresolved resolve entity) :=
  Entity.retagged_of_change (fun _ => rfl)
    (fun tag children => ⟨_, settleTag_retargeted resolve tag, mapUnresolved_node tag children⟩) entity

theorem run_retargeted (pass : LinkPass) (entity : Entity) :
    entity.Retagged Tag.Retargeted (pass.run source entity).entity := by
  cases pass with
  | internal => exact mapUnresolved_retargeted _ entity
  | external => exact mapUnresolved_retargeted _ entity

theorem runs_retargeted (passes : List LinkPass) (entity : Entity) :
    entity.Retagged Tag.Retargeted (runs source passes entity) := by
  induction passes generalizing entity with
  | nil => exact Entity.retagged_refl (fun _ => .inl rfl) entity
  | cons pass rest ih => exact (run_retargeted source pass entity).trans .trans (ih _)

/-- Whatever passes for links have run, of the entity there was only unresolved targets have changed. The
pass for other projects then goes once through the tree, replaces what it finds, and gives one warning for
each link that stays unresolved, in preorder. -/
theorem runs_retarget_and_report (passes : List LinkPass) (entity : Entity) (inventories : List Inventory)
    (diagnostics : Diagnostics) :
    let before := runs source passes entity
    let run := applyExternal source inventories before
    let left := unresolved run.entity
    entity.Retagged Tag.Retargeted before ∧
      before.walk (visitTarget (resolveExternal inventories)) [] = (run.entity, left) ∧
      run.failure = none ∧
      diagnostics.noticeAll run.notices = diagnostics.warned (left.map fun raw =>
        entityLabel source run.entity ++ ": unresolved link target '" ++ raw ++ "'") := by
  intro before run left
  refine ⟨runs_retargeted source passes entity, ?_, rfl, ?_⟩
  · have final (raw inner : String) : resolveExternal inventories raw ≠ some (.unresolved inner) := by
      intro found
      cases resolveExternal_resolved found
    rw [walk_visitTarget, List.nil_append, ← unresolved_mapUnresolved_eq final]
    rfl
  · rw [← Diagnostics.noticeAll_warnings, List.map_map]
    rfl

end LinkPass

end DocComment
