import DocComment.Proofs.Pass.Members
import DocComment.Proofs.Session.Collected
import Mathlib.Data.List.Induction
import Mathlib.Data.List.Pairwise

/-! Lookups across passes. A pass edits entities and leaves the positions of the keys as they are, so
that a key stays registered whatever becomes of its entity. Only exclusion takes an entity away, and
only out of a group; then its key is still registered and nothing is found for it. -/
namespace DocComment

open Index (Exact Indexed Keeps)
open Normalize (groupEntities)

theorem Entity.identities_eq_members (entity : Entity) :
    entity.identities = (entity.members.filterMap key?).map Key.normal := by
  cases kind : entity.isGroup with
  | false =>
    rw [identities, indexKeys_of_single kind, members_of_single kind]
    cases found : entity.key? <;> simp [found]
  | true =>
    cases entity with
    | leaf => cases kind
    | node tag children =>
      cases tag with
      | group => rfl
      | _ => cases kind

/-- No two members of an index have the same key. -/
theorem Index.member_unique {index : Index}
    (distinct : (Entity.identitiesAll index.entities).Nodup) {key : Key} {first second : Entity}
    (one : first ∈ index.members) (other : second ∈ index.members)
    (has : first.hasKey key = true) (also : second.hasKey key = true) : first = second := by
  have all : Entity.identitiesAll index.entities =
      (index.members.filterMap Entity.key?).map Key.normal := by
    rw [members, List.filterMap_flatMap, List.map_flatMap, Entity.identitiesAll]
    exact List.flatMap_congr fun entity _ => entity.identities_eq_members
  rw [all, List.Nodup, List.pairwise_map, List.pairwise_filterMap] at distinct
  by_contra different
  obtain ⟨own, found, same⟩ := Entity.hasKey_iff.mp has
  obtain ⟨own', found', same'⟩ := Entity.hasKey_iff.mp also
  have symmetric : Std.Symm fun left right : Entity => ∀ key, left.key? = some key →
      ∀ key', right.key? = some key' → key.normal ≠ key'.normal :=
    ⟨fun left right differ key held key' held' equal => differ key' held' key held equal.symm⟩
  exact distinct.forall one other different own found own' found' (same.trans same'.symm)

theorem Entity.holder_unique {entities : List Entity} (apart : entities.Pairwise Apart) {key : Key}
    {first second : Entity} (one : first ∈ entities) (other : second ∈ entities)
    (has : key ∈ first.identities) (also : key ∈ second.identities) : first = second := by
  by_contra different
  have symmetric : Std.Symm Apart := ⟨fun _ _ => Apart.symm⟩
  exact apart.forall one other different key has also

inductive PassName where
  | exclusion
  | headings
  | anchors
  | internalLinks
  | externalLinks
  | linkText
  deriving Repr, DecidableEq

/-- One call of a pass: with any formatter, options, pool and order of a set, its tasks run in any order. -/
structure PassCall where
  name : PassName
  formatter : Formatter := Formatter.template
  options : PipelineOptions := {}
  pool : Pool := .synchronous
  order : List Nat
  modules : SetOrder := .arrival

namespace PassCall

def pass (source : SourceTree) (call : PassCall) : Pass :=
  let synthesis : Synthesis := ⟨source, Markup.read, call.formatter⟩
  match call.name with
  | .exclusion => Pipeline.exclusion synthesis call.options
  | .headings => Pipeline.headings synthesis call.options
  | .anchors => Anchors.pass
  | .internalLinks => Targets.internalPass source call.modules
  | .externalLinks => Targets.externalPass source call.options.inventories
  | .linkText => Pipeline.linkText synthesis call.options

/-- What a call makes of an index and of the diagnostics. -/
def run (source : SourceTree) (state : Index × Diagnostics) (call : PassCall) : Index × Diagnostics :=
  let (index, diagnostics, _) :=
    (call.pass source).runInOrder source call.pool call.order state.1 state.2
  (index, diagnostics)

def runAll (source : SourceTree) (state : Index × Diagnostics) (calls : List PassCall) :
    Index × Diagnostics :=
  calls.foldl (run source) state

/-- Whether a call takes documentation out of a group: it excludes it, and the pool runs jobs. -/
def drops (source : SourceTree) (call : PassCall) (member : Entity) : Bool :=
  call.name == .exclusion && call.pool.fate == .run &&
    Exclusion.excludes source call.options.exclusion member

variable {source : SourceTree} {calls : List PassCall}

theorem pass_mem (source : SourceTree) (call : PassCall) :
    call.pass source ∈
      Pipeline.passes ⟨source, Markup.read, call.formatter⟩ call.options call.modules := by
  unfold pass Pipeline.passes
  cases call.name <;> simp

/-- The members that a call leaves in a group. -/
theorem prepare_roster (source : SourceTree) (call : PassCall) (index : Index) {entity : Entity}
    (runs : call.pool.fate = .run) (group : entity.isGroup = true) :
    ((call.pass source).prepare index entity).entity.roster =
      entity.roster.filter fun tag => !call.drops source (.node tag []) := by
  have markup := Synthesis.read_markup source call.formatter
  have kept (other : call.name ≠ .exclusion) :
      (entity.roster.filter fun tag => !call.drops source (.node tag [])) = entity.roster := by
    refine List.filter_eq_self.mpr fun tag _ => ?_
    simp [drops, other]
  cases name : call.name with
  | exclusion =>
    simp only [drops, name, runs, pass, Pipeline.exclusion, Exclusion.pass,
      Exclusion.apply_roster group, beq_self_eq_true, Bool.true_and]
  | headings =>
    rw [kept (by simp [name]), pass, name]
    exact Headings.synthesize_roster markup 0 entity
  | anchors =>
    rw [kept (by simp [name]), pass, name]
    exact Entity.roster_congr group (Anchors.apply_outline entity)
  | internalLinks =>
    rw [kept (by simp [name]), pass, name]
    exact Entity.roster_congr group (Targets.mapUnresolved_outline _ entity)
  | externalLinks =>
    rw [kept (by simp [name]), pass, name]
    exact Entity.roster_congr group (Targets.mapUnresolved_outline _ entity)
  | linkText =>
    rw [kept (by simp [name]), pass, name]
    exact Entity.roster_congr group (LinkText.apply_outline markup _ _ entity)

/-- What calls make of an entity: its keys are kept, unless it is a group, which loses the members that
a call drops. -/
structure Follows (source : SourceTree) (calls : List PassCall) (old new : Entity) : Prop where
  group : new.isGroup = old.isGroup
  flat : new.Flat
  single : old.isGroup = false → new.identities = old.identities
  roster : old.isGroup = true →
    new.roster = old.roster.filter fun tag => !calls.any (·.drops source (.node tag []))

theorem Follows.refl {entity : Entity} (flat : entity.Flat) : Follows source [] entity entity :=
  ⟨rfl, flat, fun _ => rfl, fun _ => by simp⟩

/-- A call that runs no job leaves the entity. -/
theorem Follows.idle {old new : Entity} (follows : Follows source calls old new) {call : PassCall}
    (idle : call.pool.fate ≠ .run) : Follows source (calls ++ [call]) old new := by
  refine ⟨follows.group, follows.flat, follows.single, fun group => ?_⟩
  rw [follows.roster group]
  refine List.filter_congr fun tag _ => ?_
  simp [drops, idle]

theorem Follows.step {old new : Entity} (follows : Follows source calls old new) (call : PassCall)
    (runs : call.pool.fate = .run) (index : Index) :
    Follows source (calls ++ [call]) old ((call.pass source).prepare index new).entity := by
  have preserved := prepare_preserved _ (Synthesis.read_markup source call.formatter)
    (pass_mem source call) index follows.flat
  refine ⟨preserved.keeps.group.trans follows.group, preserved.flat, fun single => ?_, fun group => ?_⟩
  · rcases preserved.keeps.all with ⟨_, group⟩ | same
    · rw [preserved.keeps.group, follows.group, single] at group
      cases group
    · rw [same, follows.single single]
  · rw [prepare_roster source call index runs (follows.group.trans group), follows.roster group,
      List.filter_filter]
    refine List.filter_congr fun tag _ => ?_
    simp [List.any_append, Bool.and_comm]

theorem run_follows {state : Index × Diagnostics} {entities : List Entity}
    (follows : List.Forall₂ (Follows source calls) entities state.1.entities) (call : PassCall) :
    List.Forall₂ (Follows source (calls ++ [call])) entities (run source state call).1.entities := by
  change List.Forall₂ _ _ ((call.pass source).entitiesAfter call.pool state.1)
  unfold Pass.entitiesAfter
  cases fate : call.pool.fate with
  | run =>
    rw [List.forall₂_map_right_iff]
    exact follows.imp fun old new before => before.step call fate state.1
  | dropped => exact follows.imp fun old new before => before.idle (by simp [fate])
  | refused => exact follows.imp fun old new before => before.idle (by simp [fate])

/-- Calls edit entities in place. -/
theorem runAll_follows (source : SourceTree) {index : Index} (flat : ∀ entity ∈ index.entities, entity.Flat)
    (calls : List PassCall) (diagnostics : Diagnostics) :
    (runAll source (index, diagnostics) calls).1.positions = index.positions ∧
      List.Forall₂ (Follows source calls) index.entities
        (runAll source (index, diagnostics) calls).1.entities := by
  induction calls using List.reverseRecOn with
  | nil => exact ⟨rfl, List.forall₂_same.mpr fun entity member => .refl (flat entity member)⟩
  | append_singleton before call ih =>
    rw [runAll, List.foldl_append]
    exact ⟨ih.1, run_follows ih.2 call⟩

/-- Documentation with the key is a member of a group and dropped by a call. -/
def Lost (source : SourceTree) (calls : List PassCall) (index : Index) (key : Key) : Prop :=
  ∃ holder ∈ index.entities, holder.isGroup = true ∧
    ∃ member ∈ holder.children, index.find? key = some member ∧
      ∃ call ∈ calls, call.drops source member = true

/-- The keys that are left of an entity. -/
theorem Follows.identities_iff {old new : Entity} (follows : Follows source calls old new)
    (flat : old.Flat) {key : Key} :
    key.normal ∈ new.identities ↔ ∃ member ∈ old.members, member.hasKey key = true ∧
      (old.isGroup = true → ∀ call ∈ calls, call.drops source member = false) := by
  cases kind : old.isGroup with
  | false =>
    rw [follows.single kind, ← Entity.hasKey_of_single kind, Entity.members_of_single kind]
    simp
  | true =>
    have groupNew := follows.group.trans kind
    have named {entity : Entity} (group : entity.isGroup = true) (flat : entity.Flat) :
        key.normal ∈ entity.identities ↔
          ∃ tag ∈ entity.roster, (Entity.node tag []).hasKey key = true := by
      rw [Entity.mem_identities_iff, Entity.members_of_group group]
      simp only [Entity.roster, List.mem_filterMap]
      constructor
      · rintro ⟨member, inside, has⟩
        obtain ⟨tag, same, own⟩ := (Entity.hasKey_iff_stub (flat group member inside)).mp has
        exact ⟨tag, ⟨member, inside, same⟩, own⟩
      · rintro ⟨tag, ⟨member, inside, same⟩, own⟩
        exact ⟨member, inside, (Entity.hasKey_iff_stub (flat group member inside)).mpr ⟨tag, same, own⟩⟩
    have dropped {member : Entity} {tag : Tag} (same : member.stub? = some tag) (call : PassCall) :
        call.drops source (.node tag []) = call.drops source member := by
      rw [drops, drops, Exclusion.excludes_stub same]
    rw [named groupNew follows.flat, follows.roster kind, Entity.members_of_group kind]
    simp only [Entity.roster, List.mem_filter, List.mem_filterMap, Bool.not_eq_eq_eq_not, Bool.not_true,
      List.any_eq_false, Bool.not_eq_true, true_implies]
    constructor
    · rintro ⟨tag, ⟨⟨member, inside, same⟩, kept⟩, own⟩
      exact ⟨member, inside, (Entity.hasKey_iff_stub (flat kind member inside)).mpr ⟨tag, same, own⟩,
        fun call listed => dropped same call ▸ kept call listed⟩
    · rintro ⟨member, inside, has, kept⟩
      obtain ⟨tag, same, own⟩ := (Entity.hasKey_iff_stub (flat kind member inside)).mp has
      exact ⟨tag, ⟨⟨member, inside, same⟩, fun call listed => (dropped same call).trans (kept call listed)⟩,
        own⟩

theorem runAll_reached {index : Index} (reached : Reached source index) (calls : List PassCall)
    (diagnostics : Diagnostics) : Reached source (runAll source (index, diagnostics) calls).1 := by
  induction calls using List.reverseRecOn with
  | nil => exact reached
  | append_singleton before call ih =>
    rw [runAll, List.foldl_append]
    exact .pass ih call.formatter call.options (pass_mem source call) call.pool call.order
      (runAll source (index, diagnostics) before).2

/-- After any calls on an index that was collected, the registered keys are those that were found
before. One is still found if and only if no call dropped its entity from a group. -/
theorem runAll_lookup {index : Index} (collected : Collected source index) (calls : List PassCall)
    (diagnostics : Diagnostics) (key : Key) :
    let after := (runAll source (index, diagnostics) calls).1
    (after.contains key = true ↔ (index.find? key).isSome = true) ∧
      ((after.find? key).isSome = true ↔
        (index.find? key).isSome = true ∧ ¬ Lost source calls index key) := by
  intro after
  have exact := collected.exact
  have sound := collected.reached.sound
  obtain ⟨positions, follows⟩ := runAll_follows source sound.flat calls diagnostics
  have registered : after.contains key = index.contains key := by
    simp only [after, Index.contains, Index.position?, positions]
  refine ⟨by rw [registered, exact.contains_eq], ?_⟩
  have left : (after.find? key).isSome = true ↔
      ∃ old ∈ index.entities, ∃ member ∈ old.members, member.hasKey key = true ∧
        (old.isGroup = true → ∀ call ∈ calls, call.drops source member = false) := by
    rw [(runAll_reached collected.reached calls diagnostics).sound.indexed.find?_isSome]
    constructor
    · rintro ⟨new, present, own⟩
      obtain ⟨old, member, holds⟩ := Index.exists_related follows present
      exact ⟨old, member, (holds.identities_iff (sound.flat old member)).mp own⟩
    · rintro ⟨old, present, kept⟩
      obtain ⟨new, member, holds⟩ := Index.exists_related follows.flip present
      exact ⟨new, member, (holds.identities_iff (sound.flat old present)).mpr kept⟩
  have found {member : Entity} (among : member ∈ index.members) (has : member.hasKey key = true) :
      index.find? key = some member := by
    have some : (index.find? key).isSome = true := by
      rw [exact.find?_eq]
      exact List.find?_isSome.mpr ⟨member, among, has⟩
    obtain ⟨first, same⟩ := Option.isSome_iff_exists.mp some
    have own := exact.find?_eq key ▸ same
    rw [same, Index.member_unique sound.distinct (List.mem_of_find?_eq_some own) among
      (List.find?_some own) has]
  rw [left]
  constructor
  · rintro ⟨old, present, member, inside, has, kept⟩
    have same := found (List.mem_flatMap.mpr ⟨old, present, inside⟩) has
    refine ⟨by rw [same]; rfl, ?_⟩
    rintro ⟨holder, among, group, other, child, same', call, listed, drops⟩
    obtain rfl := Option.some.inj (same.symm.trans same')
    have held : key.normal ∈ holder.identities := Entity.mem_identities_iff.mpr
      ⟨member, by rwa [Entity.members_of_group group], has⟩
    obtain rfl := Entity.holder_unique exact.indexed.apart present among
      (Entity.mem_identities_iff.mpr ⟨member, inside, has⟩) held
    rw [kept group call listed] at drops
    cases drops
  · rintro ⟨some, lost⟩
    obtain ⟨member, same⟩ := Option.isSome_iff_exists.mp some
    have own := exact.find?_eq key ▸ same
    obtain ⟨holder, present, inside⟩ := List.mem_flatMap.mp (List.mem_of_find?_eq_some own)
    refine ⟨holder, present, member, inside, List.find?_some own, fun group call listed => ?_⟩
    rw [Entity.members_of_group group] at inside
    rw [← Bool.not_eq_true]
    exact fun drops => lost ⟨holder, present, group, member, inside, same, call, listed, drops⟩

theorem groupedIndex_collected : Collected groupTree groupedIndex :=
  .normalize (.comments _ _ _ _ _) {}

/-- Exclusion as it is by default, in which private declarations are excluded. -/
def excludePrivate : PassCall :=
  { name := .exclusion, order := [0, 1, 2] }

theorem runAll_lookup_grouped :
    let after := (runAll groupTree (groupedIndex, {}) [excludePrivate]).1
    Collected groupTree groupedIndex ∧
      (after.contains (.declaration 1) = true ↔ (groupedIndex.find? (.declaration 1)).isSome = true) ∧
      ((after.find? (.declaration 1)).isSome = true ↔
        (groupedIndex.find? (.declaration 1)).isSome = true ∧
          ¬ Lost groupTree [excludePrivate] groupedIndex (.declaration 1)) :=
  ⟨groupedIndex_collected, runAll_lookup groupedIndex_collected [excludePrivate] {} (.declaration 1)⟩

/-- The private function leaves its group. Its key stays in the index, and leads to nothing. -/
theorem excluded_member_stays_registered :
    let after := (runAll groupTree (groupedIndex, {}) [excludePrivate]).1
    Collected groupTree groupedIndex ∧ after.contains (.declaration 1) = true ∧
      after.find? (.declaration 1) = none := by
  refine ⟨groupedIndex_collected, ?_⟩
  decide +kernel

end PassCall

end DocComment
