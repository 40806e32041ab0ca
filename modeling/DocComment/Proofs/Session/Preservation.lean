import DocComment.Proofs.Comment.Shape
import DocComment.Proofs.Normalize.Grouping
import DocComment.Proofs.Pass.Identity
import DocComment.Session
import Mathlib.Data.List.Flatten
import Mathlib.Data.List.TakeWhile

/-! What normalization preserves in the indexes of a session. Exclusion can leave a group without
members, which no key leads to any more. Grouping then stops at it, and loses what comes after. -/
namespace DocComment

open Entity (IsMarkup identitiesAll isKeyed)
open Index (Indexed Keeps)
open Normalize (groupKey? groupEntities Survives)

namespace Index

/-- The indexes of a session: groups may have lost members, no key is there twice, and no group is in
a group. -/
structure Sound (index : Index) : Prop where
  indexed : Indexed true index
  distinct : (identitiesAll index.entities).Nodup
  flat : ∀ entity ∈ index.entities, entity.Flat

theorem empty_sound : Sound {} :=
  ⟨empty_indexed true, .nil, by simp⟩

theorem Sound.insert {index grown : Index} {entity : Entity} (sound : Sound index)
    (single : entity.isGroup = false) (inserted : index.insert entity = (grown, none)) : Sound grown := by
  have indexed := sound.indexed.insert inserted
  obtain ⟨_, free, rfl⟩ := insert_eq_ok.mp inserted
  refine ⟨indexed, ?_, fun other member => ?_⟩
  · have once : entity.identities.Nodup := by
      rw [Entity.identities, Entity.indexKeys_of_single single]
      cases entity.key? <;> simp
    rw [Entity.identitiesAll_append]
    refine List.nodup_append.mpr ⟨sound.distinct, by simpa [identitiesAll] using once, ?_⟩
    intro key held other own same
    subst other
    obtain ⟨holder, member, has⟩ := List.mem_flatMap.mp held
    obtain ⟨position, found⟩ := List.getElem?_of_mem member
    have registered := sound.indexed.registered position holder found key has
    obtain ⟨spelled, present, rfl⟩ := List.mem_map.mp
      (show key ∈ entity.identities by simpa [identitiesAll] using own)
    have taken := contains_iff.mpr ⟨position, registered⟩
    rw [free spelled present] at taken
    cases taken
  · rcases List.mem_append.mp member with old | new
    · exact sound.flat other old
    · rw [List.mem_singleton.mp new]
      exact .of_single single

theorem Sound.replace {index : Index} {entities : List Entity} (sound : Sound index)
    (changed : List.Forall₂ (Keeps true) index.entities entities)
    (flat : ∀ entity ∈ entities, entity.Flat) : Sound { index with entities } := by
  have fewer : (identitiesAll entities).Sublist (identitiesAll index.entities) := by
    generalize index.entities = before at changed
    induction changed with
    | nil => exact .slnil
    | cons keeps _ ih => exact keeps.fewer.append (ih fun entity member => flat entity (.tail _ member))
  exact ⟨sound.indexed.replace changed, sound.distinct.sublist fewer, flat⟩

theorem Sound.find?_isSome {index : Index} (sound : Sound index) {key : Key} :
    (index.find? key).isSome = true ↔ key.normal ∈ identitiesAll index.entities := by
  rw [sound.indexed.find?_isSome, identitiesAll, List.mem_flatMap]

end Index

open Index (Sound)

theorem Pool.result_of_outcome {pool : Pool} {task : TaskRun α} (outcome : pool.outcome task = .ok value) :
    task.result = .ok value := by
  unfold Pool.outcome at outcome
  split at outcome
  · cases outcome
  · cases outcome
  · split at outcome
    · cases outcome; assumption
    · cases outcome

/-- Only what a comment is compiled to comes of its task. -/
theorem Collect.commentTask_result {compiler : Comment.Compiler} {tree : SourceTree} {item : Item}
    (result : (commentTask compiler tree item).run.result = .ok entity) :
    compiler.compile tree.lookup? tree item.site item.text = .ok entity := by
  unfold commentTask at result
  cases compiled : compiler.compile tree.lookup? tree item.site item.text with
  | ok found =>
    rw [compiled] at result
    exact congrArg Except.ok (Except.ok.inj result)
  | error =>
    rw [compiled] at result
    cases result

theorem Batch.mem_results {pool : Pool} {tasks : List (WorkItem α)}
    (member : some value ∈ (Batch.mapInOrder pool order diagnostics tasks).1) :
    ∃ task ∈ tasks, task.run.result = .ok value := by
  unfold Batch.mapInOrder at member
  generalize diagnostics.noticeAll (Batch.notices pool order tasks) = current at member
  induction tasks generalizing current with
  | nil => cases member
  | cons task rest ih =>
    rcases List.mem_cons.mp member with own | later
    · refine ⟨task, List.mem_cons_self, ?_⟩
      cases outcome : pool.outcome task.run with
      | ok found =>
        rw [outcome] at own
        obtain rfl := Option.some.inj own
        exact Pool.result_of_outcome outcome
      | error => rw [outcome] at own; cases own
    · obtain ⟨other, present, result⟩ := ih _ later
      exact ⟨other, List.mem_cons_of_mem _ present, result⟩

theorem Index.Sound.collect {index : Index} (sound : Sound index) (diagnostics : Diagnostics)
    (entities : List Entity) (single : ∀ entity ∈ entities, entity.isGroup = false) :
    Sound (Collect.insertAll index diagnostics entities).1 := by
  induction entities generalizing index diagnostics with
  | nil => exact sound
  | cons entity rest ih =>
    have later : ∀ other ∈ rest, other.isGroup = false := fun other member =>
      single other (List.mem_cons_of_mem _ member)
    unfold Collect.insertAll
    split
    · rename_i grown inserted
      exact ih (sound.insert (single entity List.mem_cons_self) inserted) _ later
    · rename_i refused
      exact ih (Index.insert_refused refused ▸ sound) _ later

theorem compile_single {table : Comment.CommandTable} {source : SourceTree} {site : Comment.Site}
    (success : (Comment.Compiler.mk Markup.read table freeFileBinding).compile resolve source site text =
      .ok entity) : entity.isGroup = false := by
  obtain ⟨binding, left, bound, assembled⟩ := Comment.compile_eq_ok success
  obtain ⟨fields, same⟩ := (Comment.assemble_shape (Comment.bound_markup bound) assembled).root
  rw [same]
  cases binding <;> rfl

/-- Indexes that the steps of a session lead to: comments and documents are read, the index is
normalized, and passes run over it, in any order and with any options. -/
inductive Reached (source : SourceTree) : Index → Prop where
  | start : Reached source {}
  | comments (table : Comment.CommandTable) (freeFileBinding : Bool) (pool : Pool) (order : List Nat)
      (diagnostics : Diagnostics) :
    Reached source (Collect.sourceInOrder ⟨Markup.read, table, freeFileBinding⟩ source pool order
      diagnostics).1
  | documents (before : Reached source index) (table : Comment.CommandTable) (freeFileBinding : Bool)
      (sources : List DocumentSource) (pool : Pool) (diagnostics : Diagnostics) :
    Reached source (Collect.documents ⟨Markup.read, table, freeFileBinding⟩ sources pool index
      diagnostics).1
  | normalize (before : Reached source index) (diagnostics : Diagnostics) :
    Reached source (Normalize.run source index diagnostics).1
  | pass {pass : Pass} (before : Reached source index) (formatter : Formatter)
      (options : PipelineOptions) {modules : SetOrder}
      (member : pass ∈ Pipeline.passes ⟨source, Markup.read, formatter⟩ options modules) (pool : Pool)
      (order : List Nat) (diagnostics : Diagnostics) :
    Reached source (pass.runInOrder source pool order index diagnostics).1

theorem Index.Sound.pass {pass : Pass} {index : Index} (sound : Sound index) {formatter : Formatter}
    {options : PipelineOptions} {modules : SetOrder}
    (member : pass ∈ Pipeline.passes ⟨source, Markup.read, formatter⟩ options modules) (pool : Pool)
    (order : List Nat) (diagnostics : Diagnostics) :
    Sound (pass.runInOrder source pool order index diagnostics).1 := by
  have preserved (entity : Entity) (present : entity ∈ index.entities) :
      Entity.Preserved entity (pass.prepare index entity).entity :=
    prepare_preserved ⟨source, Markup.read, formatter⟩ Markup.read_markup member index
      (sound.flat entity present)
  have changed : List.Forall₂ (Keeps true) index.entities
      (index.entities.map fun entity => (pass.prepare index entity).entity) :=
    Entity.forall₂_map fun entity present => (preserved entity present).keeps
  have flat : ∀ new ∈ index.entities.map fun entity => (pass.prepare index entity).entity,
      new.Flat := by
    intro new made
    obtain ⟨entity, present, rfl⟩ := List.mem_map.mp made
    exact (preserved entity present).flat
  have after : Sound { index with entities := pass.entitiesAfter pool index } := by
    unfold Pass.entitiesAfter
    cases pool.fate with
    | run => exact sound.replace changed flat
    | dropped => exact sound
    | refused => exact sound
  exact after

/-- What of an entity matters for grouping. -/
abbrev Profile := List Key × Option Normalize.GroupKey

def profile (source : SourceTree) (entity : Entity) : Profile :=
  (entity.identities, groupKey? source entity)

/-- A change of an entity by the steps before grouping. -/
structure Unmoved (source : SourceTree) (old new : Entity) : Prop where
  keeps : Keeps false old new
  flat : old.Flat → new.Flat
  group : groupKey? source new = groupKey? source old

/-- An index after such steps: nothing moved, and entities were only added at the end. -/
structure Extends (source : SourceTree) (index current : Index) : Prop where
  sound : Sound current
  profiles : index.entities.map (profile source) <+: current.entities.map (profile source)

theorem Extends.refl {index : Index} (sound : Sound index) : Extends source index index :=
  ⟨sound, List.prefix_refl _⟩

theorem Extends.insert {index current grown : Index} {entity : Entity}
    (extended : Extends source index current) (single : entity.isGroup = false)
    (inserted : current.insert entity = (grown, none)) : Extends source index grown := by
  refine ⟨extended.sound.insert single inserted, extended.profiles.trans ?_⟩
  obtain ⟨_, _, rfl⟩ := Index.insert_eq_ok.mp inserted
  rw [List.map_append]
  exact List.prefix_append ..

theorem Extends.replace {index current : Index} {entities : List Entity}
    (extended : Extends source index current)
    (changed : List.Forall₂ (Unmoved source) current.entities entities) :
    Extends source index { current with entities } := by
  have profiles : entities.map (profile source) = current.entities.map (profile source) := by
    generalize current.entities = before at changed
    induction changed with
    | nil => rfl
    | cons unmoved _ ih =>
      simp only [List.map_cons, ih, profile, unmoved.keeps.identities, unmoved.group]
  have flat : ∀ entity ∈ entities, entity.Flat := by
    intro new member
    obtain ⟨old, present, unmoved⟩ := Index.exists_related changed member
    exact unmoved.flat (extended.sound.flat old present)
  have keeps : List.Forall₂ (Keeps true) current.entities entities :=
    changed.imp fun _ _ unmoved => unmoved.keeps.weaken
  exact ⟨extended.sound.replace keeps flat, profiles ▸ extended.profiles⟩

/-- Another list of children changes no group that is asked for. -/
theorem groupKey?_withChildren (source : SourceTree) (entity : Entity) (children : List Entity) :
    groupKey? source (entity.withChildren children) = groupKey? source entity := by
  cases entity with
  | leaf => rfl
  | node tag _ => cases tag <;> rfl

theorem addParts_withChildren (kind : SectionKind) (missing : List DeclId) (entity : Entity) :
    ∃ children, Normalize.addParts kind missing entity = entity.withChildren children := by
  unfold Normalize.addParts
  split
  · exact ⟨entity.children, by cases entity <;> rfl⟩
  · refine ⟨Entity.modifyPart kind (· ++ missing.map Entity.uncommented)
      (entity.ensureSection kind).children, ?_⟩
    cases entity <;> rfl

theorem addSubParts_withChildren (source : SourceTree) (id : DeclId) (entity : Entity) :
    ∃ children, (Normalize.addSubParts source id entity).1 = entity.withChildren children := by
  obtain ⟨first, parameters⟩ := addParts_withChildren .parameters
    (Normalize.missingParts entity .parameters (source.parameters id)) entity
  obtain ⟨second, templates⟩ := addParts_withChildren .requires
    (Normalize.missingParts (entity.withChildren first) .requires (source.templateParameters id))
    (entity.withChildren first)
  refine ⟨second, ?_⟩
  simp only [Normalize.addSubParts, parameters, templates]
  cases entity <;> rfl

theorem modifyFirst_single (condition : Entity → Bool) {change : Entity → Entity}
    (sameSort : ∀ entity, (change entity).isGroup = entity.isGroup) {children : List Entity}
    (single : ∀ child ∈ children, child.isGroup = false) :
    ∀ child ∈ Index.modifyFirst condition change children, child.isGroup = false := by
  induction children with
  | nil => simp [Index.modifyFirst]
  | cons first rest ih =>
    have own := single first List.mem_cons_self
    have later : ∀ child ∈ rest, child.isGroup = false := fun child member =>
      single child (List.mem_cons_of_mem _ member)
    intro child member
    unfold Index.modifyFirst at member
    split at member
    · rcases List.mem_cons.mp member with same | other
      · rw [same, sameSort, own]
      · exact later child other
    · rcases List.mem_cons.mp member with same | other
      · rw [same, own]
      · exact ih later child other

theorem addUncommentedEntities_extends {index : Index} (source : SourceTree) (sound : Sound index) :
    Extends source index (Normalize.addUncommentedEntities source index).1 := by
  refine Normalize.addUncommentedEntities_induction (motive := Extends source index) source
    (fun _ _ _ inserted before => before.insert rfl inserted) (fun current id before => ?_)
    (.refl sound)
  have keeps (entity : Entity) := Normalize.addSubParts_keeps source id entity
  have group (entity : Entity) : groupKey? source (Normalize.addSubParts source id entity).1 =
      groupKey? source entity := by
    obtain ⟨children, same⟩ := addSubParts_withChildren source id entity
    rw [same, groupKey?_withChildren]
  have unmoved : (current.modify (.declaration id) fun present =>
        (Normalize.addSubParts source id present).1).positions = current.positions ∧
      List.Forall₂ (Unmoved source) current.entities
        (current.modify (.declaration id) fun present =>
          (Normalize.addSubParts source id present).1).entities :=
    Index.modify_related current (.declaration id)
    (fun _ => ⟨.of_eq rfl rfl, fun flat => flat, rfl⟩)
    (fun entity single =>
      ⟨(keeps entity).2, fun _ => .of_single ((keeps entity).2.group.trans single), group entity⟩)
    (fun name anchor fields children => ⟨Index.modifyFirst_keeps _ (fun entity => (keeps entity).1) ..,
      fun flat _ => modifyFirst_single _ (fun entity => (keeps entity).2.group) (flat rfl), rfl⟩)
  obtain ⟨positions, changed⟩ := unmoved
  have replaced := before.replace changed
  rw [← positions] at replaced
  exact replaced

theorem addUncommentedModules_extends {index current : Index} (extended : Extends source index current) :
    Extends source index (Normalize.addUncommentedModules current).1 :=
  Normalize.addUncommentedModules_induction (fun _ _ _ inserted before => before.insert rfl inserted)
    extended

theorem ensureRequired_unmoved (source : SourceTree) (entity : Entity) :
    Unmoved source entity (Comment.ensureRequired source entity) := by
  have keeps := (Normalize.ensureRequired_keeps source entity).2
  cases entity with
  | leaf => exact ⟨keeps, id, rfl⟩
  | node tag children =>
    cases tag with
    | group name anchor fields =>
      refine ⟨keeps, fun flat _ child member => ?_, by simp [Comment.ensureRequired, groupKey?]⟩
      simp only [Comment.ensureRequired, Comment.ensureRequiredAll_eq_map] at member
      obtain ⟨original, present, rfl⟩ := List.mem_map.mp member
      rw [(Normalize.ensureRequired_keeps source original).2.group]
      exact flat rfl original present
    | _ =>
      exact ⟨keeps, fun _ => .of_single keeps.group, by simp [Comment.ensureRequired, groupKey?]⟩

theorem addMissingSections_extends {index current : Index} (extended : Extends source index current) :
    Extends source index (Normalize.addMissingSections source current) := by
  refine extended.replace ?_
  rw [Comment.ensureRequiredAll_eq_map]
  exact Entity.forall₂_map fun entity _ => ensureRequired_unmoved source entity

/-- Before grouping, normalization moves nothing. -/
theorem prepared_extends {index : Index} (source : SourceTree) (sound : Sound index) :
    Extends source index (Normalize.addMissingSections source (Normalize.addUncommentedModules
      (Normalize.addUncommentedEntities source index).1).1) :=
  addMissingSections_extends
    (addUncommentedModules_extends (addUncommentedEntities_extends source sound))

theorem run_index (source : SourceTree) (index : Index) (diagnostics : Diagnostics) :
    (Normalize.run source index diagnostics).1 =
      (groupEntities source (Normalize.addMissingSections source (Normalize.addUncommentedModules
        (Normalize.addUncommentedEntities source index).1).1)).1 := by
  unfold Normalize.run
  rfl

theorem Index.Sound.group {index : Index} (sound : Sound index) (source : SourceTree) :
    Sound (groupEntities source index).1 := by
  obtain ⟨kept, _⟩ := Normalize.groupEntities_spec source sound.distinct
  have regrouped := (Normalize.grouped_identities source index.entities).nodup_iff.mpr sound.distinct
  have flat := Normalize.grouped_flat source sound.flat
  have prefix_ := List.takeWhile_sublist (l := Normalize.grouped source index.entities) isKeyed
  refine ⟨(Normalize.groupEntities_exact source index).indexed.weaken, ?_, ?_⟩
  · rw [kept]
    exact regrouped.sublist (prefix_.flatMap Entity.identities)
  · rw [kept]
    exact fun entity member => flat entity (prefix_.subset member)

theorem Index.Sound.normalize {index : Index} (sound : Sound index) (source : SourceTree)
    (diagnostics : Diagnostics) : Sound (Normalize.run source index diagnostics).1 := by
  rw [run_index]
  exact (prepared_extends source sound).sound.group source

theorem Reached.sound (reached : Reached source index) : Sound index := by
  induction reached with
  | start => exact Index.empty_sound
  | comments table freeFileBinding pool order diagnostics =>
    unfold Collect.sourceInOrder
    refine Index.empty_sound.collect _ _ fun entity member => ?_
    obtain ⟨found, present, rfl⟩ := List.mem_filterMap.mp member
    obtain ⟨task, listed, result⟩ := Batch.mem_results present
    obtain ⟨item, _, rfl⟩ := List.mem_map.mp listed
    exact compile_single (Collect.commentTask_result result)
  | documents before table freeFileBinding sources pool diagnostics ih =>
    unfold Collect.documents
    refine ih.collect _ _ fun entity member => ?_
    obtain ⟨found, present, rfl⟩ := List.mem_filterMap.mp member
    obtain ⟨task, listed, result⟩ := Batch.mem_results present
    obtain ⟨document, _, rfl⟩ := List.mem_map.mp listed
    cases result
    rfl
  | normalize before diagnostics ih => exact ih.normalize source diagnostics
  | pass before formatter options member pool order diagnostics ih =>
    exact ih.pass member pool order diagnostics

def Profile.isKeyed (one : Profile) : Bool :=
  !one.1.isEmpty

def SurvivesAmong (profiles : List Profile) (key : Key) : Prop :=
  (∃ one ∈ profiles.takeWhile Profile.isKeyed, key ∈ one.1) ∨
    ∃ one ∈ profiles.dropWhile Profile.isKeyed, key ∈ one.1 ∧
      ∃ group, one.2 = some group ∧
        ∃ other ∈ profiles.takeWhile Profile.isKeyed, other.2 = some group

theorem survives_iff (source : SourceTree) (entities : List Entity) (key : Key) :
    Survives source entities key ↔ SurvivesAmong (entities.map (profile source)) key := by
  have keyed : Profile.isKeyed ∘ profile source = Entity.isKeyed := by
    funext entity
    simp [Profile.isKeyed, profile, Entity.isKeyed, Entity.identities]
  simp only [Survives, SurvivesAmong, List.takeWhile_map, List.dropWhile_map, keyed, List.mem_map,
    identitiesAll, List.mem_flatMap, exists_exists_and_eq_and, profile]

theorem identitiesAll_eq_profiles (source : SourceTree) (entities : List Entity) :
    identitiesAll entities = (entities.map (profile source)).flatMap Prod.fst := by
  rw [List.flatMap_map]
  rfl

theorem survivesAmong_append {profiles added : List Profile} {key : Key}
    (held : ∃ one ∈ profiles, key ∈ one.1) (fresh : ∀ one ∈ added, key ∉ one.1) :
    SurvivesAmong (profiles ++ added) key ↔ SurvivesAmong profiles key := by
  by_cases all : ∀ one ∈ profiles, one.isKeyed = true
  · obtain ⟨one, member, has⟩ := held
    have kept : one ∈ (profiles ++ added).takeWhile Profile.isKeyed := by
      rw [List.takeWhile_append_of_pos all]
      exact List.mem_append_left _ member
    have before : one ∈ profiles.takeWhile Profile.isKeyed := by
      rwa [List.takeWhile_eq_self_iff.mpr all]
    exact iff_of_true (.inl ⟨one, kept, has⟩) (.inl ⟨one, before, has⟩)
  · have stops : (profiles.takeWhile Profile.isKeyed).length ≠ profiles.length := fun same =>
      all (List.takeWhile_eq_self_iff.mp ((List.takeWhile_prefix _).eq_of_length same))
    have rest : profiles.dropWhile Profile.isKeyed ≠ [] := fun none =>
      all (List.dropWhile_eq_nil_iff.mp none)
    have taken : (profiles ++ added).takeWhile Profile.isKeyed = profiles.takeWhile Profile.isKeyed := by
      rw [List.takeWhile_append, if_neg stops]
    have dropped : (profiles ++ added).dropWhile Profile.isKeyed =
        profiles.dropWhile Profile.isKeyed ++ added := by
      rw [List.dropWhile_append, if_neg (by simpa using rest)]
    unfold SurvivesAmong
    rw [taken, dropped]
    refine or_congr_right ⟨?_, ?_⟩
    · rintro ⟨one, member, has, joins⟩
      rcases List.mem_append.mp member with old | new
      · exact ⟨one, old, has, joins⟩
      · exact absurd has (fresh one new)
    · rintro ⟨one, member, has, joins⟩
      exact ⟨one, List.mem_append_left _ member, has, joins⟩

/-- What normalization preserves: grouping succeeds if and only if every entity has a key, and only then
it leaves the index as it was should it fail; what was found before normalization is found after it if
and only if it comes before the first entity without a key or joins a group begun before. -/
theorem Reached.normalize_preserves {index : Index} (reached : Reached source index)
    (diagnostics : Diagnostics) :
    ((∃ count, (groupEntities source index).2 = .ok count) ↔
      ∀ entity ∈ index.entities, entity.indexKeys ≠ []) ∧
    ((∀ problem, (groupEntities source index).2 = .error problem →
        (groupEntities source index).1 = index) ↔
      ∀ entity ∈ index.entities, entity.indexKeys ≠ []) ∧
    ∀ key, (index.find? key).isSome = true →
      (((Normalize.run source index diagnostics).1.find? key).isSome = true ↔
        Survives source index.entities key.normal) := by
  have sound := reached.sound
  simp only [← Entity.isKeyed_iff_indexKeys]
  refine ⟨(Normalize.groupEntities_spec source sound.distinct).2,
    Normalize.groupEntities_restores_iff source sound.distinct, fun key found => ?_⟩
  have extended := prepared_extends source sound
  have after := sound.normalize source diagnostics
  rw [after.find?_isSome, run_index, (Normalize.groupEntities_spec source extended.sound.distinct).1,
    Normalize.grouped_survives, survives_iff, survives_iff]
  obtain ⟨added, same⟩ := extended.profiles
  have distinct := extended.sound.distinct
  rw [identitiesAll_eq_profiles source, ← same, List.flatMap_append] at distinct
  rw [sound.find?_isSome, identitiesAll_eq_profiles source] at found
  rw [← same]
  refine survivesAmong_append (List.mem_flatMap.mp found) fun one new has => ?_
  exact (List.nodup_append.mp distinct).2.2 _ found _ (List.mem_flatMap.mpr ⟨one, new, has⟩) rfl

/-- A private function that begins a group, and a public function after it. -/
def groupTree : SourceTree :=
  ({} : SourceTree).addFile "a.hpp"
    |>.add 0 .function "f" |>.setComment 1 "\\group -g\nOne." |>.setAccess 1 .private_
    |>.add 0 .function "h" |>.setComment 2 "Two."

/-- The comments of the tree, normalized. -/
def groupedIndex : Index :=
  (Normalize.run groupTree
    (Collect.sourceInOrder ⟨Markup.read, Comment.CommandTable.ofCommands [.special .group], false⟩
      groupTree .synchronous [0, 1] {}).1 {}).1

theorem groupedIndex_reached : Reached groupTree groupedIndex :=
  .normalize (.comments _ _ _ _ _) {}

theorem normalize_preserves_grouped :
    Reached groupTree groupedIndex ∧ (groupedIndex.find? (.declaration 1)).isSome = true ∧
      (((Normalize.run groupTree groupedIndex {}).1.find? (.declaration 1)).isSome = true ↔
        Survives groupTree groupedIndex.entities (.declaration 1)) := by
  have found : (groupedIndex.find? (.declaration 1)).isSome = true := by decide +kernel
  exact ⟨groupedIndex_reached, found,
    (groupedIndex_reached.normalize_preserves {}).2.2 (.declaration 1) found⟩

/-- The index once private declarations are excluded: the group is empty. -/
def emptiedIndex : Index :=
  ((Pipeline.exclusion ⟨groupTree, Markup.read, Formatter.template⟩ {}).runInOrder groupTree .synchronous
    [0, 1, 2] groupedIndex {}).1

theorem emptiedIndex_reached : Reached groupTree emptiedIndex :=
  have among : Pipeline.exclusion ⟨groupTree, Markup.read, Formatter.template⟩ {} ∈
      Pipeline.passes ⟨groupTree, Markup.read, Formatter.template⟩ {} :=
    List.mem_cons_self
  .pass groupedIndex_reached Formatter.template {} among .synchronous [0, 1, 2] {}

/-- Excluding the private function leaves its group without members, and the public function is lost. -/
theorem emptied_group_loses_documentation :
    Reached groupTree emptiedIndex ∧
      (groupEntities groupTree emptiedIndex).2 = .error .noIdentity ∧
      (groupEntities groupTree emptiedIndex).1 ≠ emptiedIndex ∧
      (emptiedIndex.find? (.declaration 2)).isSome = true ∧
      ((Normalize.run groupTree emptiedIndex {}).1.find? (.declaration 2)).isSome = false := by
  refine ⟨emptiedIndex_reached, ?_⟩
  decide +kernel

end DocComment
