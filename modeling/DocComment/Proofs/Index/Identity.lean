import DocComment.Entity.Index
import Mathlib.Data.List.Forall2
import Mathlib.Data.List.Nodup

/-! Identities in an index: the keys of its entities are registered at their positions, each at one
only, and what is registered is backed by an entity. Insertion keeps this, and so does a change of
entities that keeps their keys. -/
namespace DocComment

theorem mem_of_lookup_eq_some [BEq α] [LawfulBEq α] {key : α} {value : β} {entries : List (α × β)}
    (found : entries.lookup key = some value) : (key, value) ∈ entries := by
  obtain ⟨before, after, split, _⟩ := List.lookup_eq_some_iff.mp found
  rw [split]
  exact List.mem_append_right before List.mem_cons_self

namespace Entity

def isGroup : Entity → Bool
  | .node (.group ..) _ => true
  | _ => false

/-- The members of a group are no groups. -/
def Flat (entity : Entity) : Prop :=
  entity.isGroup = true → ∀ child ∈ entity.children, child.isGroup = false

theorem Flat.of_single {entity : Entity} (single : entity.isGroup = false) : entity.Flat := by
  intro group
  rw [single] at group
  cases group

/-- The keys of an entity as they are registered. -/
def identities (entity : Entity) : List Key :=
  entity.indexKeys.map Key.normal

def isKeyed (entity : Entity) : Bool :=
  !entity.indexKeys.isEmpty

def identitiesAll (entities : List Entity) : List Key :=
  entities.flatMap identities

/-- Two entities without a common key. -/
def Apart (first second : Entity) : Prop :=
  ∀ key ∈ first.identities, key ∉ second.identities

theorem Apart.symm {first second : Entity} (apart : first.Apart second) : second.Apart first :=
  fun key own other => apart key other own

theorem apart_of_distinct {entities : List Entity} (distinct : (identitiesAll entities).Nodup) :
    entities.Pairwise Apart :=
  (List.nodup_flatMap.mp distinct).2

theorem isKeyed_iff {entity : Entity} : entity.isKeyed = true ↔ entity.identities ≠ [] := by
  simp [isKeyed, identities]

theorem isKeyed_iff_indexKeys {entity : Entity} : entity.isKeyed = true ↔ entity.indexKeys ≠ [] := by
  simp [isKeyed]

theorem identitiesAll_append (first second : List Entity) :
    identitiesAll (first ++ second) = identitiesAll first ++ identitiesAll second :=
  List.flatMap_append

theorem indexKeys_of_single {entity : Entity} (single : entity.isGroup = false) :
    entity.indexKeys = entity.key?.toList := by
  cases entity with
  | leaf => rfl
  | node tag children =>
    cases tag with
    | group => cases single
    | _ => rfl

theorem hasKey_iff {entity : Entity} {key : Key} :
    entity.hasKey key = true ↔ ∃ own, entity.key? = some own ∧ own.normal = key.normal := by
  simp only [hasKey, Option.any_eq_true, Key.same, beq_iff_eq]
  constructor
  · rintro ⟨own, found, same⟩
    exact ⟨own, found, same.symm⟩
  · rintro ⟨own, found, same⟩
    exact ⟨own, found, same.symm⟩

theorem hasKey_of_single {entity : Entity} {key : Key} (single : entity.isGroup = false) :
    entity.hasKey key = true ↔ key.normal ∈ entity.identities := by
  rw [hasKey_iff, identities, indexKeys_of_single single]
  cases entity.key? <;> simp [eq_comm]

theorem hasKey_of_group {name id : String} {fields : Fields} {children : List Entity} {key : Key} :
    (∃ child ∈ children, child.hasKey key = true) ↔
      key.normal ∈ (Entity.node (.group name id fields) children).identities := by
  simp only [identities, indexKeys, List.mem_map, List.mem_filterMap, hasKey_iff]
  constructor
  · rintro ⟨child, member, own, found, same⟩
    exact ⟨own, ⟨child, member, found⟩, same⟩
  · rintro ⟨own, ⟨child, member, found⟩, same⟩
    exact ⟨child, member, own, found, same⟩

end Entity

namespace Index

/-- Keys and positions agree. In a lossy index a group may have lost keys that it is still registered
under. -/
structure Indexed (lossy : Bool) (index : Index) : Prop where
  registered : ∀ position entity, index.entities[position]? = some entity →
    ∀ key ∈ entity.identities, (key, position) ∈ index.positions
  single : ∀ key first second, (key, first) ∈ index.positions → (key, second) ∈ index.positions →
    first = second
  backed : ∀ key position, (key, position) ∈ index.positions →
    ∃ entity, index.entities[position]? = some entity ∧
      (lossy = true ∧ entity.isGroup = true ∨ key ∈ entity.identities)

variable {lossy : Bool} {index grown : Index}

theorem contains_iff {key : Key} :
    index.contains key = true ↔ ∃ position, (key.normal, position) ∈ index.positions := by
  simp only [contains, position?, List.lookup_isSome_iff, beq_iff_eq]
  constructor
  · rintro ⟨⟨own, position⟩, member, same⟩
    exact ⟨position, same ▸ member⟩
  · rintro ⟨position, member⟩
    exact ⟨_, member, rfl⟩

theorem position?_mem {key : Key} (found : index.position? key = some position) :
    (key.normal, position) ∈ index.positions :=
  mem_of_lookup_eq_some found

theorem Indexed.position? (indexed : Indexed lossy index) {key : Key}
    (member : (key.normal, position) ∈ index.positions) : index.position? key = some position := by
  have present : (index.position? key).isSome = true := contains_iff.mpr ⟨position, member⟩
  obtain ⟨other, found⟩ := Option.isSome_iff_exists.mp present
  rw [found, indexed.single _ _ _ (position?_mem found) member]

theorem empty_indexed (lossy : Bool) : Indexed lossy {} :=
  ⟨fun _ _ found => (by simp at found), fun _ _ _ member => (by cases member),
    fun _ _ member => (by cases member)⟩

theorem Indexed.weaken (indexed : Indexed false index) : Indexed lossy index := by
  refine ⟨indexed.registered, indexed.single, fun key position member => ?_⟩
  obtain ⟨entity, found, backing⟩ := indexed.backed key position member
  exact ⟨entity, found, .inr (backing.resolve_left (by simp))⟩

/-- An entity is inserted if all its keys are new: it is appended and they are registered. -/
theorem insert_eq_ok {entity : Entity} :
    index.insert entity = (grown, none) ↔
      entity.indexKeys ≠ [] ∧ (∀ key ∈ entity.indexKeys, index.contains key = false) ∧
        grown = ⟨index.entities ++ [entity],
          index.positions ++ entity.indexKeys.map fun key => (key.normal, index.size)⟩ := by
  unfold Index.insert
  split
  · rename_i none
    simp [none]
  · rename_i keyed
    have nonempty : entity.indexKeys ≠ [] := fun none => keyed none
    cases taken : entity.indexKeys.find? index.contains with
    | none =>
      have free := List.find?_eq_none.mp taken
      simp only [Bool.not_eq_true] at free
      simp only [Prod.mk.injEq, and_true, nonempty, ne_eq, not_false_eq_true, true_and]
      exact ⟨fun same => ⟨free, same.symm⟩, fun ⟨_, same⟩ => same.symm⟩
    | some key =>
      simp only [Prod.mk.injEq, reduceCtorEq, and_false, false_iff, not_and]
      intro _ free
      have present := List.find?_some taken
      rw [free key (List.mem_of_find?_eq_some taken)] at present
      cases present

/-- A refused entity changes nothing. -/
theorem insert_refused {entity : Entity} (refused : index.insert entity = (grown, some problem)) :
    grown = index := by
  unfold Index.insert at refused
  split at refused
  · exact (Prod.mk.inj refused).1.symm
  · split at refused
    · exact (Prod.mk.inj refused).1.symm
    · cases (Prod.mk.inj refused).2

/-- What holds of an index and is kept by an insertion holds whether or not the entity is refused. -/
theorem insert_induction {motive : Index → Prop} {entity : Entity}
    (step : ∀ grown, index.insert entity = (grown, none) → motive grown) (start : motive index) :
    motive (index.insert entity).1 := by
  cases result : index.insert entity with
  | mk grown refusal =>
    cases refusal with
    | none => exact step grown result
    | some => exact insert_refused result ▸ start

theorem insert_single {entity : Entity} (single : entity.isGroup = false)
    (found : entity.key? = some key) :
    index.insert entity =
      if index.contains key then (index, some (.duplicate key))
      else (⟨index.entities ++ [entity], index.positions ++ [(key.normal, index.size)]⟩, none) := by
  unfold Index.insert
  rw [Entity.indexKeys_of_single single, found]
  cases taken : index.contains key <;> simp [taken]

theorem contains_insert {entity : Entity} (single : entity.isGroup = false)
    (inserted : index.insert entity = (grown, none)) (key : Key) :
    grown.contains key = (index.contains key || entity.hasKey key) := by
  obtain ⟨_, _, rfl⟩ := insert_eq_ok.mp inserted
  rw [Bool.eq_iff_iff, Bool.or_eq_true, contains_iff, contains_iff, Entity.hasKey_of_single single]
  simp only [List.mem_append, Entity.identities, List.mem_map, Prod.mk.injEq]
  constructor
  · rintro ⟨position, before | ⟨own, listed, same, _⟩⟩
    · exact .inl ⟨position, before⟩
    · exact .inr ⟨own, listed, same⟩
  · rintro (⟨position, before⟩ | ⟨own, listed, same⟩)
    · exact ⟨position, .inl before⟩
    · exact ⟨_, .inr ⟨own, listed, same, rfl⟩⟩

theorem Indexed.insert {entity : Entity} (indexed : Indexed lossy index)
    (inserted : index.insert entity = (grown, none)) : Indexed lossy grown := by
  obtain ⟨_, free, same⟩ := insert_eq_ok.mp inserted
  subst grown
  have fresh : ∀ key ∈ entity.identities, ∀ position, (key, position) ∉ index.positions := by
    intro key own position member
    obtain ⟨spelled, present, rfl⟩ := List.mem_map.mp own
    have contained := contains_iff.mpr ⟨position, member⟩
    rw [free spelled present] at contained
    cases contained
  have added : ∀ key position,
      (key, position) ∈ (entity.indexKeys.map fun key => (key.normal, index.size)) ↔
        key ∈ entity.identities ∧ position = index.size := by
    intro key position
    simp only [Entity.identities, List.mem_map, Prod.mk.injEq]
    constructor
    · rintro ⟨spelled, present, same, place⟩
      exact ⟨⟨spelled, present, same⟩, place.symm⟩
    · rintro ⟨⟨spelled, present, same⟩, place⟩
      exact ⟨spelled, present, same, place.symm⟩
  refine ⟨?_, ?_, ?_⟩
  · intro position other found key own
    rw [List.mem_append, added]
    rcases Nat.lt_or_ge position index.entities.length with old | new
    · rw [List.getElem?_append_left old] at found
      exact .inl (indexed.registered position other found key own)
    · have place : position = index.entities.length := by
        have inside := (List.getElem?_eq_some_iff.mp found).1
        simp only [List.length_append, List.length_singleton] at inside
        omega
      subst position
      simp only [List.getElem?_concat_length, Option.some.injEq] at found
      subst other
      exact .inr ⟨own, rfl⟩
  · intro key first second
    rw [List.mem_append, List.mem_append, added, added]
    rintro (old | ⟨own, here⟩) (other | ⟨own', there⟩)
    · exact indexed.single key first second old other
    · exact absurd old (fresh key own' first)
    · exact absurd other (fresh key own second)
    · rw [here, there]
  · intro key position
    rw [List.mem_append, added]
    rintro (old | ⟨own, rfl⟩)
    · obtain ⟨holder, found, backing⟩ := indexed.backed key position old
      have inside := (List.getElem?_eq_some_iff.mp found).1
      exact ⟨holder, by rw [List.getElem?_append_left inside, found], backing⟩
    · exact ⟨entity, by simp [size], .inr own⟩

/-- A change of an entity that keeps its sort and its keys, except that a group may lose some of them
in a lossy index. -/
structure Keeps (lossy : Bool) (old new : Entity) : Prop where
  group : new.isGroup = old.isGroup
  fewer : new.identities.Sublist old.identities
  all : lossy = true ∧ new.isGroup = true ∨ new.identities = old.identities

theorem Keeps.of_eq {old new : Entity} (group : new.isGroup = old.isGroup)
    (same : new.identities = old.identities) : Keeps lossy old new :=
  ⟨group, same ▸ .refl _, .inr same⟩

theorem Keeps.identities {old new : Entity} (keeps : Keeps false old new) :
    new.identities = old.identities :=
  keeps.all.resolve_left (by simp)

theorem Keeps.weaken {old new : Entity} (keeps : Keeps false old new) : Keeps lossy old new :=
  .of_eq keeps.group keeps.identities

/-- Every changed entity comes from one that it is related to. -/
theorem exists_related {related : Entity → Entity → Prop} {entities changed : List Entity}
    (all : List.Forall₂ related entities changed) (member : new ∈ changed) :
    ∃ old ∈ entities, related old new := by
  induction all with
  | nil => cases member
  | cons own _ ih =>
    rcases List.mem_cons.mp member with same | later
    · subst new; exact ⟨_, List.mem_cons_self, own⟩
    · obtain ⟨old, present, holds⟩ := ih later
      exact ⟨old, List.mem_cons_of_mem _ present, holds⟩

/-- Entities that are changed in place stay indexed. -/
theorem Indexed.replace (indexed : Indexed lossy index) {entities : List Entity}
    (changed : List.Forall₂ (Keeps lossy) index.entities entities) :
    Indexed lossy { index with entities } := by
  obtain ⟨lengths, related⟩ := List.forall₂_iff_get.mp changed
  refine ⟨?_, indexed.single, ?_⟩
  · intro position new found key own
    obtain ⟨inside, rfl⟩ := List.getElem?_eq_some_iff.mp found
    have before : position < index.entities.length := lengths ▸ inside
    exact indexed.registered position _ (List.getElem?_eq_getElem before) key
      ((related position before inside).fewer.subset own)
  · intro key position member
    obtain ⟨old, found, backing⟩ := indexed.backed key position member
    obtain ⟨before, rfl⟩ := List.getElem?_eq_some_iff.mp found
    have inside : position < entities.length := lengths ▸ before
    have keeps := related position before inside
    refine ⟨_, List.getElem?_eq_getElem inside, ?_⟩
    rcases backing with ⟨loses, group⟩ | own
    · exact .inl ⟨loses, keeps.group.trans group⟩
    · refine keeps.all.imp id fun same => ?_
      simp only [List.get_eq_getElem] at same
      rw [same]
      exact own

/-- A change to the entity of a key. Of a group it changes a member. -/
theorem modify_related (index : Index) (key : Key) {change : Entity → Entity}
    {related : Entity → Entity → Prop} (unchanged : ∀ entity, related entity entity)
    (changed : ∀ entity, entity.isGroup = false → related entity (change entity))
    (member : ∀ name id fields children, related (.node (.group name id fields) children)
      (.node (.group name id fields) (modifyFirst (·.hasKey key) change children))) :
    (index.modify key change).positions = index.positions ∧
      List.Forall₂ related index.entities (index.modify key change).entities := by
  unfold Index.modify
  split
  · exact ⟨rfl, List.forall₂_same.mpr fun entity _ => unchanged entity⟩
  · rename_i position _
    refine ⟨rfl, List.forall₂_iff_get.mpr ⟨(List.length_modify ..).symm, ?_⟩⟩
    intro place before inside
    simp only [List.get_eq_getElem, List.getElem_modify]
    split
    · generalize index.entities[place] = entity
      cases entity with
      | leaf => exact changed _ rfl
      | node tag children =>
        cases tag with
        | group => exact member ..
        | _ => exact changed _ rfl
    · exact unchanged _

theorem modifyFirst_keys (condition : Entity → Bool) {change : Entity → Entity}
    (sameKey : ∀ entity, (change entity).key? = entity.key?) (children : List Entity) :
    (modifyFirst condition change children).filterMap Entity.key? =
      children.filterMap Entity.key? := by
  induction children with
  | nil => rfl
  | cons child rest ih =>
    unfold modifyFirst
    split
    · simp only [List.filterMap_cons, sameKey]
    · simp only [List.filterMap_cons, ih]

theorem modifyFirst_keeps (condition : Entity → Bool) {change : Entity → Entity}
    (sameKey : ∀ entity, (change entity).key? = entity.key?) (name id : String) (fields : Fields)
    (children : List Entity) :
    Keeps false (.node (.group name id fields) children)
      (.node (.group name id fields) (modifyFirst condition change children)) := by
  refine .of_eq rfl ?_
  simp only [Entity.identities, Entity.indexKeys, modifyFirst_keys condition sameKey]

theorem modify_keeps (index : Index) (key : Key) {change : Entity → Entity}
    (sameKey : ∀ entity, (change entity).key? = entity.key?)
    (keeps : ∀ entity, Keeps false entity (change entity)) :
    (index.modify key change).positions = index.positions ∧
      List.Forall₂ (Keeps false) index.entities (index.modify key change).entities :=
  modify_related index key (fun _ => .of_eq rfl rfl) (fun entity _ => keeps entity)
    (modifyFirst_keeps _ sameKey)

/-- What holds of an index and is kept by insertions holds after insertions until one is refused. -/
theorem insertAll_induction {motive : Index → Prop}
    (step : ∀ index grown entity, index.insert entity = (grown, none) → motive index → motive grown)
    (entities : List Entity) (start : motive index) : motive (insertAll index entities).1 := by
  induction entities generalizing index with
  | nil => exact start
  | cons entity rest ih =>
    unfold insertAll
    split
    · rename_i grown inserted
      exact ih (step index grown entity inserted start)
    · rename_i refused
      exact insert_refused refused ▸ start

/-- Entities without common keys are all inserted, up to the first without a key. -/
theorem insertAll_apart (indexed : Indexed false index) (entities : List Entity)
    (apart : (index.entities ++ entities).Pairwise Entity.Apart) :
    (insertAll index entities).1.entities = index.entities ++ entities.takeWhile Entity.isKeyed ∧
      ((insertAll index entities).2 = none ↔ ∀ entity ∈ entities, entity.isKeyed = true) := by
  induction entities generalizing index with
  | nil => simp [insertAll]
  | cons entity rest ih =>
    by_cases keyed : entity.isKeyed = true
    · have free : ∀ key ∈ entity.indexKeys, index.contains key = false := by
        intro key own
        rw [← Bool.not_eq_true, contains_iff]
        rintro ⟨position, member⟩
        obtain ⟨holder, found, backing⟩ := indexed.backed _ position member
        have parted := (List.pairwise_append.mp apart).2.2 holder (List.mem_of_getElem? found) entity
          List.mem_cons_self
        exact parted key.normal (backing.resolve_left (by simp)) (List.mem_map.mpr ⟨key, own, rfl⟩)
      have inserted := insert_eq_ok.mpr ⟨Entity.isKeyed_iff_indexKeys.mp keyed, free, rfl⟩
      obtain ⟨entities, all⟩ := ih (indexed.insert inserted) (by simpa using apart)
      simp only [insertAll, inserted, entities, all, List.takeWhile_cons, keyed]
      simp [keyed]
    · have none : entity.indexKeys = [] := by simpa [Entity.isKeyed] using keyed
      simp [insertAll, Index.insert, none, keyed]

/-- Every key is registered where an entity has it, and every entity has one. -/
structure Exact (index : Index) : Prop where
  indexed : Indexed false index
  keyed : ∀ entity ∈ index.entities, entity.identities ≠ []

theorem empty_exact : Exact {} :=
  ⟨empty_indexed false, by simp⟩

theorem Exact.insert {entity : Entity} (exact : Exact index)
    (inserted : index.insert entity = (grown, none)) : Exact grown := by
  refine ⟨exact.indexed.insert inserted, ?_⟩
  obtain ⟨nonempty, _, rfl⟩ := insert_eq_ok.mp inserted
  intro other member
  rcases List.mem_append.mp member with old | new
  · exact exact.keyed other old
  · rw [List.mem_singleton.mp new]
    simpa [Entity.identities] using nonempty

theorem Exact.replace {entities : List Entity} (exact : Exact index)
    (changed : List.Forall₂ (Keeps false) index.entities entities) :
    Exact { index with entities } := by
  refine ⟨exact.indexed.replace changed, fun new member => ?_⟩
  obtain ⟨old, present, keeps⟩ := exists_related changed member
  rw [keeps.identities]
  exact exact.keyed old present

theorem rebuild_exact (entities : List Entity) : Exact (rebuild entities).1 :=
  insertAll_induction (fun _ _ _ inserted exact => exact.insert inserted) entities empty_exact

theorem find?_eq {key : Key} {holder : Entity} (place : index.position? key = some position)
    (present : index.entities[position]? = some holder) :
    index.find? key =
      if holder.isGroup then holder.children.find? (·.hasKey key) else some holder := by
  simp only [find?, place, present, Option.bind_eq_bind, Option.bind_some]
  cases holder with
  | leaf => rfl
  | node tag children => cases tag <;> rfl

/-- An entity has its keys, and so has a member of a group. -/
theorem hasKey_of_identities {holder : Entity} {key : Key} (own : key.normal ∈ holder.identities) :
    ∃ entity, (if holder.isGroup then holder.children.find? (·.hasKey key) else some holder) =
      some entity ∧ entity.hasKey key = true := by
  cases kind : holder.isGroup with
  | false => exact ⟨holder, rfl, (Entity.hasKey_of_single kind).mpr own⟩
  | true =>
    cases holder with
    | leaf => cases kind
    | node tag children =>
      cases tag with
      | group =>
        obtain ⟨child, member, has⟩ := Entity.hasKey_of_group.mpr own
        obtain ⟨first, found⟩ := Option.isSome_iff_exists.mp
          (List.find?_isSome.mpr ⟨child, member, has⟩)
        exact ⟨first, found, List.find?_some found⟩
      | _ => cases kind

/-- What a lookup finds has the key, and is found for every key of an entity. -/
theorem Indexed.find?_eq_some (indexed : Indexed lossy index) {key : Key} {entity : Entity}
    (found : index.find? key = some entity) :
    entity.hasKey key = true ∧ ∃ holder ∈ index.entities, key.normal ∈ holder.identities := by
  have bound : ∃ position, index.position? key = some position := by
    simp only [find?, Option.bind_eq_bind, Option.bind_eq_some_iff] at found
    obtain ⟨position, place, _⟩ := found
    exact ⟨position, place⟩
  obtain ⟨position, place⟩ := bound
  obtain ⟨holder, present, backing⟩ := indexed.backed _ _ (position?_mem place)
  have member := List.mem_of_getElem? present
  rw [find?_eq place present] at found
  cases kind : holder.isGroup with
  | true =>
    rw [kind, if_pos rfl] at found
    have has := List.find?_some found
    refine ⟨has, holder, member, ?_⟩
    cases holder with
    | leaf => cases kind
    | node tag children =>
      cases tag with
      | group => exact Entity.hasKey_of_group.mp ⟨entity, List.mem_of_find?_eq_some found, has⟩
      | _ => cases kind
  | false =>
    rw [kind] at found
    obtain rfl := Option.some.inj found
    have own := backing.resolve_left (by simp [kind])
    exact ⟨(Entity.hasKey_of_single kind).mpr own, holder, member, own⟩

theorem Indexed.find?_isSome (indexed : Indexed lossy index) {key : Key} :
    (index.find? key).isSome = true ↔ ∃ entity ∈ index.entities, key.normal ∈ entity.identities := by
  constructor
  · intro some
    obtain ⟨entity, found⟩ := Option.isSome_iff_exists.mp some
    exact (indexed.find?_eq_some found).2
  · rintro ⟨holder, member, own⟩
    obtain ⟨position, present⟩ := List.getElem?_of_mem member
    have place := indexed.position? (indexed.registered position holder present key.normal own)
    obtain ⟨entity, found, _⟩ := hasKey_of_identities own
    rw [find?_eq place present, found]
    rfl

theorem Exact.registered_iff (exact : Exact index) {key : Key} {position : Nat} :
    (key, position) ∈ index.positions ↔
      ∃ entity, index.entities[position]? = some entity ∧ key ∈ entity.identities := by
  constructor
  · intro member
    obtain ⟨entity, found, backing⟩ := exact.indexed.backed key position member
    exact ⟨entity, found, backing.resolve_left (by simp)⟩
  · rintro ⟨entity, found, own⟩
    exact exact.indexed.registered position entity found key own

theorem Exact.contains_eq (exact : Exact index) (key : Key) :
    index.contains key = (index.find? key).isSome := by
  rw [Bool.eq_iff_iff, contains_iff, exact.indexed.find?_isSome]
  simp only [exact.registered_iff]
  constructor
  · rintro ⟨position, entity, found, own⟩
    exact ⟨entity, List.mem_of_getElem? found, own⟩
  · rintro ⟨entity, member, own⟩
    obtain ⟨position, found⟩ := List.getElem?_of_mem member
    exact ⟨position, entity, found, own⟩

end Index

end DocComment
