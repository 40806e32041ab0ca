import DocComment.Proofs.Index.Identity

/-! What lookups find. In an index with exact identities a lookup finds the first member with the key,
where an entity that is no group is its own only member. Entities of one index share no key. -/
namespace DocComment

namespace Entity

/-- What a lookup can find in a top-level entity: the members of a group, or the entity itself. -/
def members : Entity → List Entity
  | .node (.group _ _ _) children => children
  | entity => [entity]

theorem members_of_single {entity : Entity} (single : entity.isGroup = false) :
    entity.members = [entity] := by
  cases entity with
  | leaf => rfl
  | node tag children =>
    cases tag with
    | group => cases single
    | _ => rfl

theorem members_of_group {entity : Entity} (group : entity.isGroup = true) :
    entity.members = entity.children := by
  cases entity with
  | leaf => cases group
  | node tag children =>
    cases tag with
    | group => rfl
    | _ => cases group

/-- An entity is registered under the keys of its members. -/
theorem mem_identities_iff {entity : Entity} {key : Key} :
    key.normal ∈ entity.identities ↔ ∃ member ∈ entity.members, member.hasKey key = true := by
  cases kind : entity.isGroup with
  | false => simp [members_of_single kind, hasKey_of_single kind]
  | true =>
    cases entity with
    | leaf => cases kind
    | node tag children =>
      cases tag with
      | group => exact hasKey_of_group.symm
      | _ => cases kind

/-- The place of an entity that is changed, with what stands before and after it. -/
theorem exists_modify {entities : List Entity} (found : entities[position]? = some entity) :
    ∃ before after, entities = before ++ entity :: after ∧
      ∀ change, entities.modify position change = before ++ change entity :: after := by
  obtain ⟨inside, rfl⟩ := List.getElem?_eq_some_iff.mp found
  refine ⟨entities.take position, entities.drop (position + 1), ?_, fun change => ?_⟩
  · rw [← List.drop_eq_getElem_cons inside, List.take_append_drop]
  · exact List.modify_eq_take_cons_drop inside

theorem hasKey_congr {first second : Entity} (same : first.key? = second.key?) (key : Key) :
    first.hasKey key = second.hasKey key := by
  rw [hasKey, hasKey, same]

end Entity

namespace Index

variable {lossy : Bool} {index grown : Index}

def members (index : Index) : List Entity :=
  index.entities.flatMap Entity.members

theorem members_of_singles (single : ∀ entity ∈ index.entities, entity.isGroup = false) :
    index.members = index.entities := by
  rw [members, ← List.flatMap_singleton' index.entities, List.flatMap_assoc]
  refine List.flatMap_congr fun entity member => ?_
  simp [Entity.members_of_single (single entity member)]

theorem Indexed.apart (indexed : Indexed lossy index) : index.entities.Pairwise Entity.Apart := by
  refine List.pairwise_iff_getElem.mpr fun first second before inside less key own shared => ?_
  have here := indexed.registered first _ (List.getElem?_eq_getElem before) key own
  have there := indexed.registered second _ (List.getElem?_eq_getElem inside) key shared
  have same := indexed.single key _ _ here there
  omega

/-- The entity at a position is the only one with its keys. -/
theorem Indexed.parted (indexed : Indexed lossy index) {holder : Entity}
    (present : index.entities[position]? = some holder) :
    ∃ before after, index.entities = before ++ holder :: after ∧
      (∀ change, index.entities.modify position change = before ++ change holder :: after) ∧
      ∀ other ∈ before ++ after, holder.Apart other := by
  obtain ⟨before, after, parts, modified⟩ := Entity.exists_modify present
  refine ⟨before, after, parts, modified, fun other member => ?_⟩
  have apart := indexed.apart
  rw [parts, List.pairwise_append, List.pairwise_cons] at apart
  obtain ⟨_, ⟨later, _⟩, earlier⟩ := apart
  rcases List.mem_append.mp member with early | late
  · exact (earlier other early holder List.mem_cons_self).symm
  · exact later other late

/-- What is not among the members of the others is found in the one entity that has it. -/
theorem find?_parted {before after : List Entity} {holder : Entity} {key : Key}
    (own : key.normal ∈ holder.identities) (apart : ∀ other ∈ before ++ after, holder.Apart other) :
    ((before ++ holder :: after).flatMap Entity.members).find? (·.hasKey key) =
      holder.members.find? (·.hasKey key) := by
  have none : (before.flatMap Entity.members).find? (·.hasKey key) = none := by
    refine List.find?_eq_none.mpr fun member held has => ?_
    obtain ⟨other, present, inside⟩ := List.mem_flatMap.mp held
    exact apart other (List.mem_append_left _ present) _ own
      (Entity.mem_identities_iff.mpr ⟨member, inside, has⟩)
  obtain ⟨member, inside, has⟩ := Entity.mem_identities_iff.mp own
  have found : (holder.members.find? (·.hasKey key)).isSome = true :=
    List.find?_isSome.mpr ⟨member, inside, has⟩
  obtain ⟨first, same⟩ := Option.isSome_iff_exists.mp found
  simp [List.flatMap_append, List.find?_append, none, same]

theorem Exact.find?_eq (exact : Exact index) (key : Key) :
    index.find? key = index.members.find? (·.hasKey key) := by
  cases place : index.position? key with
  | none =>
    have absent : index.find? key = none := by simp [Index.find?, place]
    rw [absent, eq_comm]
    refine List.find?_eq_none.mpr fun member held has => ?_
    obtain ⟨holder, present, inside⟩ := List.mem_flatMap.mp held
    obtain ⟨position, found⟩ := List.getElem?_of_mem present
    have own := Entity.mem_identities_iff.mpr ⟨member, inside, has⟩
    have registered := exact.indexed.position? (exact.indexed.registered position holder found _ own)
    rw [place] at registered
    cases registered
  | some position =>
    obtain ⟨holder, present, own⟩ := exact.registered_iff.mp (position?_mem place)
    obtain ⟨before, after, parts, _, apart⟩ := exact.indexed.parted present
    rw [Index.find?_eq place present, members, parts, find?_parted own apart]
    cases kind : holder.isGroup with
    | true => rw [if_pos rfl, Entity.members_of_group kind]
    | false =>
      have has := (Entity.hasKey_of_single kind).mpr own
      simp [Entity.members_of_single kind, has]

theorem members_insert {entity : Entity} (inserted : index.insert entity = (grown, none)) :
    grown.members = index.members ++ entity.members := by
  obtain ⟨_, _, rfl⟩ := insert_eq_ok.mp inserted
  simp [members, List.flatMap_append]

/-- A new entity hides none of those that were there. -/
theorem Exact.find?_insert (exact : Exact index) {entity : Entity}
    (inserted : index.insert entity = (grown, none)) (key : Key) :
    grown.find? key = (index.find? key).or (entity.members.find? (·.hasKey key)) := by
  rw [(exact.insert inserted).find?_eq, exact.find?_eq, members_insert inserted, List.find?_append]

theorem modifyFirst_of_none {condition : Entity → Bool} {change : Entity → Entity}
    {entities : List Entity} (none : ∀ entity ∈ entities, condition entity = false) :
    modifyFirst condition change entities = entities := by
  induction entities with
  | nil => rfl
  | cons entity rest ih =>
    rw [modifyFirst, none entity List.mem_cons_self,
      ih fun other member => none other (List.mem_cons_of_mem _ member)]
    rfl

theorem modifyFirst_append {condition : Entity → Bool} {change : Entity → Entity}
    (before after : List Entity) : modifyFirst condition change (before ++ after) =
      if before.any condition then modifyFirst condition change before ++ after
      else before ++ modifyFirst condition change after := by
  induction before with
  | nil => rfl
  | cons entity rest ih =>
    by_cases own : condition entity = true
    · simp [modifyFirst, own]
    · rw [Bool.not_eq_true] at own
      rw [List.cons_append, modifyFirst, ih, modifyFirst, List.any_cons, own]
      by_cases later : rest.any condition = true <;> simp [later]

/-- Changes what a lookup of the key finds in a top-level entity. -/
def modifyMember (key : Key) (change : Entity → Entity) : Entity → Entity
  | .node (.group name id fields) children =>
    .node (.group name id fields) (modifyFirst (·.hasKey key) change children)
  | other => change other

theorem modify_eq (found : index.position? key = some position) (change : Entity → Entity) :
    (index.modify key change).entities = index.entities.modify position (modifyMember key change) := by
  simp only [Index.modify, found]
  rfl

theorem members_modifyMember {holder : Entity} {key : Key} (own : key.normal ∈ holder.identities)
    {change : Entity → Entity} (sameSort : ∀ entity, (change entity).isGroup = entity.isGroup) :
    (modifyMember key change holder).members =
      modifyFirst (·.hasKey key) change holder.members := by
  have single (kind : holder.isGroup = false) (alone : modifyMember key change holder = change holder) :
      (modifyMember key change holder).members =
        modifyFirst (·.hasKey key) change holder.members := by
    have has := (Entity.hasKey_of_single kind).mpr own
    rw [alone, Entity.members_of_single kind, Entity.members_of_single ((sameSort holder).trans kind)]
    simp [modifyFirst, has]
  cases holder with
  | leaf => exact single rfl rfl
  | node tag children =>
    cases tag with
    | group => rfl
    | _ => exact single rfl rfl

/-- Modifying the entity of a key changes the first member with the key. -/
theorem Exact.members_modify (exact : Exact index) (key : Key) {change : Entity → Entity}
    (sameSort : ∀ entity, (change entity).isGroup = entity.isGroup) :
    (index.modify key change).members = modifyFirst (·.hasKey key) change index.members := by
  cases place : index.position? key with
  | none =>
    have unchanged : index.modify key change = index := by simp [Index.modify, place]
    rw [unchanged, modifyFirst_of_none]
    intro member held
    rw [← Bool.not_eq_true]
    intro has
    have found : (index.find? key).isSome = true := by
      rw [exact.find?_eq]
      exact List.find?_isSome.mpr ⟨member, held, has⟩
    simp [Index.find?, place] at found
  | some position =>
    obtain ⟨holder, present, own⟩ := exact.registered_iff.mp (position?_mem place)
    obtain ⟨before, after, parts, modified, apart⟩ := exact.indexed.parted present
    have absent : (before.flatMap Entity.members).any (·.hasKey key) = false := by
      refine List.any_eq_false.mpr fun member held has => ?_
      obtain ⟨other, inside, among⟩ := List.mem_flatMap.mp held
      exact apart other (List.mem_append_left _ inside) _ own
        (Entity.mem_identities_iff.mpr ⟨member, among, has⟩)
    have there : holder.members.any (·.hasKey key) = true := by
      simpa using Entity.mem_identities_iff.mp own
    rw [members, modify_eq place, modified, members, parts]
    simp only [List.flatMap_append, List.flatMap_cons, modifyFirst_append, absent, there,
      members_modifyMember own sameSort, Bool.false_eq_true, ↓reduceIte]

theorem modifyFirst_eq_self {condition : Entity → Bool} {change : Entity → Entity} {entity : Entity}
    {entities : List Entity} (found : entities.find? condition = some entity)
    (same : change entity = entity) : modifyFirst condition change entities = entities := by
  induction entities with
  | nil => rfl
  | cons first rest ih =>
    by_cases own : condition first = true
    · rw [List.find?_cons_of_pos own] at found
      obtain rfl := Option.some.inj found
      rw [modifyFirst, if_pos own, same]
    · rw [List.find?_cons_of_neg own] at found
      rw [modifyFirst, if_neg own, ih found]

/-- A change of nothing in what is found for a key changes nothing. -/
theorem modify_eq_self {key : Key} {change : Entity → Entity} {entity : Entity}
    (found : index.find? key = some entity) (same : change entity = entity) :
    index.modify key change = index := by
  cases place : index.position? key with
  | none => simp [Index.find?, place] at found
  | some position =>
    cases present : index.entities[position]? with
    | none => simp [Index.find?, place, present] at found
    | some holder =>
      obtain ⟨before, after, parts, modified⟩ := Entity.exists_modify present
      rw [find?_eq place present] at found
      have unchanged : modifyMember key change holder = holder := by
        cases holder with
        | leaf => obtain rfl := Option.some.inj found; exact same
        | node tag children =>
          cases tag with
          | group name id fields =>
            exact congrArg (Entity.node (.group name id fields)) (modifyFirst_eq_self found same)
          | _ => obtain rfl := Option.some.inj found; exact same
      have entities := modify_eq place change
      rw [modified, unchanged, ← parts] at entities
      have positions : (index.modify key change).positions = index.positions := by
        simp [Index.modify, place]
      cases index
      exact congr (congrArg Index.mk entities) positions

/-- The entity found for the key is changed, all others are found as before. -/
theorem find?_modifyFirst (key other : Key) {change : Entity → Entity}
    (sameKey : ∀ entity, (change entity).key? = entity.key?) (entities : List Entity) :
    (modifyFirst (·.hasKey key) change entities).find? (·.hasKey other) =
      if other.normal = key.normal then (entities.find? (·.hasKey key)).map change
      else entities.find? (·.hasKey other) := by
  induction entities with
  | nil => simp [modifyFirst]
  | cons entity rest ih =>
    by_cases own : entity.hasKey key = true
    · have kept := Entity.hasKey_congr (sameKey entity) other
      by_cases equal : other.normal = key.normal
      · have also : entity.hasKey other = true := by
          rw [Entity.hasKey_iff] at own ⊢
          rwa [equal]
        simp [modifyFirst, own, kept, also, equal]
      · have never : entity.hasKey other = false := by
          rw [← Bool.not_eq_true, Entity.hasKey_iff]
          rintro ⟨spelled, found, same⟩
          obtain ⟨first, found', same'⟩ := Entity.hasKey_iff.mp own
          rw [found] at found'
          obtain rfl := Option.some.inj found'
          exact equal (same.symm.trans same')
        simp [modifyFirst, own, kept, never, equal]
    · by_cases equal : other.normal = key.normal
      · have neither : entity.hasKey other = false := by
          rw [← Bool.not_eq_true, Entity.hasKey_iff, equal, ← Entity.hasKey_iff]
          exact own
        simp only [equal, ↓reduceIte] at ih
        simp [modifyFirst, own, neither, equal, ih]
      · simp only [equal, ↓reduceIte] at ih
        simp [modifyFirst, own, equal, ih, List.find?_cons]

theorem Exact.find?_modify (exact : Exact index) (key other : Key) {change : Entity → Entity}
    (sameKey : ∀ entity, (change entity).key? = entity.key?)
    (keeps : ∀ entity, Keeps false entity (change entity)) :
    (index.modify key change).find? other =
      if other.normal = key.normal then (index.find? key).map change else index.find? other := by
  obtain ⟨positions, changed⟩ := modify_keeps index key sameKey keeps
  have after : Exact (index.modify key change) := by
    have replaced := exact.replace changed
    rwa [← positions] at replaced
  rw [after.find?_eq, exact.members_modify key fun entity => (keeps entity).group,
    find?_modifyFirst key other sameKey, ← exact.find?_eq, ← exact.find?_eq]

end Index

end DocComment
