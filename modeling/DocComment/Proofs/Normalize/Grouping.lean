import DocComment.Proofs.Index.Lookup
import DocComment.Proofs.Normalize.Identity

/-! Grouping. It keeps all identities, and stands each group at the place of its first member. The
rebuild after it stops at the first entity without a key, so that of the entities from there on only
those are kept that join a group begun before. -/
namespace DocComment

namespace Entity

theorem identitiesAll_modify {entities : List Entity} {change : Entity → Entity}
    (found : entities[position]? = some entity)
    (added : (change entity).identities = entity.identities ++ more) :
    (identitiesAll (entities.modify position change)).Perm (identitiesAll entities ++ more) := by
  induction entities generalizing position with
  | nil => cases found
  | cons first rest ih =>
    cases position with
    | zero =>
      obtain rfl := Option.some.inj found
      simp only [List.modify_zero_cons, identitiesAll, List.flatMap_cons, added, List.append_assoc]
      exact (List.perm_append_comm).append_left _
    | succ position =>
      simp only [List.modify_succ_cons, identitiesAll, List.flatMap_cons, List.append_assoc]
      exact (ih found).append_left _

end Entity

namespace Normalize

open Entity (identitiesAll isKeyed)
open Index (Exact)

variable {source : SourceTree}

theorem groupKey?_declaration (asks : groupKey? source entity = some key) :
    ∃ id anchor fields children, entity = .node (.declaration id anchor fields) children := by
  unfold groupKey? at asks
  split at asks
  · exact ⟨_, _, _, _, rfl⟩
  · cases asks

theorem newGroup_identities (name : String) (asks : groupKey? source entity = some key) :
    (newGroup name entity).identities = entity.identities ∧ entity.identities ≠ [] := by
  obtain ⟨id, anchor, fields, children, rfl⟩ := groupKey?_declaration asks
  simp [newGroup, Entity.identities, Entity.indexKeys, Entity.key?]

theorem isKeyed_of_groupKey? (asks : groupKey? source entity = some key) : entity.isKeyed = true :=
  Entity.isKeyed_iff.mpr (newGroup_identities key.1 asks).2

theorem addMember_identities {group : Entity} (isGroup : group.isGroup = true)
    (asks : groupKey? source entity = some key) :
    (addMember entity group).isGroup = true ∧
      (addMember entity group).identities = group.identities ++ entity.identities := by
  obtain ⟨id, anchor, fields, children, rfl⟩ := groupKey?_declaration asks
  cases group with
  | leaf => cases isGroup
  | node tag members =>
    cases tag with
    | group => simp [addMember, Entity.isGroup, Entity.identities, Entity.indexKeys, Entity.key?]
    | _ => cases isGroup

theorem single_of_groupKey? (asks : groupKey? source entity = some key) : entity.isGroup = false := by
  obtain ⟨_, _, _, _, rfl⟩ := groupKey?_declaration asks
  rfl

theorem newGroup_flat (name : String) (asks : groupKey? source entity = some key) :
    (newGroup name entity).Flat := by
  intro _ child member
  rw [List.mem_singleton.mp member]
  exact single_of_groupKey? asks

theorem addMember_flat {group : Entity} (asks : groupKey? source entity = some key)
    (flat : group.Flat) : (addMember entity group).Flat := by
  cases group with
  | leaf => exact flat
  | node tag members =>
    cases tag with
    | group =>
      intro _ child member
      rcases List.mem_append.mp member with old | new
      · exact flat rfl child old
      · rw [List.mem_singleton.mp new]
        exact single_of_groupKey? asks
    | _ => exact flat

namespace Grouping

/-- Slots are the places of groups. -/
def Slots (grouping : Grouping) : Prop :=
  ∀ key position, grouping.slots.lookup key = some position →
    ∃ group, grouping.entities[position]? = some group ∧ group.isGroup = true ∧ group.identities ≠ []

/-- What becomes of an entity: it stays as it is, joins a group, or begins one. -/
theorem add_cases {grouping : Grouping} (slots : grouping.Slots) (source : SourceTree) (entity : Entity) :
    (groupKey? source entity = none ∧
      (grouping.add source entity).entities = grouping.entities ++ [entity] ∧
      (grouping.add source entity).slots = grouping.slots) ∨
    (∃ key position group, groupKey? source entity = some key ∧
      grouping.slots.lookup key = some position ∧ grouping.entities[position]? = some group ∧
      group.isGroup = true ∧
      (grouping.add source entity).entities =
        grouping.entities.modify position (addMember entity) ∧
      (grouping.add source entity).slots = grouping.slots) ∨
    (∃ key, groupKey? source entity = some key ∧ grouping.slots.lookup key = none ∧
      (grouping.add source entity).entities = grouping.entities ++ [newGroup key.1 entity] ∧
      (grouping.add source entity).slots = grouping.slots ++ [(key, grouping.entities.length)]) := by
  cases asks : groupKey? source entity with
  | none => exact .inl ⟨rfl, by simp [Grouping.add, asks]⟩
  | some key =>
    refine .inr ?_
    cases slot : grouping.slots.lookup key with
    | some position =>
      obtain ⟨group, found, isGroup, _⟩ := slots key position slot
      exact .inl ⟨key, position, group, rfl, slot, found, isGroup, by simp [Grouping.add, asks, slot]⟩
    | none => exact .inr ⟨key, rfl, slot, by simp [Grouping.add, asks, slot]⟩

theorem Slots.add {grouping : Grouping} (slots : grouping.Slots) (entity : Entity) :
    (grouping.add source entity).Slots := by
  intro key position found
  rcases add_cases slots source entity with ⟨_, entities, same⟩ |
    ⟨other, place, _, asks, _, _, _, entities, same⟩ | ⟨other, asks, _, entities, same⟩
  · rw [same] at found
    obtain ⟨group, present, holds⟩ := slots key position found
    refine ⟨group, ?_, holds⟩
    rw [entities, List.getElem?_append_left (List.getElem?_eq_some_iff.mp present).1, present]
  · rw [same] at found
    obtain ⟨group, present, isGroup, keyed⟩ := slots key position found
    rw [entities, List.getElem?_modify, present]
    by_cases here : place = position
    · obtain ⟨grown, identities⟩ := addMember_identities isGroup asks
      refine ⟨addMember entity group, by simp [here], grown, ?_⟩
      rw [identities]
      exact List.append_ne_nil_of_left_ne_nil keyed _
    · exact ⟨group, by simp [here], isGroup, keyed⟩
  · rw [same, List.lookup_append, Option.or_eq_some_iff] at found
    rcases found with old | ⟨_, new⟩
    · obtain ⟨group, present, holds⟩ := slots key position old
      refine ⟨group, ?_, holds⟩
      rw [entities, List.getElem?_append_left (List.getElem?_eq_some_iff.mp present).1, present]
    · simp only [List.lookup_cons, List.lookup_nil] at new
      split at new
      · obtain rfl := Option.some.inj new
        obtain ⟨identities, keyed⟩ := newGroup_identities other.1 asks
        exact ⟨newGroup other.1 entity, by rw [entities, List.getElem?_concat_length], rfl,
          identities ▸ keyed⟩
      · cases new

/-- What each step of the grouping keeps, the whole of it keeps. -/
theorem addAll_induction {motive : Grouping → Prop} {grouping : Grouping} (slots : grouping.Slots)
    (entities : List Entity) (step : ∀ current entity, current.Slots → entity ∈ entities →
      motive current → motive (current.add source entity)) (start : motive grouping) :
    motive (entities.foldl (Grouping.add source) grouping) := by
  induction entities generalizing grouping with
  | nil => exact start
  | cons entity rest ih =>
    refine ih (slots.add entity) (fun current other sound member => ?_)
      (step grouping entity slots List.mem_cons_self start)
    exact step current other sound (List.mem_cons_of_mem _ member)

theorem addAll_slots {grouping : Grouping} (slots : grouping.Slots) (source : SourceTree)
    (entities : List Entity) : (entities.foldl (Grouping.add source) grouping).Slots :=
  addAll_induction slots entities (fun _ entity _ _ before => before.add entity) slots

/-- Grouping keeps all identities. -/
theorem add_identities {grouping : Grouping} (slots : grouping.Slots) (source : SourceTree)
    (entity : Entity) :
    (identitiesAll (grouping.add source entity).entities).Perm
      (identitiesAll grouping.entities ++ entity.identities) := by
  rcases add_cases slots source entity with ⟨_, entities, _⟩ |
    ⟨_, place, group, asks, _, found, isGroup, entities, _⟩ | ⟨key, asks, _, entities, _⟩
  · rw [entities, Entity.identitiesAll_append]
    simp [identitiesAll]
  · rw [entities]
    exact Entity.identitiesAll_modify found (addMember_identities isGroup asks).2
  · rw [entities, Entity.identitiesAll_append]
    simp [identitiesAll, (newGroup_identities key.1 asks).1]

theorem addAll_identities {grouping : Grouping} (slots : grouping.Slots) (source : SourceTree)
    (entities : List Entity) :
    (identitiesAll (entities.foldl (Grouping.add source) grouping).entities).Perm
      (identitiesAll grouping.entities ++ identitiesAll entities) := by
  induction entities generalizing grouping with
  | nil => simp [identitiesAll]
  | cons entity rest ih =>
    refine (ih (slots.add entity)).trans ?_
    have step := (add_identities slots source entity).append_right (identitiesAll rest)
    simpa [identitiesAll] using step

/-- Entities that share no key are grouped into some that share none. -/
theorem add_apart {grouping : Grouping} (slots : grouping.Slots) (source : SourceTree)
    (entity : Entity) (rest : List Entity)
    (apart : (grouping.entities ++ entity :: rest).Pairwise Entity.Apart) :
    ((grouping.add source entity).entities ++ rest).Pairwise Entity.Apart := by
  have symmetric : ∀ {first second : Entity}, first.Apart second → second.Apart first :=
    Entity.Apart.symm
  rcases add_cases slots source entity with ⟨_, entities, _⟩ |
    ⟨_, place, group, asks, _, found, isGroup, entities, _⟩ | ⟨key, asks, _, entities, _⟩
  · rw [entities]
    simpa using apart
  · obtain ⟨before, after, parts, modified⟩ := Entity.exists_modify found
    obtain ⟨_, identities⟩ := addMember_identities isGroup asks
    rw [entities, modified]
    rw [parts] at apart
    have moved : ((before ++ group :: after) ++ entity :: rest).Perm
        (group :: entity :: (before ++ after ++ rest)) := by
      have front : (before ++ group :: (after ++ rest)).Perm (group :: (before ++ (after ++ rest))) :=
        List.perm_middle
      refine (List.perm_middle).trans ?_
      simpa using (front.cons entity).trans (.swap ..)
    have parted := (moved.pairwise_iff symmetric).mp apart
    have joined : ((before ++ addMember entity group :: after) ++ rest).Perm
        (addMember entity group :: (before ++ after ++ rest)) := by
      simp
    refine (joined.pairwise_iff symmetric).mpr ?_
    simp only [List.pairwise_cons] at parted ⊢
    obtain ⟨fromGroup, fromEntity, others⟩ := parted
    refine ⟨fun other member key own => ?_, others⟩
    rw [identities] at own
    rcases List.mem_append.mp own with old | new
    · exact fromGroup other (List.mem_cons_of_mem _ member) key old
    · exact fromEntity other member key new
  · obtain ⟨identities, _⟩ := newGroup_identities key.1 asks
    rw [entities, List.append_assoc]
    simp only [List.pairwise_append, List.pairwise_cons, List.singleton_append] at apart ⊢
    simpa only [Entity.Apart, List.mem_cons, forall_eq_or_imp, identities] using apart

theorem addAll_apart {grouping : Grouping} (slots : grouping.Slots) (source : SourceTree)
    (entities : List Entity) (apart : (grouping.entities ++ entities).Pairwise Entity.Apart) :
    (entities.foldl (Grouping.add source) grouping).entities.Pairwise Entity.Apart := by
  induction entities generalizing grouping with
  | nil => simpa using apart
  | cons entity rest ih => exact ih (slots.add entity) (add_apart slots source entity rest apart)

/-- A slot for every group that an entity asks for, and for no other. -/
theorem addAll_slot_isSome {grouping : Grouping} (slots : grouping.Slots) (entities : List Entity)
    (key : GroupKey) :
    ((entities.foldl (Grouping.add source) grouping).slots.lookup key).isSome = true ↔
      (grouping.slots.lookup key).isSome = true ∨
        ∃ entity ∈ entities, groupKey? source entity = some key := by
  induction entities generalizing grouping with
  | nil => simp
  | cons entity rest ih =>
    rw [List.foldl_cons, ih (slots.add entity)]
    have step : ((grouping.add source entity).slots.lookup key).isSome = true ↔
        (grouping.slots.lookup key).isSome = true ∨ groupKey? source entity = some key := by
      rcases add_cases slots source entity with ⟨asks, _, same⟩ |
        ⟨other, place, group, asks, slot, _, _, _, same⟩ | ⟨other, asks, fresh, _, same⟩
      · simp [same, asks]
      · rw [same, asks, Option.some.injEq]
        refine ⟨.inl, ?_⟩
        rintro (old | rfl)
        · exact old
        · rw [slot]; rfl
      · have added : ([(other, grouping.entities.length)].lookup key).isSome = true ↔ other = key := by
          by_cases equal : key = other
          · simp [equal]
          · simp [equal, Ne.symm equal]
        rw [same, asks, List.lookup_append, Option.isSome_or, Bool.or_eq_true, added,
          Option.some.injEq]
    rw [step]
    simp [or_assoc]

/-- A key that an entity before a position has. -/
def HeldBefore (bound : Nat) (entities : List Entity) (key : Key) : Prop :=
  ∃ position entity, position < bound ∧ entities[position]? = some entity ∧ key ∈ entity.identities

/-- Whether an entity asks for a group that stands before a position. -/
def JoinsBefore (source : SourceTree) (bound : Nat) (grouping : Grouping) (entity : Entity) : Prop :=
  ∃ key position, groupKey? source entity = some key ∧ grouping.slots.lookup key = some position ∧
    position < bound

theorem heldBefore_append (bound : Nat) {entities : List Entity} (inside : bound ≤ entities.length)
    (added : List Entity) (key : Key) :
    HeldBefore bound (entities ++ added) key ↔ HeldBefore bound entities key := by
  unfold HeldBefore
  refine exists_congr fun position => exists_congr fun entity => and_congr_right fun before => ?_
  rw [List.getElem?_append_left (Nat.lt_of_lt_of_le before inside)]

theorem heldBefore_length {entities : List Entity} {key : Key} :
    HeldBefore entities.length entities key ↔ key ∈ identitiesAll entities := by
  simp only [HeldBefore, identitiesAll, List.mem_flatMap]
  constructor
  · rintro ⟨position, entity, _, found, own⟩
    exact ⟨entity, List.mem_of_getElem? found, own⟩
  · rintro ⟨entity, member, own⟩
    obtain ⟨position, found⟩ := List.getElem?_of_mem member
    exact ⟨position, entity, (List.getElem?_eq_some_iff.mp found).1, found, own⟩

theorem joinsBefore_length {grouping : Grouping} (slots : grouping.Slots) {entity : Entity} :
    JoinsBefore source grouping.entities.length grouping entity ↔
      ∃ key, groupKey? source entity = some key ∧ (grouping.slots.lookup key).isSome = true := by
  refine exists_congr fun key => ?_
  constructor
  · rintro ⟨position, asks, slot, _⟩
    exact ⟨asks, by rw [slot]; rfl⟩
  · rintro ⟨asks, present⟩
    obtain ⟨position, slot⟩ := Option.isSome_iff_exists.mp present
    obtain ⟨_, found, _⟩ := slots key position slot
    exact ⟨position, asks, slot, (List.getElem?_eq_some_iff.mp found).1⟩

theorem heldBefore_add {grouping : Grouping} (slots : grouping.Slots)
    (inside : bound ≤ grouping.entities.length) (entity : Entity) (key : Key) :
    HeldBefore bound (grouping.add source entity).entities key ↔
      HeldBefore bound grouping.entities key ∨
        key ∈ entity.identities ∧ JoinsBefore source bound grouping entity := by
  rcases add_cases slots source entity with ⟨asks, entities, _⟩ |
    ⟨asked, place, group, asks, slot, found, isGroup, entities, _⟩ | ⟨asked, asks, fresh, entities, _⟩
  · rw [entities, heldBefore_append bound inside]
    simp [JoinsBefore, asks]
  · obtain ⟨_, identities⟩ := addMember_identities isGroup asks
    have joins : JoinsBefore source bound grouping entity ↔ place < bound := by
      simp [JoinsBefore, asks, slot]
    rw [entities, joins]
    constructor
    · rintro ⟨position, holder, before, present, own⟩
      rw [List.getElem?_modify] at present
      by_cases here : place = position
      · subst position
        simp only [found, ↓reduceIte, Option.map_eq_map, Option.map_some, Option.some.injEq] at present
        subst holder
        rw [identities] at own
        rcases List.mem_append.mp own with old | new
        · exact .inl ⟨place, group, before, found, old⟩
        · exact .inr ⟨new, before⟩
      · exact .inl ⟨position, holder, before, by simpa [here] using present, own⟩
    · rintro (⟨position, holder, before, present, own⟩ | ⟨own, before⟩)
      · by_cases here : place = position
        · subst position
          obtain rfl := Option.some.inj (found.symm.trans present)
          refine ⟨place, addMember entity group, before, by simp [found], ?_⟩
          rw [identities]
          exact List.mem_append_left _ own
        · exact ⟨position, holder, before, by simp [here, present], own⟩
      · refine ⟨place, addMember entity group, before, by simp [found], ?_⟩
        rw [identities]
        exact List.mem_append_right _ own
  · rw [entities, heldBefore_append bound inside]
    simp [JoinsBefore, asks, fresh]

theorem joinsBefore_add {grouping : Grouping} (slots : grouping.Slots)
    (inside : bound ≤ grouping.entities.length) (entity other : Entity) :
    JoinsBefore source bound (grouping.add source entity) other ↔
      JoinsBefore source bound grouping other := by
  unfold JoinsBefore
  rcases add_cases slots source entity with ⟨_, _, same⟩ | ⟨_, _, _, _, _, _, _, _, same⟩ |
    ⟨asked, _, fresh, _, same⟩
  · rw [same]
  · rw [same]
  · refine exists_congr fun key => exists_congr fun position => and_congr_right fun _ => ?_
    rw [same, List.lookup_append, Option.or_eq_some_iff]
    constructor
    · rintro ⟨old | ⟨_, new⟩, before⟩
      · exact ⟨old, before⟩
      · simp only [List.lookup_cons, List.lookup_nil] at new
        split at new
        · have := Option.some.inj new
          omega
        · cases new
    · rintro ⟨old, before⟩
      exact ⟨.inl old, before⟩

theorem add_length {grouping : Grouping} (slots : grouping.Slots) (entity : Entity) :
    grouping.entities.length ≤ (grouping.add source entity).entities.length := by
  rcases add_cases slots source entity with ⟨_, entities, _⟩ | ⟨_, _, _, _, _, _, _, entities, _⟩ |
    ⟨_, _, _, entities, _⟩ <;> rw [entities] <;> simp

theorem heldBefore_addAll {grouping : Grouping} (slots : grouping.Slots) (source : SourceTree)
    (inside : bound ≤ grouping.entities.length) (entities : List Entity) (key : Key) :
    HeldBefore bound (entities.foldl (Grouping.add source) grouping).entities key ↔
      HeldBefore bound grouping.entities key ∨
        ∃ entity ∈ entities, key ∈ entity.identities ∧ JoinsBefore source bound grouping entity := by
  induction entities generalizing grouping with
  | nil => simp
  | cons entity rest ih =>
    rw [List.foldl_cons, ih (slots.add entity) (Nat.le_trans inside (add_length slots entity)),
      heldBefore_add slots inside]
    simp only [joinsBefore_add slots inside, List.mem_cons, exists_eq_or_imp, or_assoc]

/-- Entities keep their keys, and those without any are left alone. -/
theorem add_at {grouping : Grouping} (slots : grouping.Slots) (source : SourceTree) (entity : Entity)
    {position : Nat} {old : Entity} (found : grouping.entities[position]? = some old) :
    ∃ new, (grouping.add source entity).entities[position]? = some new ∧
      (old.isKeyed = true → new.isKeyed = true) ∧ (old.isKeyed = false → new = old) := by
  have inside := (List.getElem?_eq_some_iff.mp found).1
  rcases add_cases slots source entity with ⟨_, entities, _⟩ |
    ⟨asked, place, group, asks, slot, present, isGroup, entities, _⟩ | ⟨_, _, _, entities, _⟩
  · exact ⟨old, by rw [entities, List.getElem?_append_left inside, found], id, fun _ => rfl⟩
  · by_cases here : place = position
    · subst position
      obtain rfl := Option.some.inj (present.symm.trans found)
      obtain ⟨_, identities⟩ := addMember_identities isGroup asks
      refine ⟨addMember entity group, by simp [entities, found], fun keyed => ?_, fun keyless => ?_⟩
      · rw [Entity.isKeyed_iff, identities]
        exact List.append_ne_nil_of_left_ne_nil (Entity.isKeyed_iff.mp keyed) _
      · obtain ⟨other, same, _, keyed⟩ := slots asked place slot
        obtain rfl := Option.some.inj (found.symm.trans same)
        rw [Entity.isKeyed_iff.mpr keyed] at keyless
        cases keyless
    · exact ⟨old, by simp [entities, here, found], id, fun _ => rfl⟩
  · exact ⟨old, by rw [entities, List.getElem?_append_left inside, found], id, fun _ => rfl⟩

theorem addAll_at {grouping : Grouping} (slots : grouping.Slots) (source : SourceTree)
    (entities : List Entity) {position : Nat} {old : Entity}
    (found : grouping.entities[position]? = some old) :
    ∃ new, (entities.foldl (Grouping.add source) grouping).entities[position]? = some new ∧
      (old.isKeyed = true → new.isKeyed = true) ∧ (old.isKeyed = false → new = old) := by
  induction entities generalizing grouping old with
  | nil => exact ⟨old, found, id, fun _ => rfl⟩
  | cons entity rest ih =>
    obtain ⟨middle, after, keyed, alone⟩ := add_at slots source entity found
    obtain ⟨new, last, keyed', alone'⟩ := ih (slots.add entity) after
    refine ⟨new, last, fun own => keyed' (keyed own), fun keyless => ?_⟩
    have same := alone keyless
    subst middle
    exact alone' keyless

/-- What holds of each entity, if groups that begin and grow keep it. -/
theorem add_all {holds : Entity → Prop} {grouping : Grouping} (slots : grouping.Slots)
    (all : ∀ other ∈ grouping.entities, holds other)
    (stays : groupKey? source entity = none → holds entity)
    (begins : ∀ key, groupKey? source entity = some key → holds (newGroup key.1 entity))
    (joins : ∀ key group, groupKey? source entity = some key → group.isGroup = true → holds group →
      holds (addMember entity group)) :
    ∀ other ∈ (grouping.add source entity).entities, holds other := by
  intro other member
  rcases add_cases slots source entity with ⟨asks, entities, _⟩ |
    ⟨key, place, group, asks, _, found, isGroup, entities, _⟩ | ⟨key, asks, _, entities, _⟩
  · rw [entities] at member
    rcases List.mem_append.mp member with old | new
    · exact all other old
    · rw [List.mem_singleton.mp new]
      exact stays asks
  · obtain ⟨before, after, parts, modified⟩ := Entity.exists_modify found
    rw [parts] at all
    rw [entities, modified] at member
    rcases List.mem_append.mp member with early | later
    · exact all other (List.mem_append_left _ early)
    · rcases List.mem_cons.mp later with here | late
      · rw [here]
        exact joins key group asks isGroup (all group (by simp))
      · exact all other (List.mem_append_right _ (List.mem_cons_of_mem _ late))
  · rw [entities] at member
    rcases List.mem_append.mp member with old | new
    · exact all other old
    · rw [List.mem_singleton.mp new]
      exact begins key asks

theorem addAll_all {holds : Entity → Prop} {grouping : Grouping} (slots : grouping.Slots)
    (all : ∀ other ∈ grouping.entities, holds other) (entities : List Entity)
    (stays : ∀ entity ∈ entities, groupKey? source entity = none → holds entity)
    (begins : ∀ entity ∈ entities, ∀ key, groupKey? source entity = some key →
      holds (newGroup key.1 entity))
    (joins : ∀ entity ∈ entities, ∀ key group, groupKey? source entity = some key →
      group.isGroup = true → holds group → holds (addMember entity group)) :
    ∀ other ∈ (entities.foldl (Grouping.add source) grouping).entities, holds other := by
  refine addAll_induction (motive := fun current => ∀ other ∈ current.entities, holds other) slots
    entities (fun current entity sound member before => ?_) all
  exact add_all sound before (stays entity member) (begins entity member) (joins entity member)

end Grouping

/-- The entities after grouping. -/
def grouped (source : SourceTree) (entities : List Entity) : List Entity :=
  (entities.foldl (Grouping.add source) {}).entities

theorem empty_slots : Grouping.Slots {} :=
  fun _ _ found => by cases found

theorem grouped_identities (source : SourceTree) (entities : List Entity) :
    (identitiesAll (grouped source entities)).Perm (identitiesAll entities) := by
  simpa [grouped, identitiesAll] using Grouping.addAll_identities empty_slots source entities

theorem grouped_apart (source : SourceTree) {entities : List Entity}
    (apart : entities.Pairwise Entity.Apart) : (grouped source entities).Pairwise Entity.Apart :=
  Grouping.addAll_apart empty_slots source entities (by simpa using apart)

theorem grouped_keyed (source : SourceTree) {entities : List Entity}
    (all : ∀ entity ∈ entities, entity.isKeyed = true) :
    ∀ entity ∈ grouped source entities, entity.isKeyed = true := by
  refine Grouping.addAll_all empty_slots (by simp) entities (fun entity member _ => all entity member)
    (fun entity _ key asks => ?_) (fun entity _ key group asks isGroup keyed => ?_)
  · rw [Entity.isKeyed_iff, (newGroup_identities key.1 asks).1]
    exact (newGroup_identities key.1 asks).2
  · rw [Entity.isKeyed_iff] at keyed ⊢
    rw [(addMember_identities isGroup asks).2]
    exact List.append_ne_nil_of_left_ne_nil keyed _

theorem grouped_flat (source : SourceTree) {entities : List Entity}
    (all : ∀ entity ∈ entities, entity.Flat) : ∀ entity ∈ grouped source entities, entity.Flat :=
  Grouping.addAll_all empty_slots (by simp) entities (fun entity member _ => all entity member)
    (fun _ _ key asks => newGroup_flat key.1 asks) (fun _ _ _ _ asks _ flat => addMember_flat asks flat)

/-- No entity asks for a group any more. -/
theorem grouped_ungrouped (source : SourceTree) (entities : List Entity) :
    ∀ entity ∈ grouped source entities, groupKey? source entity = none := by
  refine Grouping.addAll_all empty_slots (by simp) entities (fun _ _ asks => asks)
    (fun _ _ _ _ => rfl) (fun entity _ key group _ isGroup _ => ?_)
  cases group with
  | leaf => cases isGroup
  | node tag children =>
    cases tag with
    | group => rfl
    | _ => cases isGroup

/-- Grouping entities of which one has no key and those before it have some: it stands behind their
groups. -/
theorem grouped_parted (source : SourceTree) {before : List Entity} {parting : Entity}
    (all : ∀ entity ∈ before, entity.isKeyed = true) (keyless : parting.isKeyed = false)
    (after : List Entity) :
    ∃ first last, grouped source (before ++ parting :: after) = first ++ parting :: last ∧
      first.length = (grouped source before).length ∧
      ∀ entity ∈ first, entity.isKeyed = true := by
  have slots := Grouping.addAll_slots empty_slots source before
  have keyed := grouped_keyed source all
  have appended : (Grouping.add source (before.foldl (Grouping.add source) {}) parting).entities =
      grouped source before ++ [parting] := by
    rcases Grouping.add_cases slots source parting with ⟨_, entities, _⟩ |
      ⟨_, _, _, asks, _⟩ | ⟨_, asks, _⟩
    · exact entities
    · rw [isKeyed_of_groupKey? asks] at keyless
      cases keyless
    · rw [isKeyed_of_groupKey? asks] at keyless
      cases keyless
  have whole : grouped source (before ++ parting :: after) = (after.foldl (Grouping.add source)
      (Grouping.add source (before.foldl (Grouping.add source) {}) parting)).entities := by
    rw [grouped, List.foldl_append, List.foldl_cons]
  have there : (grouped source (before ++ parting :: after))[(grouped source before).length]? =
      some parting := by
    have last : (Grouping.add source (before.foldl (Grouping.add source) {})
        parting).entities[(grouped source before).length]? = some parting := by
      rw [appended, List.getElem?_concat_length]
    obtain ⟨new, found, _, alone⟩ := Grouping.addAll_at (slots.add parting) source after last
    rw [whole, found, alone keyless]
  obtain ⟨inside, same⟩ := List.getElem?_eq_some_iff.mp there
  refine ⟨(grouped source (before ++ parting :: after)).take (grouped source before).length,
    (grouped source (before ++ parting :: after)).drop ((grouped source before).length + 1), ?_, ?_, ?_⟩
  · have parts := List.take_append_drop (grouped source before).length
      (grouped source (before ++ parting :: after))
    rw [← List.getElem_cons_drop inside, same] at parts
    exact parts.symm
  · rw [List.length_take]
    omega
  · intro entity member
    obtain ⟨position, found⟩ := List.getElem?_of_mem member
    have short := (List.getElem?_eq_some_iff.mp found).1
    rw [List.length_take] at short
    have bound : position < (grouped source before).length := by omega
    have early : (Grouping.add source (before.foldl (Grouping.add source) {})
        parting).entities[position]? = some (grouped source before)[position] := by
      rw [appended, List.getElem?_append_left bound, List.getElem?_eq_getElem bound]
    obtain ⟨new, last, kept, _⟩ := Grouping.addAll_at (slots.add parting) source after early
    rw [List.getElem?_take_of_lt bound, whole, last] at found
    obtain rfl := Option.some.inj found
    exact kept (keyed _ (List.getElem_mem bound))

/-- The keys that grouping and the rebuild after it keep: those of the entities before the first
without a key, and of later ones that join a group begun by one of these. -/
def Survives (source : SourceTree) (entities : List Entity) (key : Key) : Prop :=
  key ∈ identitiesAll (entities.takeWhile isKeyed) ∨
    ∃ entity ∈ entities.dropWhile isKeyed, key ∈ entity.identities ∧
      ∃ group, groupKey? source entity = some group ∧
        ∃ other ∈ entities.takeWhile isKeyed, groupKey? source other = some group

theorem grouped_survives (source : SourceTree) (entities : List Entity) (key : Key) :
    key ∈ identitiesAll ((grouped source entities).takeWhile isKeyed) ↔
      Survives source entities key := by
  have all : ∀ entity ∈ entities.takeWhile isKeyed, entity.isKeyed = true := fun entity member =>
    List.all_eq_true.mp List.all_takeWhile entity member
  have split := List.takeWhile_append_dropWhile (p := isKeyed) (l := entities)
  unfold Survives
  generalize entities.takeWhile isKeyed = before at all split ⊢
  cases rest : entities.dropWhile isKeyed with
  | nil =>
    rw [rest, List.append_nil] at split
    subst before
    have kept : (grouped source entities).takeWhile isKeyed = grouped source entities := by
      rw [← List.append_nil (grouped source entities),
        List.takeWhile_append_of_pos (grouped_keyed source all), List.takeWhile_nil]
    simp [kept, (grouped_identities source entities).mem_iff]
  | cons parting after =>
    have keyless : parting.isKeyed = false := by
      have head := List.head?_dropWhile_not isKeyed entities
      rwa [rest] at head
    rw [rest] at split
    obtain ⟨first, last, same, length, keyed⟩ := grouped_parted source all keyless after
    have kept : (grouped source entities).takeWhile isKeyed = first := by
      rw [← split, same, List.takeWhile_append_of_pos keyed,
        List.takeWhile_cons_of_neg (by simp [keyless]), List.append_nil]
    have slots := Grouping.addAll_slots empty_slots source before
    have held := Grouping.heldBefore_addAll slots source (Nat.le_refl _)
      (parting :: after) key
    rw [← List.foldl_append] at held
    change Grouping.HeldBefore (grouped source before).length
      (grouped source (before ++ parting :: after)) key ↔ _ at held
    rw [same, ← length, Grouping.heldBefore_append _ (Nat.le_refl _), Grouping.heldBefore_length,
      Grouping.heldBefore_length] at held
    have joins (entity : Entity) : Grouping.JoinsBefore source (grouped source before).length
        (before.foldl (Grouping.add source) {}) entity ↔ ∃ group, groupKey? source entity = some group ∧
          ∃ other ∈ before, groupKey? source other = some group := by
      refine (Grouping.joinsBefore_length slots).trans ?_
      simp [Grouping.addAll_slot_isSome empty_slots]
    rw [kept, held, ← grouped, (grouped_identities source before).mem_iff]
    simp only [joins]

theorem grouped_keyed_iff (source : SourceTree) (entities : List Entity) :
    (∀ entity ∈ grouped source entities, entity.isKeyed = true) ↔
      ∀ entity ∈ entities, entity.isKeyed = true := by
  refine ⟨fun keyed => ?_, grouped_keyed source⟩
  have all : ∀ entity ∈ entities.takeWhile isKeyed, entity.isKeyed = true := fun entity member =>
    List.all_eq_true.mp List.all_takeWhile entity member
  have split := List.takeWhile_append_dropWhile (p := isKeyed) (l := entities)
  cases rest : entities.dropWhile isKeyed with
  | nil =>
    rw [rest, List.append_nil] at split
    rwa [split] at all
  | cons parting after =>
    have keyless : parting.isKeyed = false := by
      have head := List.head?_dropWhile_not isKeyed entities
      rwa [rest] at head
    obtain ⟨first, last, same, _⟩ := grouped_parted source all keyless after
    rw [← rest, split] at same
    have own := keyed parting (by rw [same]; simp)
    rw [keyless] at own
    cases own

/-- What is left after grouping, and when it succeeds. -/
theorem groupEntities_apart {index : Index} (source : SourceTree)
    (apart : index.entities.Pairwise Entity.Apart) :
    (groupEntities source index).1.entities = (grouped source index.entities).takeWhile isKeyed ∧
      ((∃ count, (groupEntities source index).2 = .ok count) ↔
        ∀ entity ∈ index.entities, entity.isKeyed = true) := by
  obtain ⟨kept, succeeds⟩ := Index.insertAll_apart (Index.empty_indexed false)
    (grouped source index.entities) (by simpa using grouped_apart source apart)
  rw [grouped_keyed_iff] at succeeds
  rw [← succeeds, groupEntities_index]
  refine ⟨kept.trans (List.nil_append _), ?_⟩
  unfold groupEntities Index.rebuild grouped
  dsimp only
  split <;> rename_i same <;> simp [same]

theorem groupEntities_spec {index : Index} (source : SourceTree)
    (distinct : (identitiesAll index.entities).Nodup) :
    (groupEntities source index).1.entities = (grouped source index.entities).takeWhile isKeyed ∧
      ((∃ count, (groupEntities source index).2 = .ok count) ↔
        ∀ entity ∈ index.entities, entity.isKeyed = true) :=
  groupEntities_apart source (Entity.apart_of_distinct distinct)

theorem groupEntities_exact (source : SourceTree) (index : Index) :
    Exact (groupEntities source index).1 := by
  rw [groupEntities_index]
  exact Index.rebuild_exact _

/-- A failed grouping leaves the index as it was exactly if it cannot fail: an entity without a key
is lost, with all that come after it. -/
theorem groupEntities_restores_iff {index : Index} (source : SourceTree)
    (distinct : (identitiesAll index.entities).Nodup) :
    (∀ problem, (groupEntities source index).2 = .error problem →
        (groupEntities source index).1 = index) ↔
      ∀ entity ∈ index.entities, entity.isKeyed = true := by
  obtain ⟨_, succeeds⟩ := groupEntities_spec source distinct
  rw [← succeeds]
  cases result : (groupEntities source index).2 with
  | ok count => simp
  | error problem =>
    simp only [reduceCtorEq, exists_false, iff_false]
    intro restores
    have valid := groupEntities_exact source index
    rw [restores problem rfl] at valid
    have keyed : ∀ entity ∈ index.entities, entity.isKeyed = true := fun entity member =>
      Entity.isKeyed_iff.mpr (valid.keyed entity member)
    obtain ⟨count, success⟩ := succeeds.mpr keyed
    rw [result] at success
    cases success

end Normalize

end DocComment
