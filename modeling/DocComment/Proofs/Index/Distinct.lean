import DocComment.Proofs.Index.Lookup

/-! What is documented twice. An index refuses an identity that one of its entities documents already. It
does not compare the members of a new group with each other: those are the only identities that an
index can hold twice. -/
namespace DocComment

namespace Entity

/-- The identities that an entity documents, in normal spelling: its own, or those of the members of a
group. -/
def documentedKeys (entity : Entity) : List Key :=
  (entity.members.filterMap key?).map Key.normal

theorem indexKeys_eq (entity : Entity) : entity.indexKeys = entity.members.filterMap key? := by
  cases kind : entity.isGroup with
  | false =>
    rw [indexKeys_of_single kind, members_of_single kind]
    cases found : entity.key? <;> simp [found]
  | true =>
    cases entity with
    | leaf => cases kind
    | node tag children =>
      cases tag with
      | group => rfl
      | _ => cases kind

theorem documentedKeys_eq (entity : Entity) : entity.documentedKeys = entity.identities := by
  rw [documentedKeys, identities, indexKeys_eq]

/-- Only a group documents more than one identity. -/
theorem documentedKeys_nodup_of_single {entity : Entity} (single : entity.isGroup = false) :
    entity.documentedKeys.Nodup := by
  rw [documentedKeys_eq, identities, indexKeys_of_single single]
  cases entity.key? <;> simp

end Entity

namespace Index

variable {index grown : Index}

/-- The index after an entity is offered to it, whether or not it is refused. -/
def offer (index : Index) (entity : Entity) : Index :=
  (index.insert entity).1

/-- The index that entities make which are offered one after the other. -/
def ofOffers (entities : List Entity) : Index :=
  entities.foldl offer {}

/-- The identities of top-level entities and of members of groups, taken together. -/
def documentedKeys (index : Index) : List Key :=
  index.entities.flatMap Entity.documentedKeys

theorem documentedKeys_eq (index : Index) :
    index.documentedKeys = Entity.identitiesAll index.entities :=
  List.flatMap_congr fun entity _ => entity.documentedKeys_eq

theorem Exact.offer (exact : Exact index) (entity : Entity) : Exact (index.offer entity) :=
  insert_induction (fun _ inserted => exact.insert inserted) exact

theorem ofOffers_exact (entities : List Entity) : Exact (ofOffers entities) := by
  have run {start : Index} (exact : Exact start) : Exact (entities.foldl Index.offer start) := by
    induction entities generalizing start with
    | nil => exact exact
    | cons entity rest ih => exact ih (exact.offer entity)
  exact run empty_exact

theorem Exact.contains_iff_documentedKeys (exact : Exact index) (key : Key) :
    index.contains key = true ↔ key.normal ∈ index.documentedKeys := by
  rw [exact.contains_eq, exact.indexed.find?_isSome, documentedKeys_eq, Entity.identitiesAll,
    List.mem_flatMap]

/-- Entities share no identity, so what is documented twice is so within one group. -/
theorem Exact.documentedKeys_nodup_iff (exact : Exact index) :
    index.documentedKeys.Nodup ↔
      ∀ group ∈ index.entities, group.isGroup = true → group.documentedKeys.Nodup := by
  rw [documentedKeys, List.nodup_flatMap]
  constructor
  · rintro ⟨each, _⟩ group member _
    exact each group member
  · intro groups
    refine ⟨fun entity member => ?_, ?_⟩
    · cases kind : entity.isGroup with
      | true => exact groups entity member kind
      | false => exact Entity.documentedKeys_nodup_of_single kind
    · refine exact.indexed.apart.imp fun {first second} apart key own shared => ?_
      rw [Entity.documentedKeys_eq] at own shared
      exact apart key own shared

/-- An entity is refused as a duplicate for the first of its identities that is documented already. -/
theorem Exact.insert_duplicate_iff (exact : Exact index) (entity : Entity) (key : Key) :
    index.insert entity = (index, some (.duplicate key)) ↔
      (entity.members.filterMap Entity.key?).find? (fun own => own.normal ∈ index.documentedKeys) =
        some key := by
  have taken : (fun own => decide (Key.normal own ∈ index.documentedKeys)) = index.contains := by
    funext own
    rw [Bool.eq_iff_iff, decide_eq_true_iff, exact.contains_iff_documentedKeys]
  rw [taken, ← Entity.indexKeys_eq, Index.insert]
  cases keys : entity.indexKeys with
  | nil => simp
  | cons first rest =>
    cases found : (first :: rest).find? index.contains <;> simp [found]

/-- Whatever entities are offered to an empty index, no identity is documented twice if and only if no
group in the index has two members of one identity. An entity is refused as a duplicate exactly if one
of its identities is documented by an entity of the index; it is not compared with itself. -/
theorem ofOffers_distinct_iff (entities : List Entity) (next : Entity) :
    ((ofOffers entities).documentedKeys.Nodup ↔
      ∀ group ∈ (ofOffers entities).entities, group.isGroup = true → group.documentedKeys.Nodup) ∧
    (∀ key, (ofOffers entities).insert next = (ofOffers entities, some (.duplicate key)) ↔
      (next.members.filterMap Entity.key?).find?
        (fun own => own.normal ∈ (ofOffers entities).documentedKeys) = some key) ∧
    ((∃ grown, (ofOffers entities).insert next = (grown, none) ∧
        grown.documentedKeys = (ofOffers entities).documentedKeys ++ next.documentedKeys) ↔
      next.documentedKeys ≠ [] ∧ ∀ key ∈ next.documentedKeys, key ∉ (ofOffers entities).documentedKeys) := by
  have exact := ofOffers_exact entities
  refine ⟨exact.documentedKeys_nodup_iff, exact.insert_duplicate_iff next, ?_⟩
  constructor
  · rintro ⟨grown, inserted, _⟩
    obtain ⟨nonempty, free, _⟩ := insert_eq_ok.mp inserted
    rw [Entity.indexKeys_eq] at nonempty free
    refine ⟨by simpa [Entity.documentedKeys] using nonempty, fun key own taken => ?_⟩
    obtain ⟨spelled, present, rfl⟩ := List.mem_map.mp own
    have contained := (exact.contains_iff_documentedKeys spelled).mpr taken
    rw [free spelled present] at contained
    cases contained
  · rintro ⟨nonempty, free⟩
    refine ⟨_, insert_eq_ok.mpr ⟨?_, fun key own => ?_, rfl⟩, ?_⟩
    · rw [Entity.indexKeys_eq]
      simpa [Entity.documentedKeys] using nonempty
    · rw [← Bool.not_eq_true, exact.contains_iff_documentedKeys]
      rw [Entity.indexKeys_eq] at own
      exact free key.normal (List.mem_map_of_mem own)
    · simp [documentedKeys, List.flatMap_append]

/-- A group with two members for one declaration is taken, and the declaration is documented twice. -/
theorem repeated_member_taken :
    let twice : Entity :=
      .node (.group "g" "" {}) [.node (.declaration 1 "" {}) [], .node (.declaration 1 "" {}) []]
    Index.insert {} twice = (ofOffers [twice], none) ∧ ¬ (ofOffers [twice]).documentedKeys.Nodup := by
  refine ⟨rfl, ?_⟩
  decide

end Index

end DocComment
