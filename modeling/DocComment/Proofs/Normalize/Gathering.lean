import DocComment.Proofs.Normalize.Lookup
import Mathlib.Data.List.Induction

/-! Grouping as a rearrangement. Each group holds all declarations with its key, in the order of the index,
and stands where the first of them was. All other entities keep their order. -/
namespace DocComment.Normalize

variable {source : SourceTree}

/-- What stands at a place of the grouped entities. -/
inductive Place where
  /-- An entity that asks for no group. -/
  | single (entity : Entity)
  /-- A new group with its first and its other members. -/
  | gathered (key : GroupKey) (first : Entity) (others : List Entity)

namespace Place

def members : Place → List Entity
  | .single entity => [entity]
  | .gathered _ first others => first :: others

/-- The entity whose place it was. -/
def first : Place → Entity
  | .single entity => entity
  | .gathered _ first _ => first

def single? : Place → Option Entity
  | .single entity => some entity
  | .gathered .. => none

def key? : Place → Option GroupKey
  | .single _ => none
  | .gathered key .. => some key

/-- The output section that an entity asks for. -/
def heading? (entity : Entity) : Option String :=
  entity.fields?.bind Fields.outputSection

/-- The entity that stands at the place. A group has the output section of its first member with one. -/
def entity : Place → Entity
  | .single entity => entity
  | .gathered key first others =>
    .node (.group key.1 "" {
      group := some key.1
      outputSection := (first :: others).findSome? heading? }) (first :: others)

end Place

/-- Places that these entities are gathered at. -/
structure Gathered (source : SourceTree) (entities : List Entity) (places : List Place) : Prop where
  /-- All entities are at one place. -/
  kept : (places.flatMap Place.members).Perm entities
  /-- A group stands where its first member was. -/
  order : (places.map Place.first).Sublist entities
  /-- Entities that ask for no group stay, in their order. -/
  ungrouped : places.filterMap Place.single? = entities.filter (groupKey? source · = none)
  /-- The members of a group are all that ask for it, in their order. -/
  grouped : ∀ key first others, .gathered key first others ∈ places →
    first :: others = entities.filter (groupKey? source · = some key)
  /-- No two groups have the same key. -/
  distinct : (places.filterMap Place.key?).Nodup

namespace Gathered

theorem nil : Gathered source [] [] :=
  ⟨.nil, .slnil, rfl, nofun, List.nodup_nil⟩

variable {entities : List Entity} {places : List Place} {entity : Entity} {key : GroupKey}

theorem ungrouped_single (gathered : Gathered source entities places)
    (member : .single entity ∈ places) : groupKey? source entity = none := by
  have listed : entity ∈ places.filterMap Place.single? :=
    List.mem_filterMap.mpr ⟨_, member, rfl⟩
  rw [gathered.ungrouped] at listed
  simpa using (List.mem_filter.mp listed).2

theorem asks_of_mem (gathered : Gathered source entities places)
    (place : .gathered key first others ∈ places) (member : entity ∈ first :: others) :
    groupKey? source entity = some key := by
  rw [gathered.grouped key first others place] at member
  simpa using (List.mem_filter.mp member).2

/-- An entity that asks for a group is in it. -/
theorem place_of_asks (gathered : Gathered source entities places) (member : entity ∈ entities)
    (asks : groupKey? source entity = some key) :
    ∃ first others, .gathered key first others ∈ places ∧ entity ∈ first :: others := by
  obtain ⟨place, present, inside⟩ := List.mem_flatMap.mp (gathered.kept.mem_iff.mpr member)
  cases place with
  | single other =>
    rw [List.mem_singleton.mp inside, gathered.ungrouped_single present] at asks
    cases asks
  | gathered other first others =>
    have own := gathered.asks_of_mem present inside
    rw [asks] at own
    obtain rfl := Option.some.inj own
    exact ⟨first, others, present, inside⟩

/-- Two entities are in one group exactly if they ask for the same one. -/
theorem together_iff (gathered : Gathered source entities places) {one other : Entity}
    (member : one ∈ entities) (among : other ∈ entities) (asks : groupKey? source one = some key) :
    (∃ place ∈ places, place.key?.isSome = true ∧ one ∈ place.members ∧ other ∈ place.members) ↔
      groupKey? source other = some key := by
  constructor
  · rintro ⟨place, present, isGroup, here, there⟩
    cases place with
    | single => cases isGroup
    | gathered own first others =>
      rw [← asks, gathered.asks_of_mem present here, gathered.asks_of_mem present there]
  · intro same
    obtain ⟨first, others, present, here⟩ := gathered.place_of_asks member asks
    refine ⟨_, present, rfl, here, ?_⟩
    rw [Place.members, gathered.grouped key first others present]
    exact List.mem_filter.mpr ⟨among, by simpa using same⟩

theorem stay (gathered : Gathered source entities places) (asks : groupKey? source entity = none) :
    Gathered source (entities ++ [entity]) (places ++ [.single entity]) := by
  refine ⟨?_, ?_, ?_, ?_, ?_⟩
  · rw [List.flatMap_append]
    exact gathered.kept.append_right _
  · rw [List.map_append]
    exact gathered.order.append (.refl _)
  · rw [List.filterMap_append, List.filter_append, gathered.ungrouped]
    simp [Place.single?, asks]
  · intro key first others member
    rcases List.mem_append.mp member with old | new
    · rw [List.filter_append, gathered.grouped key first others old]
      simp [asks]
    · cases List.mem_singleton.mp new
  · have none : [Place.single entity].filterMap Place.key? = [] := rfl
    rw [List.filterMap_append, none, List.append_nil]
    exact gathered.distinct

theorem begin (gathered : Gathered source entities places) (asks : groupKey? source entity = some key)
    (fresh : ∀ place ∈ places, place.key? ≠ some key) :
    Gathered source (entities ++ [entity]) (places ++ [.gathered key entity []]) := by
  refine ⟨?_, ?_, ?_, ?_, ?_⟩
  · rw [List.flatMap_append]
    exact gathered.kept.append_right _
  · rw [List.map_append]
    exact gathered.order.append (.refl _)
  · rw [List.filterMap_append, List.filter_append, gathered.ungrouped]
    simp [Place.single?, asks]
  · intro other first others member
    rw [List.filter_append]
    rcases List.mem_append.mp member with old | new
    · have differ : key ≠ other := by
        rintro rfl
        exact fresh _ old rfl
      rw [gathered.grouped other first others old]
      simp [asks, differ]
    · cases List.mem_singleton.mp new
      have none : entities.filter (groupKey? source · = some key) = [] := by
        refine List.filter_eq_nil_iff.mpr fun other member same => ?_
        obtain ⟨first, others, present, _⟩ := gathered.place_of_asks member (by simpa using same)
        exact fresh _ present rfl
      rw [none]
      simp [asks]
  · rw [List.filterMap_append, List.nodup_append]
    refine ⟨gathered.distinct, by simp [Place.key?], ?_⟩
    intro old member new last same
    obtain ⟨place, present, own⟩ := List.mem_filterMap.mp member
    rw [same, List.mem_singleton.mp last] at own
    exact fresh place present own

/-- A key is gathered at one place only. -/
theorem alone {before after : List Place} {first : Entity} {others : List Entity}
    (gathered : Gathered source entities (before ++ .gathered key first others :: after)) :
    ∀ place ∈ before ++ after, place.key? ≠ some key := by
  intro place member same
  have own : (Place.gathered key first others).key? = some key := rfl
  have distinct := gathered.distinct
  rw [List.filterMap_append, List.filterMap_cons_some own] at distinct
  have unique := (List.nodup_cons.mp (List.perm_middle.nodup_iff.mp distinct)).1
  rw [← List.filterMap_append] at unique
  exact unique (List.mem_filterMap.mpr ⟨place, member, same⟩)

theorem join {before after : List Place} {first : Entity} {others : List Entity}
    (gathered : Gathered source entities (before ++ .gathered key first others :: after))
    (asks : groupKey? source entity = some key) :
    Gathered source (entities ++ [entity])
      (before ++ .gathered key first (others ++ [entity]) :: after) := by
  refine ⟨?_, ?_, ?_, ?_, ?_⟩
  · have moved : ((before ++ .gathered key first (others ++ [entity]) :: after).flatMap
        Place.members).Perm
        ((before ++ .gathered key first others :: after).flatMap Place.members ++ [entity]) := by
      simp only [List.flatMap_append, List.flatMap_cons, Place.members, List.cons_append,
        List.append_assoc, List.nil_append]
      have late := (List.perm_append_singleton entity (after.flatMap Place.members)).symm
      exact ((late.append_left others).cons first).append_left _
    exact moved.trans (gathered.kept.append_right _)
  · have same : (before ++ .gathered key first (others ++ [entity]) :: after).map Place.first =
        (before ++ .gathered key first others :: after).map Place.first := by
      simp [Place.first]
    rw [same]
    exact gathered.order.trans (List.sublist_append_left _ _)
  · have same := gathered.ungrouped
    simp only [List.filterMap_append, List.filterMap_cons, Place.single?] at same ⊢
    rw [same, List.filter_append]
    simp [asks]
  · intro other start later member
    rw [List.filter_append]
    have elsewhere (present : .gathered other start later ∈ before ++ after) :
        start :: later = entities.filter (groupKey? source · = some other) ++
          [entity].filter (groupKey? source · = some other) := by
      have differ : key ≠ other := by
        rintro rfl
        exact gathered.alone _ present rfl
      have old : .gathered other start later ∈ before ++ .gathered key first others :: after := by
        rcases List.mem_append.mp present with early | late
        · exact List.mem_append_left _ early
        · exact List.mem_append_right _ (List.mem_cons_of_mem _ late)
      rw [gathered.grouped other start later old]
      simp [asks, differ]
    rcases List.mem_append.mp member with early | rest
    · exact elsewhere (List.mem_append_left _ early)
    · rcases List.mem_cons.mp rest with here | late
      · cases here
        rw [← gathered.grouped key first others (by simp)]
        simp [asks]
      · exact elsewhere (List.mem_append_right _ late)
  · simpa [List.filterMap_append, List.filterMap_cons, Place.key?] using gathered.distinct

end Gathered

namespace Grouping

/-- A grouping that holds these places. -/
structure Holds (source : SourceTree) (entities : List Entity) (grouping : Grouping)
    (places : List Place) : Prop where
  gathered : Gathered source entities places
  built : grouping.entities = places.map Place.entity
  slot : ∀ key position, grouping.slots.lookup key = some position →
    ∃ first others, places[position]? = some (.gathered key first others)
  fresh : ∀ key, grouping.slots.lookup key = none → ∀ place ∈ places, place.key? ≠ some key
  counted : grouping.members = entities.countP fun entity => (groupKey? source entity).isSome

/-- A member is added to the group at its place. -/
theorem entity_join (key : GroupKey) (first : Entity) (others : List Entity) (entity : Entity) :
    (Place.gathered key first (others ++ [entity])).entity =
      addMember entity (Place.gathered key first others).entity := by
  have last : [entity].findSome? Place.heading? = entity.fields?.bind Fields.outputSection :=
    List.findSome?_singleton
  simp only [Place.entity, addMember, ← List.cons_append, List.findSome?_append, last]

variable {entities : List Entity} {grouping : Grouping} {places : List Place} {entity : Entity}
  {key : GroupKey}

theorem Holds.stay (holds : Holds source entities grouping places)
    (asks : groupKey? source entity = none) :
    Holds source (entities ++ [entity]) (grouping.add source entity) (places ++ [.single entity]) := by
  obtain ⟨gathered, built, slot, fresh, counted⟩ := holds
  have same : grouping.add source entity =
      { grouping with entities := grouping.entities ++ [entity] } := by
    simp [Grouping.add, asks]
  rw [same]
  refine ⟨gathered.stay asks, ?_, fun key position found => ?_, fun key missing place member => ?_, ?_⟩
  · simp [built, Place.entity]
  · obtain ⟨first, others, there⟩ := slot key position found
    refine ⟨first, others, ?_⟩
    rw [List.getElem?_append_left (List.getElem?_eq_some_iff.mp there).1, there]
  · rcases List.mem_append.mp member with old | new
    · exact fresh key missing place old
    · rw [List.mem_singleton.mp new]
      exact (Option.some_ne_none key).symm
  · simp [asks, counted]

theorem Holds.begin (holds : Holds source entities grouping places)
    (asks : groupKey? source entity = some key) (untaken : grouping.slots.lookup key = none) :
    Holds source (entities ++ [entity]) (grouping.add source entity)
      (places ++ [.gathered key entity []]) := by
  obtain ⟨gathered, built, slot, fresh, counted⟩ := holds
  have same : grouping.add source entity =
      { entities := grouping.entities ++ [newGroup key.1 entity]
        slots := grouping.slots ++ [(key, grouping.entities.length)]
        members := grouping.members + 1 } := by
    simp [Grouping.add, asks, untaken]
  have inside : grouping.entities.length = places.length := by rw [built, List.length_map]
  rw [same]
  refine ⟨gathered.begin asks (fresh key untaken), ?_, fun other position found => ?_,
    fun other missing place member => ?_, ?_⟩
  · simp [built, Place.entity, newGroup, Place.heading?]
  · rw [List.lookup_append, Option.or_eq_some_iff] at found
    rcases found with old | ⟨_, new⟩
    · obtain ⟨first, others, there⟩ := slot other position old
      refine ⟨first, others, ?_⟩
      rw [List.getElem?_append_left (List.getElem?_eq_some_iff.mp there).1, there]
    · simp only [List.lookup_cons, List.lookup_nil] at new
      split at new
      · rename_i own
        obtain rfl := Option.some.inj new
        obtain rfl := eq_of_beq own
        exact ⟨entity, [], by rw [inside, List.getElem?_concat_length]⟩
      · cases new
  · rw [List.lookup_append, Option.or_eq_none_iff] at missing
    rcases List.mem_append.mp member with old | new
    · exact fresh other missing.1 place old
    · rw [List.mem_singleton.mp new]
      intro own
      obtain rfl := Option.some.inj own
      simp at missing
  · simp [asks, counted]

theorem Holds.join (holds : Holds source entities grouping places)
    (asks : groupKey? source entity = some key)
    (taken : grouping.slots.lookup key = some position) :
    ∃ next, Holds source (entities ++ [entity]) (grouping.add source entity) next := by
  obtain ⟨gathered, built, slot, fresh, counted⟩ := holds
  have same : grouping.add source entity =
      { grouping with
        entities := grouping.entities.modify position (addMember entity)
        members := grouping.members + 1 } := by
    simp [Grouping.add, asks, taken]
  obtain ⟨first, others, there⟩ := slot key position taken
  obtain ⟨inside, own⟩ := List.getElem?_eq_some_iff.mp there
  obtain ⟨before, after, parts, _, joined⟩ :=
    @List.exists_of_set _ position (.gathered key first (others ++ [entity])) places inside
  rw [own] at parts
  have grown : Gathered source (entities ++ [entity])
      (places.set position (.gathered key first (others ++ [entity]))) := by
    rw [joined]
    rw [parts] at gathered
    exact gathered.join asks
  rw [same]
  refine ⟨_, grown, ?_, fun other place found => ?_, fun other missing place member => ?_, ?_⟩
  · have old : grouping.entities[position]? = some (Place.gathered key first others).entity := by
      rw [built, List.getElem?_map, there]
      rfl
    rw [List.map_set, entity_join, ← built, List.modify_eq_set_getElem?, old]
    rfl
  · obtain ⟨start, later, present⟩ := slot other place found
    by_cases here : position = place
    · subst place
      rw [there] at present
      cases present
      exact ⟨first, others ++ [entity], by simp [inside]⟩
    · exact ⟨start, later, by rw [List.getElem?_set_ne here, present]⟩
  · rcases List.mem_or_eq_of_mem_set member with old | rfl
    · exact fresh other missing place old
    · exact fresh other missing (.gathered key first others) (List.mem_of_getElem? there)
  · simp [asks, counted]

theorem Holds.add (holds : Holds source entities grouping places) (entity : Entity) :
    ∃ next, Holds source (entities ++ [entity]) (grouping.add source entity) next := by
  cases asks : groupKey? source entity with
  | none => exact ⟨_, holds.stay asks⟩
  | some key =>
    cases taken : grouping.slots.lookup key with
    | none => exact ⟨_, holds.begin asks taken⟩
    | some position => exact holds.join asks taken

/-- Grouping puts the entities in places. -/
theorem addAll_holds (source : SourceTree) (entities : List Entity) :
    ∃ places, Holds source entities (entities.foldl (Grouping.add source) {}) places := by
  induction entities using List.reverseRecOn with
  | nil => exact ⟨[], .nil, rfl, nofun, fun _ _ => nofun, rfl⟩
  | append_singleton entities entity ih =>
    obtain ⟨places, holds⟩ := ih
    rw [List.foldl_append]
    exact holds.add entity

end Grouping

theorem groupEntities_members {index after : Index}
    (success : groupEntities source index = (after, .ok count)) :
    count = (index.entities.foldl (Grouping.add source) {}).members := by
  unfold groupEntities at success
  dsimp only at success
  split at success
  · exact (Except.ok.inj (Prod.mk.inj success).2).symm
  · cases (Prod.mk.inj success).2

/-- After any run of insertions and steps from an empty index, grouping succeeds with the number of
declarations that ask for a group. It rearranges the entities, two of them are in one group exactly if they
ask for the same, and every lookup finds what it found before. -/
theorem groupEntities_gathers (source : SourceTree) (steps : List Step) :
    let index := Step.applyAll {} steps
    ∃ after places,
      groupEntities source index =
        (after, .ok (index.entities.countP fun entity => (groupKey? source entity).isSome)) ∧
      after.entities = places.map Place.entity ∧ Gathered source index.entities places ∧
      (∀ one ∈ index.entities, ∀ other ∈ index.entities, ∀ key, groupKey? source one = some key →
        ((∃ place ∈ places, place.key?.isSome = true ∧ one ∈ place.members ∧ other ∈ place.members) ↔
          groupKey? source other = some key)) ∧
      ∀ key, after.find? key = index.find? key := by
  intro index
  have valid : Index.Exact index := Step.applyAll_exact Index.empty_exact steps
  obtain ⟨after, count, success, _, same, lookups⟩ := groupEntities_lookup valid source
  obtain ⟨places, holds⟩ := Grouping.addAll_holds source index.entities
  refine ⟨after, places, ?_, same.trans holds.built, holds.gathered, ?_, lookups⟩
  · rw [success, groupEntities_members success, holds.counted]
  · intro one member other among key asks
    exact holds.gathered.together_iff member among asks

end DocComment.Normalize
