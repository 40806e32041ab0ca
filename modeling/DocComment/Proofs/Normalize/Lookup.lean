import DocComment.Proofs.Entity.Sections
import DocComment.Proofs.Index.Lookup
import DocComment.Proofs.Normalize.Grouping

/-! What the steps of the normalization do to lookups. On an index with exact identities no step fails.
Placeholders complete what is found for a declaration, modules and sections are added beside what is
there, and grouping changes no lookup. -/
namespace DocComment.Normalize

open Entity (isKeyed)
open Index (Exact)

variable {source : SourceTree} {index : Index} {id : DeclId}

/-- The declarations that a section documents. -/
def documented (kind : SectionKind) (entity : Entity) : List DeclId :=
  ((entity.section? kind).getD []).filterMap Entity.declaration?

theorem mem_missingParts {entity : Entity} {kind : SectionKind} {parts : List DeclId} {part : DeclId} :
    part ∈ missingParts entity kind parts ↔ part ∈ parts ∧ part ∉ documented kind entity := by
  simp [missingParts, documented]

/-- Placeholders are added to what the section documents already. -/
theorem documented_addParts (kind other : SectionKind) (missing : List DeclId) (tag : Tag)
    (children : List Entity) :
    documented other (addParts kind missing (.node tag children)) =
      if other = kind then documented kind (.node tag children) ++ missing
      else documented other (.node tag children) := by
  have placeholders : (missing.map Entity.uncommented).filterMap Entity.declaration? = missing := by
    rw [List.filterMap_map]
    exact (List.filterMap_congr fun _ _ => rfl).trans List.filterMap_some
  unfold addParts
  by_cases none : missing = []
  · subst missing
    by_cases same : other = kind <;> simp [same]
  · have some : missing.isEmpty = false := by simpa using none
    rw [some]
    simp only [Bool.false_eq_true, ↓reduceIte, documented, Entity.section?, Entity.modifySection,
      Entity.ensureSection, Entity.withChildren, Entity.children, Entity.findPart?_modifyPart,
      Entity.findPart?_ensurePart]
    by_cases same : other = kind
    · simp [same, placeholders]
    · simp [same]

theorem addParts_node (kind : SectionKind) (missing : List DeclId) (tag : Tag)
    (children : List Entity) :
    ∃ inner, addParts kind missing (.node tag children) = .node tag inner := by
  unfold addParts
  split
  · exact ⟨children, rfl⟩
  · exact ⟨_, rfl⟩

/-- What documentation says of the parts of a declaration once placeholders are added. -/
theorem documented_addSubParts (source : SourceTree) (id : DeclId) (tag : Tag) (children : List Entity) :
    documented .parameters (addSubParts source id (.node tag children)).1 =
        documented .parameters (.node tag children) ++
          missingParts (.node tag children) .parameters (source.parameters id) ∧
      documented .requires (addSubParts source id (.node tag children)).1 =
        documented .requires (.node tag children) ++
          missingParts (.node tag children) .requires (source.templateParameters id) := by
  obtain ⟨inner, same⟩ := addParts_node .parameters
    (missingParts (.node tag children) .parameters (source.parameters id)) tag children
  have parameters (kind : SectionKind) := documented_addParts .parameters kind
    (missingParts (.node tag children) .parameters (source.parameters id)) tag children
  rw [same] at parameters
  have kept : documented .requires (.node tag inner) = documented .requires (.node tag children) := by
    simpa using parameters .requires
  have missing : missingParts (.node tag inner) .requires (source.templateParameters id) =
      missingParts (.node tag children) .requires (source.templateParameters id) := by
    unfold documented at kept
    simp only [missingParts, kept]
  simp only [addSubParts, same, documented_addParts]
  simp only [reduceCtorEq, ↓reduceIte, missing, kept]
  exact ⟨by simpa using parameters .parameters, trivial⟩

/-- Every part of a declaration that needs a placeholder has documentation. -/
structure Documented (source : SourceTree) (id : DeclId) (entity : Entity) : Prop where
  parameters : ∀ part ∈ source.parameters id, part ∈ documented .parameters entity
  templateParameters : ∀ part ∈ source.templateParameters id, part ∈ documented .requires entity

theorem Documented.congr {first second : Entity} (complete : Documented source id first)
    (same : ∀ kind, documented kind second = documented kind first) : Documented source id second :=
  ⟨fun part member => same .parameters ▸ complete.parameters part member,
    fun part member => same .requires ▸ complete.templateParameters part member⟩

theorem addSubParts_documented (source : SourceTree) (id : DeclId) {entity : Entity}
    (keyed : entity.key?.isSome = true) : Documented source id (addSubParts source id entity).1 := by
  have added (kind : SectionKind) (parts : List DeclId) :
      ∀ part ∈ parts, part ∈ documented kind entity ++ missingParts entity kind parts := by
    intro part member
    by_cases present : part ∈ documented kind entity
    · exact List.mem_append_left _ present
    · exact List.mem_append_right _ (mem_missingParts.mpr ⟨member, present⟩)
  cases entity with
  | leaf => simp [Entity.key?] at keyed
  | node tag children =>
    obtain ⟨parameters, templates⟩ := documented_addSubParts source id tag children
    exact ⟨parameters ▸ added .parameters _, templates ▸ added .requires _⟩

/-- Nothing is added to documentation of all parts. -/
theorem addSubParts_of_documented {entity : Entity} (complete : Documented source id entity) :
    addSubParts source id entity = (entity, 0) := by
  have none (kind : SectionKind) (parts : List DeclId)
      (all : ∀ part ∈ parts, part ∈ documented kind entity) : missingParts entity kind parts = [] := by
    refine List.eq_nil_iff_forall_not_mem.mpr fun part member => ?_
    obtain ⟨wanted, absent⟩ := mem_missingParts.mp member
    exact absent (all part wanted)
  simp [addSubParts, none .parameters _ complete.parameters,
    none .requires _ complete.templateParameters, addParts]

/-- What is found for a declaration, or else its placeholder, with placeholders for its parts. -/
def completed (source : SourceTree) (index : Index) (id : DeclId) : Entity :=
  (addSubParts source id ((index.find? (.declaration id)).getD (.uncommented id))).1

theorem hasKey_uncommented (id : DeclId) (key : Key) :
    (Entity.uncommented id).hasKey key = true ↔ key.normal = .declaration id := by
  rw [Entity.hasKey_iff]
  simp [Entity.uncommented, Entity.key?, Key.normal, eq_comm]

theorem addUncommentedDeclaration_spec (valid : Exact index) (source : SourceTree) (id : DeclId) :
    ∃ after count, addUncommentedDeclaration source index id = (after, .ok count) ∧ Exact after ∧
      ∀ key, after.find? key =
        if key.normal = .declaration id then some (completed source index id)
        else index.find? key := by
  have modified {current : Index} {entity : Entity} (exact : Exact current)
      (found : current.find? (.declaration id) = some entity) :
      let after := current.modify (.declaration id) fun present => (addSubParts source id present).1
      Exact after ∧ ∀ key, after.find? key =
        if key.normal = .declaration id then some (addSubParts source id entity).1
        else current.find? key := by
    intro after
    obtain ⟨positions, changed⟩ := Index.modify_keeps current (.declaration id)
      (fun entity => (addSubParts_keeps source id entity).1)
      (fun entity => (addSubParts_keeps source id entity).2)
    have replaced := exact.replace changed
    rw [← positions] at replaced
    refine ⟨replaced, fun key => ?_⟩
    rw [exact.find?_modify (.declaration id) key
      (fun entity => (addSubParts_keeps source id entity).1)
      (fun entity => (addSubParts_keeps source id entity).2), found]
    rfl
  unfold addUncommentedDeclaration
  by_cases present : index.contains (.declaration id) = true
  · obtain ⟨entity, found⟩ := Option.isSome_iff_exists.mp (valid.contains_eq _ ▸ present)
    obtain ⟨exact, lookups⟩ := modified valid found
    simp only [present, ↓reduceIte, found]
    exact ⟨_, _, rfl, exact, by simpa [completed, found] using lookups⟩
  · have absent : index.find? (.declaration id) = none := by
      rw [valid.contains_eq] at present
      simpa using present
    have inserted : index.insert (.uncommented id) = (_, none) := Index.insert_eq_ok.mpr
      ⟨by simp [Entity.uncommented, Entity.indexKeys, Entity.key?],
        by simpa [Entity.uncommented, Entity.indexKeys, Entity.key?] using present, rfl⟩
    have lookup := valid.find?_insert inserted
    have alone : (Entity.uncommented id).members = [.uncommented id] := rfl
    have own : (Entity.uncommented id).hasKey (.declaration id) = true :=
      (hasKey_uncommented id _).mpr rfl
    have found := lookup (.declaration id)
    rw [absent, Option.none_or, alone, List.find?_cons_of_pos own] at found
    obtain ⟨exact, lookups⟩ := modified (valid.insert inserted) found
    simp only [present, Bool.false_eq_true, ↓reduceIte, inserted, found]
    refine ⟨_, _, rfl, exact, fun key => ?_⟩
    rw [lookups key]
    by_cases same : key.normal = .declaration id
    · simp [same, completed, absent]
    · have other : (Entity.uncommented id).hasKey key = false := by
        rw [← Bool.not_eq_true, hasKey_uncommented]
        exact same
      simp [same, lookup, alone, other]

/-- Each declaration is completed as it was found at first, and no other lookup changes. -/
theorem countEach_completed (valid : Exact index) (source : SourceTree) (ids : List DeclId)
    (once : ids.Nodup) (count : Nat) :
    ∃ after total, countEach (addUncommentedDeclaration source) count index ids = (after, .ok total) ∧
      Exact after ∧
      (∀ id ∈ ids, after.find? (.declaration id) = some (completed source index id)) ∧
      ∀ key, (∀ id ∈ ids, key.normal ≠ .declaration id) → after.find? key = index.find? key := by
  induction ids generalizing index count with
  | nil => exact ⟨index, count, rfl, valid, by simp, fun _ _ => rfl⟩
  | cons id rest ih =>
    obtain ⟨fresh, restOnce⟩ := List.nodup_cons.mp once
    obtain ⟨middle, more, first, exact, lookups⟩ := addUncommentedDeclaration_spec valid source id
    obtain ⟨after, total, result, exact', found, others⟩ := ih exact restOnce (count + more)
    refine ⟨after, total, by rw [countEach, first]; exact result, exact', ?_, ?_⟩
    · intro other member
      rcases List.mem_cons.mp member with same | later
      · subst other
        have untouched : ∀ next ∈ rest, (Key.declaration id).normal ≠ .declaration next := by
          rintro next present ⟨⟩
          exact fresh present
        rw [others _ untouched, lookups]
        exact if_pos rfl
      · have different : other ≠ id := fun same => fresh (same ▸ later)
        have kept : middle.find? (.declaration other) = index.find? (.declaration other) := by
          rw [lookups, if_neg (by simpa [Key.normal] using different)]
        rw [found other later, completed, kept, completed]
    · intro key untouched
      rw [others key fun next present => untouched next (List.mem_cons_of_mem _ present),
        lookups, if_neg (untouched id List.mem_cons_self)]

/-- The declarations that have documentation of their own. -/
def ownIds (source : SourceTree) : List DeclId :=
  source.ids.filter fun id => !(source.kind id).isSubPart

theorem addUncommentedEntities_spec (valid : Exact index) (source : SourceTree) :
    ∃ after count, addUncommentedEntities source index = (after, .ok count) ∧ Exact after ∧
      (∀ id ∈ ownIds source, after.find? (.declaration id) = some (completed source index id)) ∧
      ∀ key, (∀ id ∈ ownIds source, key.normal ≠ .declaration id) →
        after.find? key = index.find? key :=
  countEach_completed valid source (ownIds source) (List.nodup_range.filter _) 0

/-- An index with placeholders for modules added, and all that was found still found. -/
structure Joined (index after : Index) : Prop where
  exact : Exact after
  found : ∀ key entity, index.find? key = some entity → after.find? key = some entity
  added : ∃ names : List String, after.entities = index.entities ++ names.map Entity.uncommentedModule

theorem Joined.refl (valid : Exact index) : Joined index index :=
  ⟨valid, fun _ _ found => found, [], by simp⟩

theorem Joined.trans {middle after : Index} (first : Joined index middle)
    (second : Joined middle after) : Joined index after := by
  refine ⟨second.exact, fun key entity found => second.found key entity (first.found key entity found), ?_⟩
  obtain ⟨before, sameFirst⟩ := first.added
  obtain ⟨later, sameSecond⟩ := second.added
  exact ⟨before ++ later, by rw [sameSecond, sameFirst, List.map_append, List.append_assoc]⟩

theorem addUncommentedModule_spec (valid : Exact index) (name : String) :
    ∃ after count, addUncommentedModule index name = (after, .ok count) ∧ Joined index after ∧
      (after.find? (.moduleName name)).isSome = true := by
  unfold addUncommentedModule
  by_cases present : (index.find? (.moduleName name)).isSome = true
  · simp only [present, ↓reduceIte]
    exact ⟨index, 0, rfl, .refl valid, present⟩
  · have inserted : index.insert (.uncommentedModule name) = (_, none) := Index.insert_eq_ok.mpr
      ⟨by simp [Entity.uncommentedModule, Entity.indexKeys, Entity.key?],
        by simpa [Entity.uncommentedModule, Entity.indexKeys, Entity.key?, valid.contains_eq]
          using present, rfl⟩
    simp only [present, Bool.false_eq_true, ↓reduceIte, inserted]
    have lookup := valid.find?_insert inserted
    refine ⟨_, _, rfl, ⟨valid.insert inserted, fun key entity found => ?_, [name], rfl⟩, ?_⟩
    · rw [lookup, found]
      rfl
    · have own : (Entity.uncommentedModule name).hasKey (.moduleName name) = true :=
        Entity.hasKey_iff.mpr ⟨_, rfl, rfl⟩
      have alone : (Entity.uncommentedModule name).members = [.uncommentedModule name] := rfl
      rw [lookup, alone, List.find?_cons_of_pos own]
      simp

theorem countEach_joined (valid : Exact index) (names : List String) (count : Nat) :
    ∃ after total, countEach addUncommentedModule count index names = (after, .ok total) ∧
      Joined index after ∧ ∀ name ∈ names, (after.find? (.moduleName name)).isSome = true := by
  induction names generalizing index count with
  | nil => exact ⟨index, count, rfl, .refl valid, by simp⟩
  | cons name rest ih =>
    obtain ⟨middle, more, first, joined, there⟩ := addUncommentedModule_spec valid name
    obtain ⟨after, total, result, later, found⟩ := ih joined.exact (count + more)
    refine ⟨after, total, by rw [countEach, first]; exact result, joined.trans later, ?_⟩
    intro other member
    rcases List.mem_cons.mp member with same | present
    · subst other
      obtain ⟨entity, same⟩ := Option.isSome_iff_exists.mp there
      rw [later.found _ entity same]
      rfl
    · exact found other present

theorem addUncommentedModules_spec (valid : Exact index) :
    ∃ after count, addUncommentedModules index = (after, .ok count) ∧ Joined index after ∧
      ∀ name ∈ Entity.moduleNamesAll index.entities,
        (after.find? (.moduleName name)).isSome = true := by
  obtain ⟨after, count, result, joined, found⟩ :=
    countEach_joined valid (Entity.moduleNamesAll index.entities).eraseDups 0
  exact ⟨after, count, result, joined, fun name member =>
    found name (List.mem_eraseDups.mpr member)⟩

theorem members_map {change : Entity → Entity}
    (sameSort : ∀ entity, (change entity).isGroup = entity.isGroup)
    (groups : ∀ entity, entity.isGroup = true →
      (change entity).children = entity.children.map change) (entity : Entity) :
    (change entity).members = entity.members.map change := by
  cases kind : entity.isGroup with
  | false =>
    rw [Entity.members_of_single kind, Entity.members_of_single ((sameSort entity).trans kind)]
    rfl
  | true =>
    rw [Entity.members_of_group kind, Entity.members_of_group ((sameSort entity).trans kind),
      groups entity kind]

theorem addMissingSections_spec (valid : Exact index) (source : SourceTree) :
    Exact (addMissingSections source index) ∧ ∀ key,
      (addMissingSections source index).find? key =
        (index.find? key).map (Comment.ensureRequired source) := by
  have exact : Exact (addMissingSections source index) :=
    valid.replace (addMissingSections_keeps source index)
  refine ⟨exact, fun key => ?_⟩
  have inner : ∀ entity : Entity, entity.isGroup = true →
      (Comment.ensureRequired source entity).children =
        entity.children.map (Comment.ensureRequired source) := by
    intro entity group
    cases entity with
    | leaf => cases group
    | node tag children =>
      cases tag with
      | group => simp [Comment.ensureRequired, Comment.ensureRequiredAll_eq_map, Entity.children]
      | _ => cases group
  have mapped : (addMissingSections source index).members =
      index.members.map (Comment.ensureRequired source) := by
    simp only [Index.members, addMissingSections, Comment.ensureRequiredAll_eq_map,
      List.flatMap_map, List.map_flatMap]
    congr 1
    funext entity
    exact members_map (fun entity => (ensureRequired_keeps source entity).2.group) inner entity
  have same : (fun entity => (Comment.ensureRequired source entity).hasKey key) =
      fun entity => entity.hasKey key :=
    funext fun entity => Entity.hasKey_congr (ensureRequired_keeps source entity).1 key
  rw [exact.find?_eq, valid.find?_eq, mapped, List.find?_map, Function.comp_def, same]

theorem documented_ensureRequired (source : SourceTree) (kind : SectionKind) (entity : Entity) :
    documented kind (Comment.ensureRequired source entity) = documented kind entity := by
  have mapped (children : List Entity) :
      ((Entity.findPart? kind (children.map (Comment.ensureRequired source))).getD []).filterMap
        Entity.declaration? = ((Entity.findPart? kind children).getD []).filterMap
          Entity.declaration? := by
    rw [Entity.findPart?_map kind (Comment.ensureRequired_partKind? source)
      (Comment.ensureRequired_part source)]
    cases Entity.findPart? kind children with
    | none => rfl
    | some content =>
      simp only [Option.map_some, Option.getD_some, List.filterMap_map]
      exact List.filterMap_congr fun entity _ => Comment.ensureRequired_declaration? source entity
  cases entity with
  | leaf => rfl
  | node tag children =>
    cases tag with
    | declaration id anchor fields =>
      obtain ⟨missing, added⟩ := Comment.ensureParts_added (source.requiredSections id)
        (children.map (Comment.ensureRequired source))
      have empty : ((Entity.findPart? kind (missing.map (Entity.part · []))).getD []) = [] := by
        clear added
        induction missing with
        | nil => rfl
        | cons first rest ih =>
          simp only [List.map_cons, Entity.findPart?]
          split
          · rfl
          · exact ih
      rw [Comment.ensureRequired_declaration]
      simp only [documented, Entity.section?, Entity.children, added, Entity.findPart?_append,
        ← mapped children]
      cases Entity.findPart? kind (children.map (Comment.ensureRequired source)) with
      | none => rw [Option.none_or, empty]; rfl
      | some => rfl
    | _ =>
      simpa [Comment.ensureRequired, Comment.ensureRequiredAll_eq_map, documented, Entity.section?,
        Entity.children] using mapped children

namespace Grouping

/-- The members with a key, in the order in which a lookup goes through them. -/
def hits (key : Key) (entities : List Entity) : List Entity :=
  (entities.flatMap Entity.members).filter (·.hasKey key)

theorem hits_append (key : Key) (before after : List Entity) :
    hits key (before ++ after) = hits key before ++ hits key after := by
  simp [hits, List.flatMap_append]

theorem hits_cons (key : Key) (entity : Entity) (rest : List Entity) :
    hits key (entity :: rest) = hits key [entity] ++ hits key rest :=
  hits_append key [entity] rest

theorem hits_of_absent {key : Key} {entities : List Entity}
    (absent : ∀ entity ∈ entities, key.normal ∉ entity.identities) : hits key entities = [] := by
  refine List.filter_eq_nil_iff.mpr fun member held has => ?_
  obtain ⟨entity, present, inside⟩ := List.mem_flatMap.mp held
  exact absent entity present (Entity.mem_identities_iff.mpr ⟨member, inside, has⟩)

theorem members_addMember {group : Entity} (isGroup : group.isGroup = true) (entity : Entity) :
    (addMember entity group).members = group.members ++ [entity] := by
  cases group with
  | leaf => cases isGroup
  | node tag children =>
    cases tag with
    | group => rfl
    | _ => cases isGroup

theorem hits_add {grouping : Grouping} (slots : grouping.Slots) (source : SourceTree)
    (entity : Entity) (key : Key) (apart : ∀ other ∈ grouping.entities, other.Apart entity) :
    hits key (grouping.add source entity).entities =
      hits key grouping.entities ++ hits key [entity] := by
  rcases add_cases slots source entity with ⟨_, entities, _⟩ |
    ⟨_, place, group, asks, _, found, isGroup, entities, _⟩ | ⟨group, asks, _, entities, _⟩
  · rw [entities, hits_append]
  · obtain ⟨before, after, parts, modified⟩ := Entity.exists_modify found
    have alone := Entity.members_of_single (single_of_groupKey? asks)
    have split : hits key (before ++ addMember entity group :: after) =
        hits key before ++ hits key [group] ++ hits key [entity] ++ hits key after := by
      simp only [hits, List.flatMap_append, List.flatMap_cons, List.flatMap_nil, List.append_nil,
        members_addMember isGroup, alone, List.filter_append, List.append_assoc]
    rw [entities, modified, split, parts]
    by_cases own : key.normal ∈ entity.identities
    · have absent : ∀ other ∈ grouping.entities, key.normal ∉ other.identities :=
        fun other member held => apart other member _ held own
      rw [parts] at absent
      have none (some : List Entity) (among : some ⊆ before ++ group :: after) : hits key some = [] :=
        hits_of_absent fun other member => absent other (among member)
      rw [none before (by simp), none [group] (by simp), none after (by intro; simp_all),
        none (before ++ group :: after) (List.Subset.refl _)]
      simp
    · have none : hits key [entity] = [] := hits_of_absent (by simpa using own)
      rw [none, hits_append, hits_cons key group after]
      simp
  · have same : hits key [newGroup group.1 entity] = hits key [entity] := by
      rw [hits, hits, List.flatMap_singleton, List.flatMap_singleton,
        Entity.members_of_single (single_of_groupKey? asks)]
      rfl
    rw [entities, hits_append, same]

/-- Grouping keeps the members with a key, and their order. -/
theorem addAll_hits {grouping : Grouping} (slots : grouping.Slots) (source : SourceTree)
    (entities : List Entity) (key : Key)
    (apart : (grouping.entities ++ entities).Pairwise Entity.Apart) :
    hits key (entities.foldl (Grouping.add source) grouping).entities =
      hits key (grouping.entities ++ entities) := by
  induction entities generalizing grouping with
  | nil => simp
  | cons entity rest ih =>
    have own := (List.pairwise_append.mp apart).2.2
    rw [List.foldl_cons, ih (slots.add entity) (add_apart slots source entity rest apart),
      hits_append, hits_add slots source entity key fun other member =>
        own other member entity List.mem_cons_self, List.append_assoc, ← hits_append, ← hits_append]
    rfl

end Grouping

/-- Grouping succeeds, keeps all entities, and changes no lookup. -/
theorem groupEntities_lookup (valid : Exact index) (source : SourceTree) :
    ∃ after count, groupEntities source index = (after, .ok count) ∧ Exact after ∧
      after.entities = grouped source index.entities ∧ ∀ key, after.find? key = index.find? key := by
  have apart := valid.indexed.apart
  have keyed : ∀ entity ∈ index.entities, entity.isKeyed = true := fun entity member =>
    Entity.isKeyed_iff.mpr (valid.keyed entity member)
  obtain ⟨kept, succeeds⟩ := groupEntities_apart source apart
  obtain ⟨count, success⟩ := succeeds.mpr keyed
  have exact := groupEntities_exact source index
  have entities : (groupEntities source index).1.entities = grouped source index.entities := by
    rw [kept, ← List.append_nil (grouped source index.entities),
      List.takeWhile_append_of_pos (grouped_keyed source keyed), List.takeWhile_nil]
  refine ⟨_, count, Prod.ext rfl success, exact, entities, fun key => ?_⟩
  have hits := Grouping.addAll_hits empty_slots source index.entities key (by simpa using apart)
  rw [exact.find?_eq, valid.find?_eq, ← List.head?_filter, ← List.head?_filter, Index.members, entities]
  exact congrArg List.head? hits

end DocComment.Normalize
