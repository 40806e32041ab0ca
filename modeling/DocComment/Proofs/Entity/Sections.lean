import DocComment.Entity.Sections

namespace DocComment.Entity

theorem partKind?_withChildren (entity : Entity) (children : List Entity) :
    (entity.withChildren children).partKind? = entity.partKind? := by
  cases entity with
  | leaf => rfl
  | node tag _ => cases tag <;> rfl

theorem children_withChildren_of_part {entity : Entity} (section_ : entity.partKind? = some kind)
    (children : List Entity) : (entity.withChildren children).children = children := by
  cases entity with
  | leaf => cases section_
  | node => rfl

theorem findPart?_append (kind : SectionKind) (before after : List Entity) :
    findPart? kind (before ++ after) = (findPart? kind before).or (findPart? kind after) := by
  induction before with
  | nil => rfl
  | cons entity rest ih =>
    simp only [List.cons_append, findPart?]
    split
    · rfl
    · exact ih

theorem findPart?_ensurePart (kind other : SectionKind) (children : List Entity) :
    findPart? other (ensurePart kind children) =
      if other = kind then some ((findPart? kind children).getD []) else findPart? other children := by
  unfold ensurePart
  cases found : findPart? kind children with
  | some content =>
    by_cases same : other = kind
    · simp [same, found]
    · simp [same]
  | none =>
    by_cases same : other = kind
    · subst other
      simp [findPart?_append, found, findPart?, partKind?, Entity.children]
    · have different : ¬ kind = other := fun equal => same equal.symm
      simp [findPart?_append, findPart?, partKind?, same, different]

theorem findPart?_modifyPart (kind other : SectionKind) (change : List Entity → List Entity)
    (children : List Entity) :
    findPart? other (modifyPart kind change children) =
      if other = kind then (findPart? kind children).map change else findPart? other children := by
  induction children with
  | nil => simp [modifyPart, findPart?]
  | cons entity rest ih =>
    by_cases own : entity.partKind? = some kind
    · by_cases same : other = kind
      · simp [modifyPart, findPart?, partKind?_withChildren, children_withChildren_of_part own, own, same]
      · have different : ¬ kind = other := fun equal => same equal.symm
        simp [modifyPart, findPart?, partKind?_withChildren, own, same, different]
    · by_cases same : other = kind
      · simp only [same, ↓reduceIte] at ih
        simp [modifyPart, findPart?, own, same, ih]
      · simp only [same, ↓reduceIte] at ih
        simp [modifyPart, findPart?, own, same, ih]

/-- A change of each child that keeps sections apart. -/
theorem findPart?_map (kind : SectionKind) {change : Entity → Entity} {inner : Entity → Entity}
    (sameKind : ∀ entity, (change entity).partKind? = entity.partKind?)
    (content : ∀ kind content, change (.part kind content) = .part kind (content.map inner))
    (children : List Entity) :
    findPart? kind (children.map change) = (findPart? kind children).map (List.map inner) := by
  induction children with
  | nil => rfl
  | cons entity rest ih =>
    simp only [List.map_cons, findPart?, sameKind]
    split
    · rename_i own
      cases entity with
      | leaf => cases own
      | node tag children =>
        cases tag with
        | part => simp [content, Entity.children]
        | _ => cases own
    · exact ih

theorem dropParts_cons_of_kept {dropped : List SectionKind} {entity : Entity}
    (kept : ¬ entity.partKind?.any dropped.contains = true) (rest : List Entity) :
    dropParts dropped (entity :: rest) = entity :: dropParts dropped rest := by
  cases kind : entity.partKind? with
  | none => simp only [dropParts, kind]
  | some own =>
    rw [kind, Option.any_some] at kept
    simp only [dropParts, kind, kept, if_false, Bool.false_eq_true]

theorem dropParts_cons_of_dropped {dropped : List SectionKind} {entity : Entity}
    (gone : entity.partKind?.any dropped.contains = true) (rest : List Entity) :
    dropParts dropped (entity :: rest) =
      dropParts (entity.partKind?.elim dropped fun kind => dropped.erase kind) rest := by
  cases kind : entity.partKind? with
  | none =>
    rw [kind] at gone
    cases gone
  | some own =>
    rw [kind, Option.any_some] at gone
    simp only [dropParts, kind, gone, if_true, Option.elim_some]

theorem dropParts_nil (children : List Entity) : dropParts [] children = children := by
  induction children with
  | nil => rfl
  | cons entity rest ih =>
    rw [dropParts_cons_of_kept (by cases entity.partKind? <;> simp), ih]

/-- Sections are dropped one kind after the other. -/
theorem dropParts_cons (kind : SectionKind) (kinds : List SectionKind) (children : List Entity) :
    dropParts (kind :: kinds) children = dropParts kinds (removePart kind children) := by
  induction children generalizing kinds with
  | nil => rfl
  | cons entity rest ih =>
    cases own : entity.partKind? with
    | none => simp [dropParts, removePart, own, ih]
    | some first =>
      by_cases same : first = kind
      · simp [dropParts, removePart, own, same]
      · have differ : ¬ kind = first := fun equal => same equal.symm
        by_cases member : first ∈ kinds
        · simp [dropParts, removePart, own, same, differ, member, ih]
        · simp [dropParts, removePart, own, same, member, ih]

/-- Where no two sections are of one kind, just those of the dropped kinds are gone. -/
theorem dropParts_of_distinct (kinds : List SectionKind) {children : List Entity}
    (distinct : (children.filterMap partKind?).Nodup) :
    dropParts kinds children = children.filter fun child => !child.partKind?.any kinds.contains := by
  induction children generalizing kinds with
  | nil => rfl
  | cons entity rest ih =>
    cases own : entity.partKind? with
    | none =>
      rw [List.filterMap_cons_none own] at distinct
      simp [dropParts, own, ih kinds distinct]
    | some kind =>
      rw [List.filterMap_cons_some own, List.nodup_cons] at distinct
      obtain ⟨single, distinct⟩ := distinct
      by_cases member : kind ∈ kinds
      · have elsewhere (child : Entity) (inside : child ∈ rest) :
            child.partKind?.any (kinds.erase kind).contains = child.partKind?.any kinds.contains := by
          cases other : child.partKind? with
          | none => rfl
          | some found =>
            have differ : found ≠ kind := by
              rintro rfl
              exact single (List.mem_filterMap.mpr ⟨child, inside, other⟩)
            simp [List.mem_erase_of_ne differ]
        rw [dropParts_cons_of_dropped (by simp [own, member]), own, Option.elim_some,
          ih (kinds.erase kind) distinct, List.filter_cons_of_neg (by simp [own, member])]
        exact List.filter_congr fun child inside => by rw [elsewhere child inside]
      · rw [dropParts_cons_of_kept (by simp [own, member]), ih kinds distinct,
          List.filter_cons_of_pos (by simp [own, member])]

end DocComment.Entity
