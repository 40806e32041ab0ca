import DocComment.Comment.Assembly
import DocComment.Proofs.Entity.Tree

/-! Drafts hold sections of distinct kinds. Adding content keeps the kinds distinct and loses none of the
content, and moving the brief to the front keeps both. Of several contents that are added, a section holds
those of its kind, in order. The required sections that are missing are added at the end, empty, to every
declaration in a tree, and markup stays as it is. -/
namespace DocComment.Comment

open Entity (IsMarkup)

/-- Adds empty sections of the kinds that are missing. -/
def ensureParts (kinds : List SectionKind) (children : List Entity) : List Entity :=
  kinds.foldl (fun present kind => Entity.ensurePart kind present) children

theorem findPart?_isSome {children : List Entity} :
    (Entity.findPart? kind children).isSome = true ↔
      ∃ child ∈ children, child.partKind? = some kind := by
  induction children with
  | nil => simp [Entity.findPart?]
  | cons child rest ih =>
    by_cases same : child.partKind? = some kind
    · simp [Entity.findPart?, same]
    · simp [Entity.findPart?, same, ih]

theorem ensureParts_added (kinds : List SectionKind) (children : List Entity) :
    ∃ missing : List SectionKind,
      ensureParts kinds children = children ++ missing.map (Entity.part · []) := by
  induction kinds generalizing children with
  | nil => exact ⟨[], by simp [ensureParts]⟩
  | cons kind rest ih =>
    obtain ⟨missing, same⟩ := ih (Entity.ensurePart kind children)
    simp only [ensureParts, List.foldl_cons] at same ⊢
    rw [same, Entity.ensurePart]
    split
    · exact ⟨missing, rfl⟩
    · exact ⟨kind :: missing, by simp⟩

theorem ensureParts_complete (kinds : List SectionKind) (children : List Entity) :
    ∀ kind ∈ kinds, ∃ child ∈ ensureParts kinds children, child.partKind? = some kind := by
  induction kinds generalizing children with
  | nil => simp
  | cons first rest ih =>
    intro kind member
    rcases List.mem_cons.mp member with same | later
    · subst first
      have ensured : ∃ child ∈ Entity.ensurePart kind children, child.partKind? = some kind := by
        unfold Entity.ensurePart
        split
        · rename_i present
          exact findPart?_isSome.mp present
        · exact ⟨.part kind [], by simp, rfl⟩
      obtain ⟨child, present, own⟩ := ensured
      obtain ⟨missing, added⟩ := ensureParts_added rest (Entity.ensurePart kind children)
      refine ⟨child, ?_, own⟩
      change child ∈ ensureParts rest (Entity.ensurePart kind children)
      rw [added]
      exact List.mem_append_left _ present
    · exact ih (Entity.ensurePart first children) kind later

theorem requiredSections_ne (source : SourceTree) (id : DeclId) :
    ∀ kind ∈ source.requiredSections id, kind ≠ .brief ∧ kind ≠ .details := by
  intro kind member
  simp only [SourceTree.requiredSections, List.mem_append] at member
  rcases member with requires | parameters
  · split at requires <;> simp at requires
    simp [requires]
  · split at parameters <;> simp at parameters
    simp [parameters]

theorem ensureRequiredAll_eq_map (source : SourceTree) (entities : List Entity) :
    ensureRequiredAll source entities = entities.map (ensureRequired source) := by
  induction entities with
  | nil => rfl
  | cons entity rest ih => simp [ensureRequiredAll, ih]

theorem ensureRequired_markup (source : SourceTree) (markup : IsMarkup entity) :
    ensureRequired source entity = entity := by
  induction markup with
  | leaf => rfl
  | @node tag inner plain below ih =>
    have same := Entity.map_unchanged ih
    cases tag with
    | declaration => cases plain
    | _ => simp [ensureRequired, ensureRequiredAll_eq_map, same]

theorem ensureRequired_part (source : SourceTree) (kind : SectionKind) (content : List Entity) :
    ensureRequired source (.part kind content) = .part kind (content.map (ensureRequired source)) := by
  simp [ensureRequired, ensureRequiredAll_eq_map]

theorem ensureRequired_declaration (source : SourceTree) (id : DeclId) (anchor : String) (fields : Fields)
    (children : List Entity) :
    ensureRequired source (.node (.declaration id anchor fields) children) =
      .node (.declaration id anchor fields)
        (ensureParts (source.requiredSections id) (children.map (ensureRequired source))) := by
  simp [ensureRequired, ensureRequiredAll_eq_map, ensureParts]

theorem ensureRequired_declaration? (source : SourceTree) (entity : Entity) :
    (ensureRequired source entity).declaration? = entity.declaration? := by
  cases entity with
  | leaf => rfl
  | node tag children => cases tag <;> simp [ensureRequired, Entity.declaration?]

theorem ensureRequired_partKind? (source : SourceTree) (entity : Entity) :
    (ensureRequired source entity).partKind? = entity.partKind? := by
  cases entity with
  | leaf => rfl
  | node tag children => cases tag <;> simp [ensureRequired, Entity.partKind?]

end DocComment.Comment

namespace DocComment.Comment.Sections

def kinds (sections : Sections) : List SectionKind :=
  sections.map Prod.fst

def contents (sections : Sections) : List Entity :=
  sections.flatMap Prod.snd

/-- All content fits the kind of its section. -/
def All (fits : SectionKind → Entity → Prop) (sections : Sections) : Prop :=
  ∀ kind content, (kind, content) ∈ sections → ∀ entity ∈ content, fits kind entity

/-- A brief can only come first. -/
def BriefFirst (sections : Sections) : Prop :=
  ∀ kind ∈ sections.kinds.tail, kind ≠ .brief

theorem kinds_add (kind : SectionKind) (content : List Entity) (sections : Sections) :
    (sections.add kind content).kinds =
      if kind ∈ sections.kinds then sections.kinds else sections.kinds ++ [kind] := by
  induction sections with
  | nil => rfl
  | cons entry rest ih =>
    obtain ⟨other, present⟩ := entry
    by_cases same : other = kind
    · subst other; simp [add, kinds]
    · have different : kind ≠ other := fun equal => same equal.symm
      simp only [kinds] at ih
      by_cases member : kind ∈ rest.map Prod.fst
      · simp [add, kinds, same, ih, member]
      · simp [add, kinds, same, different, ih, member]

theorem distinct_add (kind : SectionKind) (content : List Entity) {sections : Sections}
    (distinct : sections.kinds.Nodup) : (sections.add kind content).kinds.Nodup := by
  rw [kinds_add]
  split
  · exact distinct
  · rename_i absent
    refine List.nodup_append.mpr ⟨distinct, by simp, ?_⟩
    intro present member other last same
    rw [List.mem_singleton.mp last] at same
    exact absent (same ▸ member)

theorem contents_add (kind : SectionKind) (content : List Entity) (sections : Sections) :
    (sections.add kind content).contents.Perm (sections.contents ++ content) := by
  induction sections with
  | nil => simp [add, contents]
  | cons entry rest ih =>
    obtain ⟨other, present⟩ := entry
    simp only [contents] at ih ⊢
    simp only [add]
    split
    · simp only [List.flatMap_cons, List.append_assoc]
      exact List.perm_append_comm.append_left present
    · simp only [List.flatMap_cons, List.append_assoc]
      exact ih.append_left present

theorem All.add {fits : SectionKind → Entity → Prop} {sections : Sections} (all : sections.All fits)
    (added : ∀ entity ∈ content, fits kind entity) : (sections.add kind content).All fits := by
  induction sections with
  | nil =>
    intro other present member entity inside
    obtain ⟨rfl, rfl⟩ := Prod.mk.inj (List.mem_singleton.mp member)
    exact added entity inside
  | cons entry rest ih =>
    obtain ⟨first, before⟩ := entry
    have later : All fits rest := fun other present member => all other present (.tail _ member)
    have head := all first before (.head _)
    intro other present member entity inside
    simp only [Sections.add] at member
    split at member
    · rename_i same
      rcases List.mem_cons.mp member with found | found
      · obtain ⟨rfl, rfl⟩ := Prod.mk.inj found
        rcases List.mem_append.mp inside with old | new
        · exact head entity old
        · rw [beq_iff_eq.mp same]; exact added entity new
      · exact later other present found entity inside
    · rcases List.mem_cons.mp member with found | found
      · obtain ⟨rfl, rfl⟩ := Prod.mk.inj found
        exact head entity inside
      · exact ih later other present found entity inside

/-- Only a first section can turn into a brief, so other content leaves it in front. -/
theorem BriefFirst.add {sections : Sections} (first : sections.BriefFirst) (other : kind ≠ .brief)
    (content : List Entity) : (sections.add kind content).BriefFirst := by
  intro found member
  rw [kinds_add] at member
  split at member
  · exact first found member
  · cases sections with
    | nil => simp [kinds] at member
    | cons entry rest =>
      simp only [kinds, List.map_cons, List.cons_append, List.tail_cons, List.mem_append,
        List.mem_singleton] at member
      rcases member with old | new
      · exact first found old
      · subst found; exact other

/-- Moving the brief to the front keeps the sections. -/
theorem briefFirst_perm (sections : Sections) : sections.briefFirst.Perm sections :=
  List.filter_append_perm (fun entry : SectionKind × List Entity => entry.1 == .brief) sections

theorem distinct_briefFirst {sections : Sections} (distinct : sections.kinds.Nodup) :
    sections.briefFirst.kinds.Nodup :=
  (sections.briefFirst_perm.map Prod.fst).nodup_iff.mpr distinct

theorem briefFirst_first {sections : Sections} (distinct : sections.kinds.Nodup) :
    sections.briefFirst.BriefFirst := by
  have others : ∀ kind ∈ (sections.filter (·.1 != .brief)).map Prod.fst, kind ≠ .brief := by
    intro kind member
    obtain ⟨entry, present, rfl⟩ := List.mem_map.mp member
    simpa using (List.mem_filter.mp present).2
  have ordered := distinct_briefFirst distinct
  have briefs : ∀ entry ∈ sections.filter (·.1 == .brief), entry.1 = .brief := by
    intro entry present
    simpa using (List.mem_filter.mp present).2
  unfold BriefFirst
  simp only [briefFirst, kinds, List.map_append] at ordered ⊢
  generalize sections.filter (·.1 == .brief) = front at ordered briefs ⊢
  match front with
  | [] =>
    intro kind member
    exact others kind (List.mem_of_mem_tail member)
  | [_] =>
    intro kind member
    exact others kind (by simpa using member)
  | first :: second :: _ =>
    have same : first.1 = second.1 := (briefs first (by simp)).trans (briefs second (by simp)).symm
    simp [same] at ordered

/-- All that is filed under a kind, in order. -/
def under (kind : SectionKind) (filings : Sections) : Option (List Entity) :=
  let own := filings.filter (·.1 == kind)
  if own.isEmpty then none else some (own.flatMap Prod.snd)

/-- Adds one filing after another. -/
def fileAll (sections filings : Sections) : Sections :=
  filings.foldl (fun current filing => current.add filing.1 filing.2) sections

theorem under_congr {kind : SectionKind} {first second : Sections}
    (same : first.filter (·.1 == kind) = second.filter (·.1 == kind)) :
    first.under kind = second.under kind := by
  rw [under, under, same]

theorem under_cons (kind other : SectionKind) (content : List Entity) (rest : Sections) :
    under kind ((other, content) :: rest) =
      if kind = other then some (content ++ (under kind rest).getD []) else under kind rest := by
  by_cases same : kind = other
  · subst other
    cases own : rest.filter (·.1 == kind) <;> simp [under, own]
  · rw [if_neg same]
    exact under_congr (List.filter_cons_of_neg (by simpa using Ne.symm same))

theorem lookup_cons (kind other : SectionKind) (content : List Entity) (rest : Sections) :
    List.lookup kind ((other, content) :: rest) =
      if kind = other then some content else rest.lookup kind := by
  by_cases same : kind = other
  · simp [same]
  · simp [List.lookup_cons, beq_false_of_ne same, same]

theorem lookup_add (kind other : SectionKind) (content : List Entity) (sections : Sections) :
    (sections.add kind content).lookup other =
      if other = kind then some ((sections.lookup kind).getD [] ++ content)
      else sections.lookup other := by
  induction sections with
  | nil => exact lookup_cons other kind content []
  | cons entry rest ih =>
    obtain ⟨first, present⟩ := entry
    by_cases own : first = kind
    · subst first
      by_cases same : other = kind <;> simp [add, lookup_cons, same]
    · have differ : ¬ kind = first := fun equal => own equal.symm
      by_cases same : other = first
      · subst other
        simp [add, own]
      · simp [add, lookup_cons, own, differ, same, ih]

/-- A section holds what it held, and then what is filed under its kind. -/
theorem lookup_fileAll (kind : SectionKind) (sections filings : Sections) :
    (sections.fileAll filings).lookup kind =
      match filings.under kind with
      | none => sections.lookup kind
      | some added => some ((sections.lookup kind).getD [] ++ added) := by
  induction filings generalizing sections with
  | nil => rfl
  | cons filing rest ih =>
    obtain ⟨other, content⟩ := filing
    rw [fileAll, List.foldl_cons, ← fileAll, ih, lookup_add, under_cons]
    by_cases same : kind = other
    · subst other
      cases under kind rest <;> simp
    · simp [same]

theorem lookup_filed (kind : SectionKind) (filings : Sections) :
    (fileAll [] filings).lookup kind = filings.under kind := by
  rw [lookup_fileAll]
  cases filings.under kind <;> rfl

theorem distinct_fileAll (filings : Sections) {sections : Sections}
    (distinct : sections.kinds.Nodup) : (sections.fileAll filings).kinds.Nodup := by
  induction filings generalizing sections with
  | nil => exact distinct
  | cons filing rest ih => exact ih (distinct_add filing.1 filing.2 distinct)

theorem contents_fileAll (sections filings : Sections) :
    (sections.fileAll filings).contents.Perm (sections.contents ++ filings.contents) := by
  induction filings generalizing sections with
  | nil => simp [fileAll, contents]
  | cons filing rest ih =>
    refine (ih (sections.add filing.1 filing.2)).trans ?_
    refine ((contents_add filing.1 filing.2 sections).append_right _).trans ?_
    rw [List.append_assoc]
    rfl

theorem briefFirst_fileAll {filings sections : Sections} (first : sections.BriefFirst)
    (others : ∀ filing ∈ filings, filing.1 ≠ .brief) : (sections.fileAll filings).BriefFirst := by
  induction filings generalizing sections with
  | nil => exact first
  | cons filing rest ih =>
    exact ih (first.add (others filing List.mem_cons_self) filing.2)
      fun other member => others other (List.mem_cons_of_mem _ member)

/-- Moving the brief to the front changes no section. -/
theorem lookup_briefFirst (kind : SectionKind) (sections : Sections) :
    sections.briefFirst.lookup kind = sections.lookup kind := by
  have kept (keep : SectionKind → Bool) : (sections.filter (keep ·.1)).lookup kind =
      if keep kind then sections.lookup kind else none := by
    induction sections with
    | nil => simp
    | cons entry rest ih =>
      obtain ⟨other, content⟩ := entry
      by_cases same : kind = other
      · subst other
        by_cases own : keep kind = true <;> simp [own, ih]
      · by_cases own : keep other = true <;> simp [own, lookup_cons, same, ih]
  rw [briefFirst, List.lookup_append, kept (· == .brief), kept (· != .brief)]
  by_cases brief : kind = .brief
  · simp [brief]
  · simp [brief]

theorem briefFirst_eq_self {sections : Sections} (first : sections.BriefFirst) :
    sections.briefFirst = sections := by
  cases sections with
  | nil => rfl
  | cons entry rest =>
    have others : ∀ other ∈ rest, other.1 ≠ .brief := fun other member =>
      first other.1 (List.mem_map.mpr ⟨other, member, rfl⟩)
    have none : rest.filter (·.1 == .brief) = [] :=
      List.filter_eq_nil_iff.mpr fun other member => by simpa using others other member
    have all : rest.filter (·.1 != .brief) = rest :=
      List.filter_eq_self.mpr fun other member => by simpa using others other member
    by_cases own : entry.1 = .brief
    · simp [briefFirst, own, none, all]
    · simp [briefFirst, own, none, all]

theorem findPart?_entities (kind : SectionKind) (sections : Sections) :
    Entity.findPart? kind sections.entities = sections.lookup kind := by
  induction sections with
  | nil => rfl
  | cons entry rest ih =>
    obtain ⟨other, content⟩ := entry
    simp only [entities, List.map_cons, Entity.findPart?, Entity.partKind?, Entity.children] at ih ⊢
    rw [lookup_cons, ih]
    by_cases same : other = kind
    · simp [same]
    · simp [same, Ne.symm same]

end DocComment.Comment.Sections
