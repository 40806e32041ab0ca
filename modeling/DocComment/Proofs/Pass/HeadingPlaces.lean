import DocComment.Proofs.Entity.Tree
import DocComment.Proofs.Entity.Sections
import DocComment.Proofs.Markup.HeadingLevels
import DocComment.Proofs.Pass.Headings

/-! Where headings are put, and at which levels. The top-level entity and the documentation that sections and
documentation lead to get what their templates render to, further down the more documentation is around
them. Nothing else changes. -/
namespace DocComment.Headings

open Entity (Retagged Leveled dropParts dropParts_nil dropParts_cons_of_kept dropParts_cons_of_dropped
  IsMarkup)

variable {synthesis : Synthesis} {templates : HeadingTemplates}

/-- A heading is to be made from a template: no heading comes first, the entity is not excluded, and if it is a
group it has an output section. -/
structure Wants (templates : HeadingTemplates) (tag : Tag) (children : List Entity) (template : String) :
    Prop where
  template : templates.template? tag = some template
  untitled : ∀ level inner rest, children ≠ .node (.heading level) inner :: rest
  included : ∀ fields, (Entity.node tag children).fields? = some fields → fields.excludeMode ≠ .exclude
  named : ∀ name id fields, tag = .group name id fields → fields.outputSection ≠ none

theorem startsWithHeading_iff {children : List Entity} :
    startsWithHeading children = true ↔ ∃ level inner rest, children = .node (.heading level) inner :: rest := by
  constructor
  · intro starts
    unfold startsWithHeading at starts
    split at starts
    · exact ⟨_, _, _, rfl⟩
    · cases starts
  · rintro ⟨level, inner, rest, rfl⟩
    rfl

theorem wantsHeading_iff {tag : Tag} {children : List Entity} :
    wantsHeading (.node tag children) = true ↔ startsWithHeading children = false ∧
      (∀ fields, (Entity.node tag children).fields? = some fields → fields.excludeMode ≠ .exclude) ∧
      ∀ name id fields, tag = .group name id fields → fields.outputSection ≠ none := by
  cases tag <;> simp [wantsHeading, Entity.children, Entity.fields?, Option.isSome_iff_ne_none]

theorem wants_iff {tag : Tag} {children : List Entity} {template : String} :
    Wants templates tag children template ↔
      templates.template? tag = some template ∧ wanted templates (.node tag children) = true := by
  have first : startsWithHeading children = false ↔
      ∀ level inner rest, children ≠ .node (.heading level) inner :: rest := by
    rw [← Bool.not_eq_true, startsWithHeading_iff]
    simp only [not_exists]
  rw [wanted, Bool.and_eq_true, wantsHeading_iff, first]
  constructor
  · rintro ⟨chosen, untitled, included, named⟩
    exact ⟨chosen, by rw [chosen]; rfl, untitled, included, named⟩
  · rintro ⟨chosen, -, untitled, included, named⟩
    exact ⟨chosen, untitled, included, named⟩

/-- The tag of a heading that is further down, but never below the last level. All other tags are kept. -/
def Lowered (above : Nat) (old new : Tag) : Prop :=
  (∀ level, old = .heading level → new = .heading (min 6 (level + above))) ∧
    ((∀ level, old ≠ .heading level) → new = old)

/-- The number of documentation entities around what is inside an entity. -/
def enclosing (above : Nat) (entity : Entity) : Nat :=
  if entity.isDocumentation then above + 1 else above

mutual

/-- An entity after headings were made, with so many documentation entities around it. -/
inductive Headlined (synthesis : Synthesis) (templates : HeadingTemplates) : Nat → Entity → Entity → Prop where
  | leaf (above : Nat) (content : Leaf) : Headlined synthesis templates above (.leaf content) (.leaf content)
  /-- No heading is wanted. -/
  | bare {above : Nat} {tag : Tag} {children kept : List Entity}
      (unwanted : ∀ template, ¬ Wants templates tag children template)
      (below : HeadlinedAll synthesis templates (enclosing above (.node tag children)) children kept) :
      Headlined synthesis templates above (.node tag children) (.node tag kept)
  /-- What is read from the rendering comes first, and sections that the template drops are gone. -/
  | headed {above : Nat} {tag : Tag} {children blocks kept : List Entity} {template : String}
      {rendering : Template.Rendering} (wants : Wants templates tag children template)
      (renders : synthesis.formatter template (projectEntity synthesis.source (.node tag children))
        (Formatter.partOf (.node tag children)) = .ok rendering)
      (front : List.Forall₂ (Retagged (Lowered above)) (synthesis.read rendering.text) blocks)
      (leveled : ∀ block ∈ blocks, Leveled block)
      (below : HeadlinedAll synthesis templates (enclosing above (.node tag children))
        (dropParts rendering.dropped children) kept) :
      Headlined synthesis templates above (.node tag children) (.node tag (blocks ++ kept))

/-- The children of an entity after headings were made. Only sections and documentation change. -/
inductive HeadlinedAll (synthesis : Synthesis) (templates : HeadingTemplates) :
    Nat → List Entity → List Entity → Prop where
  | nil (above : Nat) : HeadlinedAll synthesis templates above [] []
  | visited {above : Nat} {old new : Entity} {rest kept : List Entity}
      (visited : old.partKind?.isSome = true ∨ old.isDocumentation = true)
      (own : Headlined synthesis templates above old new)
      (later : HeadlinedAll synthesis templates above rest kept) :
      HeadlinedAll synthesis templates above (old :: rest) (new :: kept)
  | passed {above : Nat} {old : Entity} {rest kept : List Entity}
      (section_ : old.partKind? = none) (undocumented : old.isDocumentation = false)
      (later : HeadlinedAll synthesis templates above rest kept) :
      HeadlinedAll synthesis templates above (old :: rest) (old :: kept)

end

/-- The tag of a shifted heading. -/
def shiftTag (depth : Nat) : Tag → Tag
  | .heading level => .heading (min (level + depth) maxLevel)
  | tag => tag

theorem shift_node (depth : Nat) (tag : Tag) (children : List Entity) :
    shift depth (.node tag children) = .node (shiftTag depth tag) (children.map (shift depth)) := by
  rw [← shiftAll_eq_map]
  cases tag <;> rfl

/-- The deepest nesting that is counted is deeper than the last level. -/
theorem lowered_iff {above depth : Nat} (counted : depth = min above maxDepth) (old new : Tag) :
    Lowered above old new ↔ new = shiftTag depth old := by
  have levels (level : Nat) : min (level + depth) maxLevel = min 6 (level + above) := by
    rw [counted, maxDepth, maxLevel]
    omega
  cases old with
  | heading level =>
    have same : shiftTag depth (.heading level) = .heading (min 6 (level + above)) :=
      congrArg Tag.heading (levels level)
    rw [same]
    constructor
    · rintro ⟨own, -⟩
      exact own level rfl
    · rintro rfl
      exact ⟨fun other own => by cases own; rfl, fun differs => absurd rfl (differs level)⟩
  | _ =>
    constructor
    · rintro ⟨-, kept⟩
      exact kept nofun
    · rintro rfl
      exact ⟨nofun, fun _ => rfl⟩

theorem lowered_blocks_iff {above depth : Nat} (counted : depth = min above maxDepth)
    {entities blocks : List Entity} :
    List.Forall₂ (Retagged (Lowered above)) entities blocks ↔ blocks = shiftAll depth entities := by
  rw [shiftAll_eq_map]
  exact Entity.forall₂_iff_map fun entity _ other =>
    Entity.retagged_iff (fun _ => rfl) (shift_node depth) (lowered_iff counted) entity other

theorem shift_leveled (depth : Nat) {entity : Entity} (leveled : Leveled entity) :
    Leveled (shift depth entity) := by
  induction leveled with
  | leaf content => exact .leaf content
  | @node tag inner own below ih =>
    rw [shift_node]
    refine .node (fun level same => ?_) (List.forall_mem_map.mpr ih)
    cases tag with
    | heading first =>
      have range := own first rfl
      cases same
      rw [maxLevel]
      omega
    | _ => cases same

theorem any_contains_nil (entity : Entity) : ¬ entity.partKind?.any [].contains = true := by
  cases entity.partKind? <;> simp

/-- Sections can as well be dropped before the children are gone through. -/
theorem synthesizeKept_dropParts (depth : Nat) (dropped : List SectionKind) (children : List Entity) :
    synthesizeKept synthesis templates depth dropped children =
      synthesizeKept synthesis templates depth [] (dropParts dropped children) := by
  induction children generalizing dropped with
  | nil => rfl
  | cons entity rest ih =>
    by_cases gone : entity.partKind?.any dropped.contains = true
    · rw [synthesizeKept, if_pos gone, dropParts_cons_of_dropped gone, ih]
    · rw [dropParts_cons_of_kept gone, synthesizeKept, if_neg gone, synthesizeKept,
        if_neg (any_contains_nil entity), ih, dropParts_nil]

/-- Markup in front is passed by. -/
theorem synthesizeKept_markup (depth : Nat) {blocks : List Entity}
    (markup : ∀ block ∈ blocks, IsMarkup block) (children : List Entity) :
    synthesizeKept synthesis templates depth [] (blocks ++ children) =
      (blocks ++ (synthesizeKept synthesis templates depth [] children).1,
        (synthesizeKept synthesis templates depth [] children).2) := by
  induction blocks with
  | nil => rfl
  | cons block rest ih =>
    obtain ⟨own, others⟩ := List.forall_mem_cons.mp markup
    rw [List.cons_append, synthesizeKept, if_neg (any_contains_nil block), isVisited_of_markup own, ih others]
    rfl

/-- Headings can as well be put in front, and sections dropped, before the children are gone through. -/
theorem synthesize_in_place (markup : ∀ text, ∀ entity ∈ synthesis.read text, IsMarkup entity) {depth : Nat}
    {tag : Tag} {children blocks : List Entity} {dropped : List SectionKind}
    (made : headingOf synthesis templates depth (.node tag children) = .ok (blocks, dropped)) :
    synthesize synthesis templates depth (.node tag children) =
      ((.node tag (synthesizeKept synthesis templates (innerDepth depth (.node tag children)) []
          (blocks ++ dropParts dropped children)).1),
        (synthesizeKept synthesis templates (innerDepth depth (.node tag children)) []
          (blocks ++ dropParts dropped children)).2) := by
  rw [synthesizeKept_markup _ (headingOf_markup markup made), ← synthesizeKept_dropParts]
  simp only [synthesize, made]

theorem isVisited_iff {entity : Entity} : isVisited entity = true ↔
    entity.partKind?.isSome = true ∨ entity.isDocumentation = true := by
  rw [isVisited, Bool.or_eq_true]

theorem isVisited_eq_false {entity : Entity} : isVisited entity = false ↔
    entity.partKind? = none ∧ entity.isDocumentation = false := by
  rw [isVisited, Bool.or_eq_false_iff, Option.isSome_eq_false_iff, Option.isNone_iff_eq_none]

/-- Without a failure every child succeeds, first the child and then the others. -/
theorem synthesizeKept_cons {depth : Nat} {child : Entity} {rest kept : List Entity} :
    synthesizeKept synthesis templates depth [] (child :: rest) = (kept, none) ↔
      ∃ new later, kept = new :: later ∧ synthesizeKept synthesis templates depth [] rest = (later, none) ∧
        (isVisited child = true ∧ synthesize synthesis templates depth child = (new, none) ∨
          isVisited child = false ∧ new = child) := by
  have own (new : Entity) :
      (if isVisited child then synthesize synthesis templates depth child else (child, none)) = (new, none) ↔
      (isVisited child = true ∧ synthesize synthesis templates depth child = (new, none) ∨
          isVisited child = false ∧ new = child) := by
    cases isVisited child <;> simp [eq_comm]
  rw [synthesizeKept, if_neg (any_contains_nil child)]
  simp only [← own]
  generalize (if isVisited child then synthesize synthesis templates depth child else (child, none)) = result
  obtain ⟨changed, fault⟩ := result
  obtain ⟨others, failed⟩ := synthesizeKept synthesis templates depth [] rest
  cases fault with
  | some => simp
  | none =>
    dsimp only
    constructor
    · intro same
      cases same
      exact ⟨changed, others, rfl, rfl, rfl⟩
    · rintro ⟨new, later, rfl, same, first⟩
      cases same
      cases first
      rfl

theorem headlinedAll_cons {above : Nat} {child : Entity} {rest kept : List Entity} :
    HeadlinedAll synthesis templates above (child :: rest) kept ↔
      ∃ new later, kept = new :: later ∧ HeadlinedAll synthesis templates above rest later ∧
        (isVisited child = true ∧ Headlined synthesis templates above child new ∨
          isVisited child = false ∧ new = child) := by
  constructor
  · intro all
    cases all with
    | visited visited own later => exact ⟨_, _, rfl, later, .inl ⟨isVisited_iff.mpr visited, own⟩⟩
    | passed section_ undocumented later =>
      exact ⟨_, _, rfl, later, .inr ⟨isVisited_eq_false.mpr ⟨section_, undocumented⟩, rfl⟩⟩
  · rintro ⟨new, later, rfl, all, ⟨visited, own⟩ | ⟨unvisited, rfl⟩⟩
    · exact .visited (isVisited_iff.mp visited) own all
    · obtain ⟨section_, undocumented⟩ := isVisited_eq_false.mp unvisited
      exact .passed section_ undocumented all

theorem synthesizeKept_iff {above depth : Nat} {children kept : List Entity}
    (each : ∀ child ∈ children, ∀ new, synthesize synthesis templates depth child = (new, none) ↔
      Headlined synthesis templates above child new) :
    synthesizeKept synthesis templates depth [] children = (kept, none) ↔
      HeadlinedAll synthesis templates above children kept := by
  induction children generalizing kept with
  | nil =>
    constructor
    · intro same
      cases same
      exact .nil above
    · rintro ⟨⟩
      rfl
  | cons child rest ih =>
    obtain ⟨own, others⟩ := List.forall_mem_cons.mp each
    simp only [synthesizeKept_cons, headlinedAll_cons, own, ih others]

theorem innerDepth_counted {above depth : Nat} (counted : depth = min above maxDepth) (entity : Entity) :
    innerDepth depth entity = min (enclosing above entity) maxDepth := by
  unfold innerDepth enclosing
  split
  · omega
  · exact counted

/-- What is made for an entity comes from its template, or else it is nothing. -/
theorem headingOf_iff {depth : Nat} {tag : Tag} {children blocks : List Entity} {dropped : List SectionKind} :
    headingOf synthesis templates depth (.node tag children) = .ok (blocks, dropped) ↔
      ((∀ template, ¬ Wants templates tag children template) ∧ blocks = [] ∧ dropped = []) ∨
      ∃ template rendering, Wants templates tag children template ∧
        synthesis.formatter template (projectEntity synthesis.source (.node tag children))
          (Formatter.partOf (.node tag children)) = .ok rendering ∧
        blocks = shiftAll depth (synthesis.read rendering.text) ∧ dropped = rendering.dropped := by
  rw [headingOf_node]
  cases wants : wanted templates (.node tag children) with
  | false =>
    have unwanted (template : String) : ¬ Wants templates tag children template := by
      rw [wants_iff, wants]
      simp
    simp [unwanted, eq_comm]
  | true =>
    have both := wants
    rw [wanted, Bool.and_eq_true] at both
    obtain ⟨template, chosen⟩ := Option.isSome_iff_exists.mp both.1
    have own := wants_iff.mpr ⟨chosen, wants⟩
    have only (other : String) (also : Wants templates tag children other) : other = template :=
      Option.some.inj (also.template.symm.trans chosen)
    rw [if_pos rfl, chosen, Option.getD_some]
    constructor
    · intro made
      cases renders : synthesis.formatter template (projectEntity synthesis.source (.node tag children))
          (Formatter.partOf (.node tag children)) with
      | error fault =>
        rw [renders] at made
        cases made
      | ok rendering =>
        rw [renders] at made
        cases made
        exact .inr ⟨template, rendering, own, renders, rfl, rfl⟩
    · rintro (⟨unwanted, -⟩ | ⟨other, rendering, also, renders, rfl, rfl⟩)
      · exact absurd own (unwanted template)
      · obtain rfl := only other also
        rw [renders]
        rfl

theorem synthesize_node_iff {depth : Nat} {tag : Tag} {children : List Entity} {new : Entity} :
    synthesize synthesis templates depth (.node tag children) = (new, none) ↔
      ∃ blocks dropped kept, headingOf synthesis templates depth (.node tag children) = .ok (blocks, dropped) ∧
        synthesizeKept synthesis templates (innerDepth depth (.node tag children)) dropped children =
          (kept, none) ∧ new = .node tag (blocks ++ kept) := by
  constructor
  · intro made
    obtain ⟨blocks, dropped, found, fine, result⟩ := synthesize_fine (congrArg Prod.snd made)
    exact ⟨blocks, dropped, _, found, Prod.ext rfl fine, (congrArg Prod.fst made).symm.trans result⟩
  · rintro ⟨blocks, dropped, kept, found, inner, rfl⟩
    simp only [synthesize, found, inner]

/-- Headings are made without a failure exactly where the entity is headlined. -/
theorem synthesize_iff (leveled : ∀ text, ∀ entity ∈ synthesis.read text, Leveled entity) {above depth : Nat}
    (counted : depth = min above maxDepth) (entity new : Entity) :
    synthesize synthesis templates depth entity = (new, none) ↔
      Headlined synthesis templates above entity new := by
  induction entity using Entity.treeInduction generalizing above depth new with
  | leaf content =>
    constructor
    · intro same
      cases same
      exact .leaf above content
    · rintro ⟨⟩
      rfl
  | node tag children ih =>
    -- Whatever is dropped, the induction hypothesis is for all children that are left.
    have below (dropped : List SectionKind) (kept : List Entity) :
        synthesizeKept synthesis templates (innerDepth depth (.node tag children)) dropped children =
            (kept, none) ↔
          HeadlinedAll synthesis templates (enclosing above (.node tag children))
            (dropParts dropped children) kept := by
      rw [synthesizeKept_dropParts]
      refine synthesizeKept_iff fun child member new => ?_
      exact ih child ((dropParts_sublist dropped children).subset member)
        (innerDepth_counted counted (.node tag children)) new
    simp only [synthesize_node_iff, headingOf_iff, below]
    constructor
    · rintro ⟨blocks, dropped, kept, ⟨unwanted, rfl, rfl⟩ | ⟨template, rendering, wants, renders, rfl, rfl⟩,
        inner, rfl⟩
      · rw [dropParts_nil] at inner
        exact .bare unwanted inner
      · refine .headed wants renders ((lowered_blocks_iff counted).mpr rfl) ?_ inner
        rw [shiftAll_eq_map, List.forall_mem_map]
        exact fun block member => shift_leveled depth (leveled _ block member)
    · intro headlined
      cases headlined with
      | bare unwanted inner =>
        exact ⟨[], [], _, .inl ⟨unwanted, rfl, rfl⟩, by rwa [dropParts_nil], rfl⟩
      | headed wants renders front _ inner =>
        exact ⟨_, _, _, .inr ⟨_, _, wants, renders, (lowered_blocks_iff counted).mp front, rfl⟩, inner, rfl⟩

/-- The pass succeeds and leaves an entity exactly if it is the one with its headings in their places. -/
theorem apply_headlined_iff (source : SourceTree) (formatter : Formatter) (templates : HeadingTemplates)
    (entity new : Entity) :
    let synthesis : Synthesis := ⟨source, Markup.read, formatter⟩
    ((apply synthesis templates entity).failure = none ∧ (apply synthesis templates entity).entity = new) ↔
      Headlined synthesis templates 0 entity new := by
  intro synthesis
  have leveled : ∀ text, ∀ block ∈ synthesis.read text, block.Leveled := Markup.read_leveled
  rw [← synthesize_iff leveled (Nat.zero_min maxDepth).symm entity new, Prod.ext_iff, and_comm]
  refine and_congr_right fun _ => ?_
  exact Option.map_eq_none_iff

/-- A template for documents, and a document in a module. -/
def documentTemplates : HeadingTemplates :=
  { moduleDoc := "", document := "# \x7b\x7b name \x7d\x7d" }

def guideTag : Tag :=
  .document "Guide" ⟨"guide.md"⟩ ""

/-- A document that is not at the top gets no heading, whatever its template renders to. -/
theorem inner_document_unheaded :
    let entity : Entity := .node (.moduleDoc "io" "" {}) [.node guideTag []]
    let rendered := Formatter.template documentTemplates.document
      (projectEntity {} (.node guideTag [])) (Formatter.partOf (.node guideTag []))
    Wants documentTemplates guideTag [] documentTemplates.document ∧
      (rendered.toOption.map fun rendering => Markup.read rendering.text) =
        some [.node (.heading 1) [.text "Guide"]] ∧
      (apply ⟨{}, Markup.read, Formatter.template⟩ documentTemplates entity).failure = none ∧
      (apply ⟨{}, Markup.read, Formatter.template⟩ documentTemplates entity).entity = entity := by
  refine ⟨wants_iff.mpr ?_, ?_⟩
  · decide
  · decide +kernel

end DocComment.Headings
