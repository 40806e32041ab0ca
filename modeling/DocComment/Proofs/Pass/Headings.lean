import DocComment.Proofs.Pass.Exclusion

/-! Headings are made once: where one was made or none is wanted, none is made any more. Making
headings excludes nothing and takes no exclusion back. -/
namespace DocComment

open Entity (IsMarkup)

namespace Headings

variable {synthesis : Synthesis} {templates : HeadingTemplates}

/-- Whether a heading is made for an entity. -/
def wanted (templates : HeadingTemplates) : Entity → Bool
  | .leaf _ => false
  | .node tag children =>
    (templates.template? tag).isSome && wantsHeading (.node tag children)

/-- A heading is made from the rendered template. -/
theorem headingOf_node (depth : Nat) (tag : Tag) (children : List Entity) :
    headingOf synthesis templates depth (.node tag children) =
      if wanted templates (.node tag children) then
        (synthesis.formatter ((templates.template? tag).getD "")
          (projectEntity synthesis.source (.node tag children))
          (Formatter.partOf (.node tag children))).map fun rendering =>
            (shiftAll depth (synthesis.read rendering.text), rendering.dropped)
      else .ok ([], []) := by
  simp only [headingOf, wanted]
  split
  · rename_i blank
    simp [blank]
  · rename_i template chosen
    by_cases wants : wantsHeading (.node tag children) = true
    · simp only [chosen, wants, Option.isSome_some, Bool.and_self, Bool.not_true, Bool.false_eq_true,
        if_false, if_true, Option.getD_some]
      generalize synthesis.formatter template _ _ = result
      cases result <;> rfl
    · simp [wants]

/-- Whether what is made for an entity starts with a heading, if anything is made. -/
def titled (synthesis : Synthesis) (templates : HeadingTemplates) (entity : Entity) : Bool :=
  match headingOf synthesis templates 0 entity with
  | .ok (blocks, _) => !wanted templates entity || startsWithHeading blocks
  | .error _ => true

theorem startsWithHeading_cons (entity : Entity) (rest : List Entity) :
    startsWithHeading (entity :: rest) = startsWithHeading [entity] := by
  cases entity with
  | leaf => rfl
  | node tag => cases tag <;> rfl

theorem startsWithHeading_shiftAll (depth : Nat) (entities : List Entity) :
    startsWithHeading (shiftAll depth entities) = startsWithHeading entities := by
  cases entities with
  | nil => rfl
  | cons entity rest =>
    cases entity with
    | leaf => rfl
    | node tag => cases tag <;> simp [shiftAll, shift, startsWithHeading]

/-- What is put in front of the children: a heading if one is wanted, or else nothing. -/
theorem headingOf_cases {depth : Nat} {tag : Tag} {children blocks : List Entity}
    {dropped : List SectionKind}
    (named : titled synthesis templates (.node tag children) = true)
    (made : headingOf synthesis templates depth (.node tag children) = .ok (blocks, dropped)) :
    (wanted templates (.node tag children) = true ∧ startsWithHeading blocks = true) ∨
      (wanted templates (.node tag children) = false ∧ blocks = [] ∧ dropped = []) := by
  unfold titled at named
  rw [headingOf_node] at made named
  cases wants : wanted templates (.node tag children) with
  | false =>
    rw [wants] at made
    cases made
    exact .inr ⟨rfl, rfl, rfl⟩
  | true =>
    rw [wants, if_pos rfl] at made named
    generalize synthesis.formatter _ _ _ = result at made named
    cases result with
    | error => cases made
    | ok rendering =>
      cases made
      simp only [Except.map, startsWithHeading_shiftAll, Bool.not_true, Bool.false_or] at named ⊢
      exact .inl ⟨trivial, named⟩

/-- An entity that gets no heading, nor does anything in it that is visited. -/
inductive Headed (templates : HeadingTemplates) : Entity → Prop where
  | leaf (content : Leaf) : Headed templates (.leaf content)
  | node {tag : Tag} {children : List Entity}
      (unwanted : wanted templates (.node tag children) = false)
      (below : ∀ child ∈ children, isVisited child = true → Headed templates child) :
      Headed templates (.node tag children)

theorem synthesizeKept_unchanged {depth : Nat} {children : List Entity}
    (each : ∀ child ∈ children, isVisited child = true →
      synthesize synthesis templates depth child = (child, none)) :
    synthesizeKept synthesis templates depth [] children = (children, none) := by
  induction children with
  | nil => rfl
  | cons child rest ih =>
    have own : (if isVisited child then synthesize synthesis templates depth child
        else (child, none)) = (child, none) := by
      split
      · exact each child List.mem_cons_self ‹_›
      · rfl
    have later := ih fun other member => each other (List.mem_cons_of_mem _ member)
    have whole : child.partKind?.any [].contains = false := by
      cases child.partKind? <;> rfl
    simp only [synthesizeKept, whole, own, later, Bool.false_eq_true, if_false]

/-- Where no heading is to be made nothing happens. -/
theorem Headed.synthesize_eq {entity : Entity} (headed : Headed templates entity) (depth : Nat) :
    synthesize synthesis templates depth entity = (entity, none) := by
  induction headed generalizing depth with
  | leaf => rfl
  | @node tag children unwanted below ih =>
    have nothing : headingOf synthesis templates depth (.node tag children) = .ok ([], []) := by
      rw [headingOf_node, unwanted, if_neg Bool.false_ne_true]
    have inner := synthesizeKept_unchanged fun child member visited =>
      ih child member visited (innerDepth depth (.node tag children))
    simp only [synthesize, nothing, inner, List.nil_append]

/-- What is left of the children, when there is no failure: each as it was or with its own headings. -/
theorem mem_synthesizeKept {depth : Nat} {dropped : List SectionKind} {children : List Entity}
    (fine : (synthesizeKept synthesis templates depth dropped children).2 = none) {new : Entity}
    (member : new ∈ (synthesizeKept synthesis templates depth dropped children).1) :
    ∃ old ∈ children, (isVisited old = false ∧ new = old) ∨
      (isVisited old = true ∧ (synthesize synthesis templates depth old).2 = none ∧
        new = (synthesize synthesis templates depth old).1) := by
  induction children generalizing dropped with
  | nil => cases member
  | cons child rest ih =>
    unfold synthesizeKept at fine member
    split at fine
    · rename_i taken
      rw [if_pos taken] at member
      obtain ⟨old, present, holds⟩ := ih fine member
      exact ⟨old, List.mem_cons_of_mem _ present, holds⟩
    · rename_i kept
      rw [if_neg kept] at member
      cases visited : isVisited child with
      | false =>
        simp only [visited, Bool.false_eq_true, if_false] at fine member
        rcases List.mem_cons.mp member with same | later
        · exact ⟨child, List.mem_cons_self, .inl ⟨visited, same⟩⟩
        · obtain ⟨old, present, holds⟩ := ih fine later
          exact ⟨old, List.mem_cons_of_mem _ present, holds⟩
      | true =>
        simp only [visited, if_true] at fine member
        cases result : synthesize synthesis templates depth child with
        | mk changed fault =>
          rw [result] at fine member
          cases fault with
          | some => cases fine
          | none =>
            rcases List.mem_cons.mp member with same | later
            · exact ⟨child, List.mem_cons_self, .inr ⟨visited, by rw [result], by rw [same, result]⟩⟩
            · obtain ⟨old, present, holds⟩ := ih fine later
              exact ⟨old, List.mem_cons_of_mem _ present, holds⟩

/-- How a tag and a first heading decide whether a heading is wanted. -/
theorem wanted_congr {tag : Tag} {children children' : List Entity}
    (same : startsWithHeading children' = startsWithHeading children) :
    wanted templates (.node tag children') = wanted templates (.node tag children) := by
  cases tag <;> simp [wanted, wantsHeading, Entity.children, Entity.fields?, same]

theorem wanted_of_heading {tag : Tag} {children : List Entity}
    (heading : startsWithHeading children = true) : wanted templates (.node tag children) = false := by
  simp [wanted, wantsHeading, Entity.children, heading]

theorem isVisited_of_markup {entity : Entity} (markup : IsMarkup entity) : isVisited entity = false := by
  cases markup with
  | leaf => rfl
  | @node tag _ plain _ =>
    cases tag with
    | part | document | moduleDoc | group | declaration => cases plain
    | _ => rfl

/-- Without sections to drop the first child stays the first. -/
theorem synthesizeKept_head (synthesis : Synthesis) (templates : HeadingTemplates) (depth : Nat)
    (child : Entity) (rest : List Entity) :
    ∃ others, (synthesizeKept synthesis templates depth [] (child :: rest)).1 =
      (if isVisited child then synthesize synthesis templates depth child else (child, none)).1 ::
        others := by
  have whole : child.partKind?.any [].contains = false := by
    cases child.partKind? <;> rfl
  unfold synthesizeKept
  rw [if_neg (by simp [whole])]
  generalize (if isVisited child then synthesize synthesis templates depth child
    else (child, none)) = visited
  obtain ⟨new, fault⟩ := visited
  cases fault <;> exact ⟨_, rfl⟩

theorem startsWithHeading_synthesizeKept (depth : Nat) (children : List Entity) :
    startsWithHeading (synthesizeKept synthesis templates depth [] children).1 =
      startsWithHeading children := by
  cases children with
  | nil => rfl
  | cons child rest =>
    obtain ⟨others, head⟩ := synthesizeKept_head synthesis templates depth child rest
    rw [head, startsWithHeading_cons, startsWithHeading_cons child]
    split
    · cases child with
      | leaf => rfl
      | node tag _ =>
        unfold synthesize
        split <;> cases tag <;> rfl
    · rfl

theorem synthesizeKept_eq_nil {depth : Nat} {children : List Entity}
    (none : (synthesizeKept synthesis templates depth [] children).1 = []) : children = [] := by
  cases children with
  | nil => rfl
  | cons child rest =>
    obtain ⟨others, head⟩ := synthesizeKept_head synthesis templates depth child rest
    rw [head] at none
    cases none

/-- Without a failure a node has what is made for it and what is left of its children. -/
theorem synthesize_fine {depth : Nat} {tag : Tag} {children : List Entity}
    (fine : (synthesize synthesis templates depth (.node tag children)).2 = none) :
    ∃ blocks dropped,
      headingOf synthesis templates depth (.node tag children) = .ok (blocks, dropped) ∧
      (synthesizeKept synthesis templates (innerDepth depth (.node tag children)) dropped
        children).2 = none ∧
      (synthesize synthesis templates depth (.node tag children)).1 =
        .node tag (blocks ++ (synthesizeKept synthesis templates
          (innerDepth depth (.node tag children)) dropped children).1) := by
  unfold synthesize at fine ⊢
  split at fine
  · cases fine
  · rename_i blocks dropped made
    exact ⟨blocks, dropped, made, fine, rfl⟩

/-- After headings were made without a failure, none is to be made. -/
theorem synthesize_headed (markup : ∀ text, ∀ entity ∈ synthesis.read text, IsMarkup entity)
    {depth : Nat} {entity : Entity} (fine : (synthesize synthesis templates depth entity).2 = none)
    (named : ∀ node ∈ entity.preorder, titled synthesis templates node = true) :
    Headed templates (synthesize synthesis templates depth entity).1 := by
  induction entity using Entity.treeInduction generalizing depth with
  | leaf content => exact .leaf content
  | node tag children ih =>
    obtain ⟨blocks, dropped, made, inner, result⟩ := synthesize_fine fine
    rw [result]
    have own := named _ (Entity.mem_preorder_self _)
    constructor
    · rcases headingOf_cases own made with ⟨_, heading⟩ | ⟨unwanted, rfl, rfl⟩
      · refine wanted_of_heading ?_
        cases blocks with
        | nil => cases heading
        | cons block rest =>
          rw [startsWithHeading_cons] at heading
          rw [List.cons_append, startsWithHeading_cons, heading]
      · rw [← unwanted]
        exact wanted_congr (startsWithHeading_synthesizeKept _ children)
    · intro child member visited
      rcases List.mem_append.mp member with block | kept
      · rw [isVisited_of_markup (headingOf_markup markup made child block)] at visited
        cases visited
      · obtain ⟨old, present, ⟨unvisited, rfl⟩ | ⟨_, success, rfl⟩⟩ := mem_synthesizeKept inner kept
        · rw [unvisited] at visited
          cases visited
        · exact ih old present success fun node among =>
            named node (Entity.mem_preorder_of_child present among)

theorem headed_node {tag : Tag} {children : List Entity} :
    Headed templates (.node tag children) ↔ wanted templates (.node tag children) = false ∧
      ∀ child ∈ children, isVisited child = true → Headed templates child := by
  constructor
  · rintro (_ | ⟨unwanted, below⟩)
    exact ⟨unwanted, below⟩
  · rintro ⟨unwanted, below⟩
    exact .node unwanted below

theorem isVisited_outline (entity : Entity) : isVisited entity.outline = isVisited entity := by
  cases entity with
  | leaf => rfl
  | node tag _ => cases tag <;> rfl

theorem startsWithHeading_outline (entity : Entity) :
    startsWithHeading [entity.outline] = startsWithHeading [entity] := by
  cases entity with
  | leaf => rfl
  | node tag _ => cases tag <;> rfl

/-- A link gets no heading; the outlines of all other children tell which are headings. -/
theorem wanted_outline (templates : HeadingTemplates) (entity : Entity) :
    wanted templates entity.outline = wanted templates entity := by
  cases entity with
  | leaf => rfl
  | node tag children =>
    have first : startsWithHeading (children.map Entity.outline) = startsWithHeading children := by
      cases children with
      | nil => rfl
      | cons child rest =>
        rw [List.map_cons, startsWithHeading_cons, startsWithHeading_cons child,
          startsWithHeading_outline]
    cases tag with
    | link => rfl
    | _ =>
      simp only [Entity.outline, Tag.outline, Tag.isLink, Entity.outlineAll_false]
      exact wanted_congr first

/-- Outlines tell whether a heading is to be made. -/
theorem headed_outline (entity : Entity) :
    Headed templates entity.outline ↔ Headed templates entity := by
  induction entity using Entity.treeInduction with
  | leaf => rfl
  | node tag children ih =>
    have own := wanted_outline templates (.node tag children)
    have below : (∀ child ∈ Entity.outlineAll tag.isLink children, isVisited child = true →
          Headed templates child) ↔
        ∀ child ∈ children, isVisited child = true → Headed templates child := by
      cases tag.isLink with
      | false =>
        simp only [Entity.outlineAll_false, List.forall_mem_map, isVisited_outline]
        exact forall₂_congr fun child member => by rw [ih child member]
      | true =>
        simp only [Entity.outlineAll_true, List.forall_mem_map, isVisited_outline, List.mem_filter,
          and_imp]
        refine forall₂_congr fun child member => ?_
        rw [ih child member]
        have plain (visited : isVisited child = true) : (!child.isPlain) = true := by
          cases own : child.isPlain with
          | false => rfl
          | true => rw [isVisited_of_markup (Entity.isPlain_iff.mp own)] at visited; cases visited
        exact ⟨fun holds visited => holds (plain visited) visited, fun holds _ => holds⟩
    rw [Entity.outline] at own ⊢
    rw [headed_node, headed_node, own, below]

end Headings

namespace Exclusion

variable {synthesis : Synthesis} {templates : HeadingTemplates} {options : ExclusionOptions}

theorem Clear.of_markup {entity : Entity} (markup : IsMarkup entity) :
    Clear synthesis.source options entity := by
  induction markup with
  | leaf => simp [Clear, Entity.inside, Entity.children, Entity.catalogAll]
  | node _ below ih =>
    exact clear_node.mpr fun child member =>
      ⟨excludes_of_unnamed (below child member).stub?_eq_none, ih child member⟩

/-- Headings leave what is inside. -/
theorem Clear.synthesize (markup : ∀ text, ∀ entity ∈ synthesis.read text, IsMarkup entity)
    {depth : Nat} {entity : Entity} (clear : Clear synthesis.source options entity)
    (fine : (Headings.synthesize synthesis templates depth entity).2 = none) :
    Clear synthesis.source options (Headings.synthesize synthesis templates depth entity).1 := by
  induction entity using Entity.treeInduction generalizing depth with
  | leaf => exact clear
  | node tag children ih =>
    obtain ⟨blocks, dropped, made, inner, result⟩ := Headings.synthesize_fine fine
    rw [clear_node] at clear
    rw [result, clear_node]
    intro child member
    rcases List.mem_append.mp member with block | kept
    · have plain := Headings.headingOf_markup markup made child block
      exact ⟨excludes_of_unnamed plain.stub?_eq_none, .of_markup plain⟩
    · obtain ⟨old, present, ⟨_, rfl⟩ | ⟨_, success, rfl⟩⟩ := Headings.mem_synthesizeKept inner kept
      · exact clear child present
      · have own := clear old present
        rw [excludes_congr (Headings.stub?_synthesize _ old)]
        exact ⟨own.1, ih old present own.2 success⟩

/-- What is settled is settled after headings were made. -/
theorem Settled.synthesize (markup : ∀ text, ∀ entity ∈ synthesis.read text, IsMarkup entity)
    {depth : Nat} {entity : Entity} (settled : Settled synthesis.source options entity)
    (fine : (Headings.synthesize synthesis templates depth entity).2 = none)
    (named : Headings.titled synthesis templates entity = true) :
    Settled synthesis.source options (Headings.synthesize synthesis templates depth entity).1 := by
  refine settled.of_stub (Headings.stub?_synthesize depth entity) (fun clear => clear.synthesize markup fine) ?_
  intro _ none
  cases entity with
  | leaf => rfl
  | node tag children =>
    obtain ⟨blocks, dropped, made, _, result⟩ := Headings.synthesize_fine fine
    rw [result, Entity.children, List.append_eq_nil_iff] at none
    obtain ⟨rfl, left⟩ := none
    rcases Headings.headingOf_cases named made with ⟨_, heading⟩ | ⟨_, _, rfl⟩
    · cases heading
    · exact Headings.synthesizeKept_eq_nil left

end Exclusion

end DocComment
