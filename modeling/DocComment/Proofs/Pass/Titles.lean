import DocComment.Proofs.Markup.Titles
import DocComment.Proofs.Pass.Members
import DocComment.Proofs.Pass.Run
import DocComment.Proofs.Pass.Stability
import DocComment.Proofs.Template.Plain
import DocComment.Proofs.Text.Slug

/-! Headings and anchors of declarations by default. Templates without calls neither fail nor drop
sections, so that every declaration that headings are made for gets its own. It is one text, the label
of the kind and the qualified name. The anchor is made from it. -/
namespace DocComment

open Entity (IsMarkup)

namespace Headings

mutual

/-- An entity and all in it that headings are made for, in order. -/
def visited : Entity → List Entity
  | .leaf content => [.leaf content]
  | .node tag children => .node tag children :: visitedAll children

def visitedAll : List Entity → List Entity
  | [] => []
  | entity :: rest => (if isVisited entity then visited entity else []) ++ visitedAll rest

end

theorem visitedAll_eq_flatMap (children : List Entity) :
    visitedAll children = children.flatMap fun child => if isVisited child then visited child else [] := by
  induction children with
  | nil => rfl
  | cons child rest ih => simp [visitedAll, ih]

theorem visitedAll_append (first second : List Entity) :
    visitedAll (first ++ second) = visitedAll first ++ visitedAll second := by
  simp [visitedAll_eq_flatMap]

theorem visitedAll_markup {blocks : List Entity} (markup : ∀ block ∈ blocks, IsMarkup block) :
    visitedAll blocks = [] := by
  rw [visitedAll_eq_flatMap, List.flatMap_eq_nil_iff]
  intro block member
  rw [isVisited_of_markup (markup block member), if_neg Bool.false_ne_true]

/-- Changes that keep what is visited and relate all of it inside each child. -/
theorem visitedAll_forall₂ {related : Entity → Entity → Prop} {change : Entity → Entity}
    {children : List Entity} (kept : ∀ child ∈ children, isVisited (change child) = isVisited child)
    (each : ∀ child ∈ children, isVisited child = true →
      List.Forall₂ related (visited child) (visited (change child))) :
    List.Forall₂ related (visitedAll children) (visitedAll (children.map change)) := by
  rw [visitedAll_eq_flatMap, visitedAll_eq_flatMap]
  refine List.rel_flatMap (R := fun old new => old ∈ children ∧ new = change old)
    (Entity.forall₂_map fun child member => ⟨member, rfl⟩) ?_
  rintro child _ ⟨member, rfl⟩
  dsimp only
  rw [kept child member]
  split
  · exact each child member ‹_›
  · exact .nil

/-- Headings that always succeed and drop nothing. -/
def Whole (synthesis : Synthesis) (templates : HeadingTemplates) : Prop :=
  ∀ depth entity, ∃ blocks, headingOf synthesis templates depth entity = .ok (blocks, [])

/-- The new children of an entity are what is made for it and what was there before. -/
def Opened (synthesis : Synthesis) (templates : HeadingTemplates) (old new : Entity) : Prop :=
  ∃ depth blocks kept, headingOf synthesis templates depth old = .ok (blocks, []) ∧
    new = old.withChildren (blocks ++ kept)

variable {synthesis : Synthesis} {templates : HeadingTemplates}

theorem isVisited_withTag (tag : Tag) (children children' : List Entity) :
    isVisited (.node tag children') = isVisited (.node tag children) := by
  cases tag <;> rfl

/-- The children with the headings inside them. -/
def changed (synthesis : Synthesis) (templates : HeadingTemplates) (depth : Nat) (child : Entity) :
    Entity :=
  if isVisited child then (synthesize synthesis templates depth child).1 else child

theorem synthesizeKept_whole {depth : Nat} {children : List Entity}
    (each : ∀ child ∈ children, (synthesize synthesis templates depth child).2 = none) :
    synthesizeKept synthesis templates depth [] children =
      (children.map (changed synthesis templates depth), none) := by
  induction children with
  | nil => rfl
  | cons child rest ih =>
    have own : (if isVisited child then synthesize synthesis templates depth child
        else (child, none)) = (changed synthesis templates depth child, none) := by
      unfold changed
      split
      · exact Prod.ext rfl (each child List.mem_cons_self)
      · rfl
    have later := ih fun other member => each other (List.mem_cons_of_mem _ member)
    have whole : child.partKind?.any [].contains = false := by
      cases child.partKind? <;> rfl
    simp only [synthesizeKept, whole, own, later, Bool.false_eq_true, if_false, List.map_cons]

/-- Every entity that is visited gets what is made for it. -/
theorem synthesize_whole (whole : Whole synthesis templates)
    (markup : ∀ text, ∀ entity ∈ synthesis.read text, IsMarkup entity) (depth : Nat) (entity : Entity) :
    (synthesize synthesis templates depth entity).2 = none ∧
      isVisited (synthesize synthesis templates depth entity).1 = isVisited entity ∧
      List.Forall₂ (Opened synthesis templates) (visited entity)
        (visited (synthesize synthesis templates depth entity).1) := by
  induction entity using Entity.treeInduction generalizing depth with
  | leaf content => exact ⟨rfl, rfl, .cons ⟨depth, [], [], rfl, rfl⟩ .nil⟩
  | node tag children ih =>
    obtain ⟨blocks, made⟩ := whole depth (.node tag children)
    have kept := synthesizeKept_whole fun child member =>
      (ih child member (innerDepth depth (.node tag children))).1
    simp only [synthesize, made, kept]
    refine ⟨trivial, isVisited_withTag tag _ _, ?_⟩
    rw [visited, visited, visitedAll_append, visitedAll_markup (headingOf_markup markup made),
      List.nil_append]
    refine .cons ⟨depth, blocks, _, made, rfl⟩ (visitedAll_forall₂ ?_ ?_)
    · intro child member
      unfold changed
      split
      · exact (ih child member _).2.1
      · rfl
    · intro child member own
      rw [changed, if_pos own]
      exact (ih child member _).2.2

end Headings

namespace Anchors

open Headings (visited isVisited)

theorem isVisited_apply (entity : Entity) : isVisited (apply entity) = isVisited entity := by
  rw [← Headings.isVisited_outline, apply_outline, Headings.isVisited_outline]

theorem visited_apply (entity : Entity) : visited (apply entity) = (visited entity).map apply := by
  induction entity using Entity.treeInduction with
  | leaf => rfl
  | node tag children ih =>
    obtain ⟨tag', own, _⟩ := anchored_outline tag children
    have applied : apply (.node tag children) = .node tag' (children.map apply) := by
      rw [apply, own, applyAll_eq_map, Entity.withChildren]
    rw [applied, visited, visited, List.map_cons, applied, Headings.visitedAll_eq_flatMap,
      Headings.visitedAll_eq_flatMap, List.flatMap_map, List.map_flatMap]
    refine congrArg _ (List.flatMap_congr fun child member => ?_)
    rw [isVisited_apply]
    split
    · exact ih child member
    · rfl

end Anchors

theorem Formatter.template_pieces {source : String} {pieces : List Template.Piece}
    (parsed : (Template.parse source).toOption.bind Template.pieces? = some pieces) (projection : Json)
    (part : SectionKind → Option String) :
    Formatter.template source projection part =
      .ok ⟨pieces.foldr (fun piece rest =>
        piece.written (Template.Value.ofJson projection) Markup.escape ++ rest) "", []⟩ := by
  rw [Formatter.template, Formatter.ofEngine, TemplateEngine.standard, Template.interpret_pieces parsed]
  rfl

theorem Formatter.template_written {source : String} {pieces : List Template.Piece} {projection : Json}
    (parsed : (Template.parse source).toOption.bind Template.pieces? = some pieces)
    (part : SectionKind → Option String) {written : List Char}
    (spelled : (pieces.foldr (fun piece rest =>
      piece.written (Template.Value.ofJson projection) Markup.escape ++ rest) "").toList = written) :
    Formatter.template source projection part = .ok ⟨String.ofList written, []⟩ := by
  rw [Formatter.template_pieces parsed, ← spelled, String.ofList_toList]

namespace HeadingTemplates

/-- Templates of text and variables alone. -/
def Plain (templates : HeadingTemplates) : Prop :=
  ∀ tag template, templates.template? tag = some template →
    ∃ pieces, (Template.parse template).toOption.bind Template.pieces? = some pieces

/-- The pieces of the default templates. -/
theorem default_pieces :
    (Template.parse ({} : HeadingTemplates).declaration).toOption.bind Template.pieces? =
        some [.data "# ", .variable_ "kind_label", .data " ", .variable_ "qualified_name"] ∧
      (Template.parse ({} : HeadingTemplates).moduleDoc).toOption.bind Template.pieces? =
        some [.data "# Module ", .variable_ "name"] ∧
      (Template.parse ({} : HeadingTemplates).group).toOption.bind Template.pieces? =
        some [.data "# ", .variable_ "output_section"] := by
  decide +kernel

theorem template?_declaration (declared : DeclId) (id : String) (fields : Fields) :
    ({} : HeadingTemplates).template? (.declaration declared id fields) =
      some ({} : HeadingTemplates).declaration := by
  have inked : (Text.stripped ({} : HeadingTemplates).declaration).isEmpty = false := by
    decide
  unfold template?
  dsimp only at inked ⊢
  rw [inked, if_neg Bool.false_ne_true]

/-- The template for a kind of entity, blank or not. -/
def ofTag (templates : HeadingTemplates) : Tag → String
  | .declaration .. => templates.declaration
  | .moduleDoc .. => templates.moduleDoc
  | .group .. => templates.group
  | .document .. => templates.document
  | _ => ""

theorem template?_eq_some {templates : HeadingTemplates} {tag : Tag} {template : String}
    (chosen : templates.template? tag = some template) :
    (Text.stripped template).isEmpty = false ∧ templates.ofTag tag = template := by
  have unblank : (if (Text.stripped (templates.ofTag tag)).isEmpty then none
      else some (templates.ofTag tag)) = some template := by
    cases tag <;> exact chosen
  rw [Option.ite_none_left_eq_some, Option.some_inj] at unblank
  obtain ⟨inked, rfl⟩ := unblank
  exact ⟨eq_false_of_ne_true inked, rfl⟩

theorem default_plain : Plain {} := by
  intro tag template chosen
  obtain ⟨inked, rfl⟩ := template?_eq_some chosen
  cases tag with
  | declaration => exact ⟨_, default_pieces.1⟩
  | moduleDoc => exact ⟨_, default_pieces.2.1⟩
  | group => exact ⟨_, default_pieces.2.2⟩
  | _ => exact absurd (show (Text.stripped "").isEmpty = false from inked) (by decide)

end HeadingTemplates

namespace Headings

theorem whole_of_plain {templates : HeadingTemplates} (plain : templates.Plain) (source : SourceTree)
    (read : String → List Entity) : Whole ⟨source, read, Formatter.template⟩ templates := by
  intro depth entity
  cases entity with
  | leaf => exact ⟨_, rfl⟩
  | node tag children =>
    rw [headingOf_node]
    split
    · rename_i wants
      obtain ⟨template, chosen⟩ := Option.isSome_iff_exists.mp (Bool.and_eq_true_iff.mp wants).1
      obtain ⟨pieces, parsed⟩ := plain tag template chosen
      dsimp only
      rw [chosen, Option.getD_some, Formatter.template_pieces parsed]
      exact ⟨_, rfl⟩
    · exact ⟨_, rfl⟩

theorem isCaption_label (kind : DeclKind) : Markup.isCaption kind.label.toList = true := by
  cases kind <;> decide

end Headings

namespace Projection

variable (projection : Projection)

@[simp]
theorem attribute?_name :
    (Template.Value.ofJson projection.toJson).attribute? "name" = some (.ofString projection.name) := by
  rw [toJson, Template.Value.attribute?_ofJson]
  simp [Template.Value.ofJson]

@[simp]
theorem attribute?_qualifiedName : (Template.Value.ofJson projection.toJson).attribute? "qualified_name" =
    some (.ofString projection.qualifiedName) := by
  rw [toJson, Template.Value.attribute?_ofJson]
  simp [Template.Value.ofJson]

@[simp]
theorem attribute?_kindLabel : (Template.Value.ofJson projection.toJson).attribute? "kind_label" =
    some (.ofString projection.kindLabel) := by
  rw [toJson, Template.Value.attribute?_ofJson]
  simp [Template.Value.ofJson]

@[simp]
theorem attribute?_outputSection {output : String} (own : projection.fields.outputSection = some output) :
    (Template.Value.ofJson projection.toJson).attribute? "output_section" = some (.ofString output) := by
  rw [toJson, Template.Value.attribute?_ofJson, own]
  rfl

end Projection

namespace Headings

/-- A heading of the label as it is and of the escaped name. -/
theorem template_declaration (source : SourceTree) (id : DeclId) (fields : Fields)
    (part : SectionKind → Option String) :
    Formatter.template ({} : HeadingTemplates).declaration (projectDeclaration source id fields) part =
      .ok ⟨String.ofList ('#' :: ' ' :: ((source.kind id).label.toList ++
        ' ' :: Markup.escapeFrom true (source.qualifiedName id).toList)), []⟩ := by
  have bare : Markup.escapeFrom true (source.kind id).label.toList = (source.kind id).label.toList := by
    have letters := (Markup.caption_of_isCaption (isCaption_label (source.kind id))).escapeFrom true []
    rwa [List.append_nil, Markup.escapeFrom, List.append_nil] at letters
  refine Formatter.template_written HeadingTemplates.default_pieces.1 part ?_
  simp [projectDeclaration, Template.Piece.written, Template.Piece.valueOf, Template.shown_ofString,
    Markup.escape, bare]

/-- The title of a declaration: the label of its kind and its qualified name. -/
def title (source : SourceTree) (id : DeclId) : String :=
  (source.kind id).label ++ " " ++ source.qualifiedName id

/-- The default heading of a declaration is one text, the title up to spaces at its end. -/
theorem headingOf_declaration {source : SourceTree} {id : DeclId} {fields : Fields}
    {children : List Entity} (included : fields.excludeMode ≠ .exclude)
    (first : startsWithHeading children = false)
    (printable : ∀ c ∈ (source.qualifiedName id).toList, ' ' ≤ c) (depth : Nat) (anchor : String) :
    ∃ text spaces, (title source id).toList = text ++ List.replicate spaces ' ' ∧
      headingOf ⟨source, Markup.read, Formatter.template⟩ {} depth
          (.node (.declaration id anchor fields) children) =
        .ok ([.node (.heading (min (1 + depth) maxLevel)) [.text (String.ofList text)]], []) := by
  have known : ∀ c ∈ (source.qualifiedName id).toList,
      c ≠ '\n' ∧ c ≠ '\r' ∧ c ≠ '\t' ∧ c ≠ '\x0b' ∧ c ≠ '\x0c' := by
    intro c member
    have shows := printable c member
    refine ⟨?_, ?_, ?_, ?_, ?_⟩ <;> (rintro rfl; exact absurd shows (by decide))
  have letters := Markup.caption_of_isCaption (isCaption_label (source.kind id))
  obtain ⟨text, spaces, same, read⟩ := Markup.read_title letters known
  have wants : wanted {} (.node (.declaration id anchor fields) children) = true := by
    simp [wanted, HeadingTemplates.template?_declaration, wantsHeading, Entity.children, first,
      Entity.fields?, included]
  refine ⟨text, spaces, by simp [title, ← same], ?_⟩
  rw [headingOf_node, if_pos wants, HeadingTemplates.template?_declaration, Option.getD_some,
    projectEntity]
  dsimp only
  rw [template_declaration, Except.map, read]
  rfl

/-- What headings and anchors make of an entity. Only declarations that are not excluded and have neither
a heading nor an anchor are described. -/
def Titled (source : SourceTree) (old new : Entity) : Prop :=
  ∀ id fields children, old = .node (.declaration id "" fields) children →
    fields.excludeMode ≠ .exclude → startsWithHeading children = false →
    (∀ c ∈ (source.qualifiedName id).toList, ' ' ≤ c) →
    ∃ level text spaces rest,
      (title source id).toList = text ++ List.replicate spaces ' ' ∧
      new = .node (.declaration id (Text.slug (title source id)) fields)
        (.node (.heading level) [.text (String.ofList text)] :: rest)

theorem titled_of_opened {source : SourceTree} {old middle : Entity}
    (opened : Opened ⟨source, Markup.read, Formatter.template⟩ {} old middle) :
    Titled source old (Anchors.apply middle) := by
  rintro id fields children rfl included first printable
  obtain ⟨depth, blocks, kept, made, rfl⟩ := opened
  obtain ⟨text, spaces, same, heading⟩ := headingOf_declaration included first printable depth ""
  rw [heading] at made
  obtain ⟨rfl, _⟩ := Prod.mk.inj (Except.ok.inj made)
  refine ⟨min (1 + depth) maxLevel, text, spaces, Anchors.applyAll kept, same, ?_⟩
  have slug : Text.slug (title source id) = Text.slug (String.ofList text) := by
    rw [← Text.slug_spaced text spaces, ← same, String.ofList_toList]
  rw [slug]
  simp [Entity.withChildren, Anchors.apply, Anchors.anchored, Entity.anchor?, Entity.children,
    Anchors.headingText?, Entity.setAnchor, Entity.plainTextAll, Entity.plainText, Anchors.applyAll]

end Headings

namespace Pipeline

open Headings (visited Titled)

/-- With the default templates, headings and anchors succeed. All declarations that are visited and have
neither get both, from the label of the kind and the qualified name alone. -/
theorem default_titles (source : SourceTree) (index : Index) (diagnostics : Diagnostics) {pool : Pool}
    (works : pool.fate = .run) :
    let passes := [Headings.pass ⟨source, Markup.read, Formatter.template⟩ {}, Anchors.pass]
    let result := runAll source pool index diagnostics passes
    result.2.2 = 0 ∧ List.Forall₂ (Titled source) (index.entities.flatMap visited)
      (result.1.entities.flatMap visited) := by
  intro passes result
  have markup := Synthesis.read_markup source Formatter.template
  have whole := Headings.whole_of_plain HeadingTemplates.default_plain source Markup.read
  have made := Headings.synthesize_whole whole markup 0
  have headings : (Headings.pass ⟨source, Markup.read, Formatter.template⟩ {}).Succeeds pool index := by
    intro entity _
    refine ⟨works, ?_⟩
    simp only [Headings.pass, Headings.apply, (made entity).1, Option.map_none]
  have anchors (index : Index) : Anchors.pass.Succeeds pool index := fun _ _ => ⟨works, rfl⟩
  rw [runAll_failures, runAll_index]
  refine ⟨⟨headings, anchors _, trivial⟩, ?_⟩
  simp only [passes, indexAfter, List.foldl_cons, List.foldl_nil, (anchors _).entities,
    headings.entities, List.map_map, List.flatMap_map]
  refine List.rel_flatMap (R := Eq) (List.forall₂_refl _) ?_
  rintro entity _ rfl
  dsimp only [Function.comp_apply, Anchors.pass, Headings.pass, Headings.apply]
  rw [Anchors.visited_apply, List.forall₂_map_right_iff]
  exact (made entity).2.2.imp fun _ _ => Headings.titled_of_opened

/-- A file with a declaration that has all kinds of marks in its name. -/
def operatorTree : SourceTree :=
  ({} : SourceTree).addFile "units.hpp" |>.add 0 .conversion "operator*<_[`T`](&amp;)>_ #  "

theorem default_titles_operator :
    let passes := [Headings.pass ⟨operatorTree, Markup.read, Formatter.template⟩ {}, Anchors.pass]
    let index : Index := ⟨[.node (.declaration 1 "" {}) []], []⟩
    let after := (runAll operatorTree .synchronous index {} passes).1
    Pool.synchronous.fate = .run ∧ ∃ level text spaces rest,
      "Conversion operator operator*<_[`T`](&amp;)>_ #  ".toList =
        text ++ List.replicate spaces ' ' ∧
      after.entities.flatMap visited =
        [.node (.declaration 1 "conversion-operator-operator_tamp_" {})
          (.node (.heading level) [.text (String.ofList text)] :: rest)] := by
  have works : Pool.synchronous.fate = .run := rfl
  have title : Headings.title operatorTree 1 = "Conversion operator operator*<_[`T`](&amp;)>_ #  " := by
    decide
  have slug : Text.slug "Conversion operator operator*<_[`T`](&amp;)>_ #  " =
      "conversion-operator-operator_tamp_" := by
    decide
  have related := (default_titles operatorTree ⟨[.node (.declaration 1 "" {}) []], []⟩ {} works).2
  refine ⟨works, ?_⟩
  generalize List.flatMap visited (runAll _ _ _ _ _).1.entities = left at related ⊢
  cases related with
  | cons titled none =>
    cases none
    obtain ⟨level, text, spaces, rest, same, rfl⟩ :=
      titled 1 {} [] rfl (by decide) rfl (List.all_iff_forall_prop.mp (by decide +kernel))
    rw [title] at same ⊢
    rw [slug]
    exact ⟨level, text, spaces, rest, same, rfl⟩

/-- A file with two functions. -/
def functionTree : SourceTree :=
  ({} : SourceTree).addFile "swap.hpp" |>.add 0 .function "swap" |>.add 0 .function "take"

/-- A declaration that stands in a quote gets neither a heading nor an anchor. -/
theorem quoted_declaration_untitled :
    let quoted : Entity := .node .blockQuote [.node (.declaration 2 "" {}) []]
    let entity : Entity := .node (.declaration 1 "" {}) [quoted]
    let passes := [Headings.pass ⟨functionTree, Markup.read, Formatter.template⟩ {}, Anchors.pass]
    let result := runAll functionTree .synchronous (Index.insert {} entity).1 {} passes
    functionTree.qualifiedName 2 = "take" ∧ (Index.insert {} entity).2 = none ∧ result.2.2 = 0 ∧
      result.1.entities = [.node (.declaration 1 "function-swap" {})
        [.node (.heading 1) [.text "Function swap"], quoted]] := by
  decide +kernel

end Pipeline

end DocComment
