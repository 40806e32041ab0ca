import DocComment.Proofs.Pass.Titles

/-! What is made from the default templates, for names that stay on one line. Each template for headings
gives a heading, and no template for links gives a link. So of a run with them only carriers of raw targets
have to be looked at. -/
namespace DocComment

open Entity (preorderAll)

/-- A name that ends no line. -/
def OneLine (name : String) : Prop :=
  ∀ c ∈ name.toList, c ≠ '\n' ∧ c ≠ '\r'

/-- A name that can stand in a code span. -/
def Quotable (name : String) : Prop :=
  OneLine name ∧ '`' ∉ name.toList

/-- A name that is all text once it is escaped. -/
def Spellable (name : String) : Prop :=
  (∀ c ∈ name.toList, c ≠ '\n' ∧ c ≠ '\r' ∧ c ≠ '\x0b' ∧ c ≠ '\x0c') ∧
    name.toList.getLast? ≠ some ' ' ∧ name.toList.getLast? ≠ some '\t'

namespace Markup

theorem oneLine_escapeFrom (lineStart : Bool) {name : String} (oneLine : OneLine name) :
    ∀ c ∈ escapeFrom lineStart name.toList, c ≠ '\n' ∧ c ≠ '\r' := by
  intro c member
  rcases mem_escapeFrom member with own | mark
  · exact oneLine c own
  · constructor <;> (rintro rfl; simp at mark)

/-- Marks, a blank and whatever else is on their line are read as one heading. -/
theorem read_marked (level : Nat) {body : List Char} (positive : 1 ≤ level) (atMost : level ≤ 6)
    (oneLine : ∀ c ∈ body, c ≠ '\n' ∧ c ≠ '\r') :
    ∃ content, read (String.ofList (List.replicate level '#' ++ ' ' :: body)) =
      [.node (.heading level) content] := by
  obtain ⟨⟨entities, builds, _⟩, _⟩ := inlineEvents_inlined [] (headingText (' ' :: body))
  have blocks := blocksOf_marked level positive atMost oneLine
  have all : events (List.replicate level '#' ++ ' ' :: body) =
      .enter (.heading level) :: inlineEvents [] (headingText (' ' :: body)) ++ [.leave] := by
    simp [events, blocks, allBlockEvents, blockEvents]
  refine ⟨gather entities, ?_⟩
  rw [read, String.toList_ofList, all, (builds.enclosed (.heading level)).treeOf]
  rfl

/-- A name in backticks is read as code, or as the backticks if there is no name. -/
theorem read_quoted {name : String} (quotable : Quotable name) :
    ∃ leaf, read ("`" ++ name ++ "`") = [.node .paragraph [.leaf leaf]] := by
  obtain ⟨oneLine, bare⟩ := quotable
  by_cases empty : name = ""
  · subst empty
    exact ⟨.text "``", by decide⟩
  · have fenced : Fenced name.toList 0 :=
      { nonempty := mt String.toList_eq_nil_iff.mp empty
        first := fun tick => bare (List.mem_of_head? tick)
        last := fun tick => bare (List.mem_of_getLast? tick)
        shorter := by rw [longestRun_of_not_mem bare]; exact Nat.one_pos
        oneLine := oneLine }
    refine ⟨.code (String.ofList (codeSpanText name.toList)), ?_⟩
    rw [← fenced.read_alone]
    congr 1
    apply String.toList_injective
    simp [fencedMarkup]

/-- An escaped name is read as text, or as nothing if there is no name. -/
theorem read_escaped {name : String} (spellable : Spellable name) :
    read (escape name) = [] ∨ ∃ leaf, read (escape name) = [.node .paragraph [.leaf leaf]] := by
  obtain ⟨known, ends⟩ := spellable
  by_cases empty : name = ""
  · subst empty
    exact .inl rfl
  · have chars : name.toList ≠ [] := mt String.toList_eq_nil_iff.mp empty
    have settled := goesOn_of_oneLine (fun member => (known _ member).1 rfl) ends
    have inLine : ∀ c ∈ name.toList, c ≠ '\n' ∧ c ≠ '\x0b' ∧ c ≠ '\x0c' := fun c member =>
      ⟨(known c member).1, (known c member).2.2⟩
    have reads := ReadsText.escaped true inLine follows_heading settled
    exact .inr ⟨_, reads.paragraph (inertText_escapeFrom chars known)
      (escapeFrom_head?_ne rfl (by decide)) chars⟩

end Markup

namespace Headings

variable {source : SourceTree}

/-- The name in the default heading of an entity. -/
def shownName? (source : SourceTree) : Entity → Option String
  | .node (.declaration id ..) _ => some (source.qualifiedName id)
  | .node (.moduleDoc name ..) _ => some name
  | .node (.group _ _ fields) _ => fields.outputSection
  | _ => none

/-- What is made for an entity is a mark, a caption and its escaped name. -/
theorem template_shown (source : SourceTree) {tag : Tag} {children : List Entity} {template : String}
    (chosen : ({} : HeadingTemplates).template? tag = some template)
    (wants : wantsHeading (.node tag children) = true) (part : SectionKind → Option String) :
    ∃ caption name, (∀ c ∈ caption, c ≠ '\n' ∧ c ≠ '\r') ∧
      shownName? source (.node tag children) = some name ∧
      Formatter.template template (projectEntity source (.node tag children)) part =
        .ok ⟨String.ofList ('#' :: ' ' :: (caption ++ Markup.escapeFrom true name.toList)), []⟩ := by
  obtain ⟨inked, rfl⟩ := HeadingTemplates.template?_eq_some chosen
  cases tag with
  | declaration id anchor fields =>
    have letters := Markup.caption_of_isCaption (isCaption_label (source.kind id))
    refine ⟨(source.kind id).label.toList ++ [' '], source.qualifiedName id, ?_, rfl, ?_⟩
    · refine List.forall_mem_append.mpr ⟨fun c member => ?_, by simp⟩
      exact ⟨(letters.known c member).1, (letters.letters c member).1⟩
    · rw [List.append_assoc]
      exact template_declaration source id fields part
  | moduleDoc name anchor fields =>
    refine ⟨"Module ".toList, name, by simp, rfl, ?_⟩
    refine Formatter.template_written HeadingTemplates.default_pieces.2.1 part ?_
    simp [projectEntity, projectModule, Template.Piece.written, Template.Piece.valueOf,
      Template.shown_ofString, Markup.escape]
  | group name anchor fields =>
    have given : fields.outputSection.isSome = true := by
      simp only [wantsHeading, Entity.fields?, Bool.and_eq_true] at wants
      exact wants.2.2
    obtain ⟨output, own⟩ := Option.isSome_iff_exists.mp given
    refine ⟨[], output, by simp, own, ?_⟩
    refine Formatter.template_written HeadingTemplates.default_pieces.2.2 part ?_
    simp [projectEntity, own, Template.Piece.written, Template.Piece.valueOf, Template.shown_ofString,
      Markup.escape]
  | _ => exact absurd (show (Text.stripped "").isEmpty = false from inked) (by decide)

/-- Whatever is made for an entity starts with a heading, if the name in it stays on its line. -/
theorem titled_default {node : Entity}
    (names : ∀ name, shownName? source node = some name → OneLine name) :
    titled ⟨source, Markup.read, Formatter.template⟩ {} node = true := by
  cases node with
  | leaf => rfl
  | node tag children =>
    unfold titled
    rw [headingOf_node]
    cases wants : wanted {} (.node tag children) with
    | false => rfl
    | true =>
      obtain ⟨given, wantsHeading⟩ := Bool.and_eq_true_iff.mp wants
      obtain ⟨template, chosen⟩ := Option.isSome_iff_exists.mp given
      obtain ⟨caption, name, plain, shown, rendered⟩ :=
        template_shown source chosen wantsHeading (Formatter.partOf (.node tag children))
      have oneLine : ∀ c ∈ caption ++ Markup.escapeFrom true name.toList, c ≠ '\n' ∧ c ≠ '\r' :=
        List.forall_mem_append.mpr ⟨plain, Markup.oneLine_escapeFrom true (names name shown)⟩
      have atMost : 1 ≤ 6 := by decide
      obtain ⟨content, read⟩ := Markup.read_marked 1 (Nat.le_refl 1) atMost oneLine
      rw [List.replicate_one, List.singleton_append] at read
      simp only [if_true, chosen, Option.getD_some, rendered, Except.map, read]
      rfl

end Headings

namespace LinkText

variable {source : SourceTree} {index : Index}

/-- The names that the default text for a target can show. -/
def Nameable (source : SourceTree) (index : Index) : LinkTarget → Prop
  | .declarationRef id => Quotable (source.name id) ∧
      ∀ fields name, (id, fields) ∈ index.documented → fields.outputName = some name → Quotable name
  | .moduleRef name => Spellable name
  | .inventoryRef entry => Quotable entry.entry
  | .uri _ | .unresolved _ => True

theorem knownIn_declarations (source : SourceTree) (index : Index) :
    (knownIn source index).declarations =
      index.documented.map fun entry => (entry.1, projectDeclaration source entry.1 entry.2) := by
  rw [Index.documented, List.map_filterMap]
  refine List.filterMap_congr fun entity _ => ?_
  rcases entity with _ | ⟨tag, _⟩
  · rfl
  · cases tag <;> rfl

/-- A declaration is shown by its name, or by the one for the output. -/
theorem projectionOf_declaration {id : DeclId} (contained : source.contains id = true)
    (nameable : Nameable source index (.declarationRef id)) :
    ∃ fields, Quotable (fields.outputName.getD (source.name id)) ∧
      projectionOf source (knownIn source index) (.declarationRef id) =
        projectDeclaration source id fields := by
  obtain ⟨named, output⟩ := nameable
  unfold projectionOf
  dsimp only
  rw [knownIn_declarations, contained, if_pos rfl]
  cases found : (index.documented.map fun entry =>
      (entry.1, projectDeclaration source entry.1 entry.2)).lookup id with
  | none => exact ⟨{}, named, rfl⟩
  | some projection =>
    obtain ⟨⟨id, fields⟩, documented, same⟩ := List.mem_map.mp (mem_of_lookup_eq_some found)
    cases same
    refine ⟨fields, ?_, rfl⟩
    cases outputName : fields.outputName with
    | none => exact named
    | some name => exact output fields name documented outputName

/-- A module is shown by its name. -/
theorem projectionOf_module (source : SourceTree) (index : Index) (name : String) : ∃ fields,
    projectionOf source (knownIn source index) (.moduleRef name) = projectModule name fields := by
  unfold projectionOf
  dsimp only
  cases found : (knownIn source index).modules.lookup name with
  | none => exact ⟨{}, rfl⟩
  | some projection =>
    obtain ⟨entity, _, same⟩ := List.mem_filterMap.mp (mem_of_lookup_eq_some found)
    split at same
    · cases same
      exact ⟨_, rfl⟩
    · cases same

variable {templates : LinkTemplates} {known : Known} {target : LinkTarget}

/-- There are no links in the text for a target if there are none in what its template is rendered to. -/
theorem isPlainText_of_rendered {rendered : String}
    (renders : Formatter.template.plain (templates.template target) (projectionOf source known target) =
      .ok rendered)
    (linkless : ∀ entity ∈ inlineContent (Markup.read rendered), entity.links = []) :
    isPlainText ⟨source, Markup.read, Formatter.template⟩ templates known target = true := by
  unfold isPlainText textOf
  dsimp only
  split
  · rfl
  · split
    · rfl
    · rw [renders]
      simpa using linkless

theorem inlineContent_leaf (leaf : Leaf) :
    ∀ entity ∈ inlineContent [.node .paragraph [.leaf leaf]], entity.links = [] := by
  intro entity member
  obtain rfl := List.mem_singleton.mp member
  rfl

/-- The pieces of the default templates that are not blank. -/
theorem default_pieces :
    (Template.parse ({} : LinkTemplates).declaration).toOption.bind Template.pieces? =
        some [.data "`", .raw "name", .data "`"] ∧
      (Template.parse ({} : LinkTemplates).moduleDoc).toOption.bind Template.pieces? =
        some [.variable_ "name"] ∧
      (Template.parse ({} : LinkTemplates).inventory).toOption.bind Template.pieces? =
        some [.data "`", .raw "entry", .data "`"] := by
  decide +kernel

theorem plain_pieces {template : String} {pieces : List Template.Piece}
    (parsed : (Template.parse template).toOption.bind Template.pieces? = some pieces) (projection : Json) :
    Formatter.template.plain template projection =
      .ok (pieces.foldr (fun piece rest =>
        piece.written (Template.Value.ofJson projection) Markup.escape ++ rest) "") := by
  rw [Formatter.plain, Formatter.template_pieces parsed]
  rfl

/-- A template that shows a name in backticks. -/
theorem plain_quoted {template member name : String} {projection : Json}
    (parsed : (Template.parse template).toOption.bind Template.pieces? =
      some [.data "`", .raw member, .data "`"])
    (shown : (Template.Value.ofJson projection).attribute? member = some (.ofString name)) :
    Formatter.template.plain template projection = .ok ("`" ++ name ++ "`") := by
  rw [plain_pieces parsed]
  simp [Template.Piece.written, Template.Piece.valueOf, shown, Template.Value.display,
    Template.Value.ofString, String.append_assoc]

/-- By default no text for a target has links in it. -/
theorem isPlainText_default (nameable : Nameable source index target) :
    isPlainText ⟨source, Markup.read, Formatter.template⟩ {} (knownIn source index) target = true := by
  cases target with
  | declarationRef id =>
    cases contained : source.contains id with
    | false => simp [isPlainText, textOf, contained]
    | true =>
      obtain ⟨fields, quotable, projected⟩ := projectionOf_declaration contained nameable
      have shown : (Template.Value.ofJson (projectDeclaration source id fields)).attribute? "name" =
          some (.ofString (fields.outputName.getD (source.name id))) := Projection.attribute?_name _
      rw [← projected] at shown
      obtain ⟨leaf, read⟩ := Markup.read_quoted quotable
      refine isPlainText_of_rendered (plain_quoted default_pieces.1 shown) ?_
      rw [read]
      exact inlineContent_leaf leaf
  | moduleRef name =>
    obtain ⟨fields, projected⟩ := projectionOf_module source index name
    have renders : Formatter.template.plain ({} : LinkTemplates).moduleDoc (projectModule name fields) =
        .ok (Markup.escape name) := by
      rw [plain_pieces default_pieces.2.1]
      simp [projectModule, Template.Piece.written, Template.Piece.valueOf, Template.shown_ofString]
    rw [← projected] at renders
    refine isPlainText_of_rendered renders ?_
    rcases Markup.read_escaped nameable with read | ⟨leaf, read⟩
    · rw [read]
      exact List.forall_mem_nil _
    · rw [read]
      exact inlineContent_leaf leaf
  | inventoryRef entry =>
    have shown : (Template.Value.ofJson (projectTarget (.inventoryRef entry))).attribute? "entry" =
        some (.ofString entry.entry) := by
      rw [projectTarget, Template.Value.attribute?_ofJson]
      simp [Template.Value.ofJson]
    obtain ⟨leaf, read⟩ := Markup.read_quoted nameable
    refine isPlainText_of_rendered (plain_quoted default_pieces.2.2 shown) ?_
    rw [read]
    exact inlineContent_leaf leaf
  | uri | unresolved => rfl

end LinkText

namespace Pipeline

variable {source : SourceTree} {options : PipelineOptions} {pool : Pool} {index : Index}
  {order : SetOrder}

/-- With the default templates a run does its work at once, if the names that it shows stay on their lines
and have no backticks in them, and no raw target that is looked up carries another one. -/
theorem Regular.of_default (templates : options.templates = {})
    (titles : ∀ node ∈ preorderAll (indexAfter pool index
        ((passes ⟨source, Markup.read, Formatter.template⟩ options order).take 1)).entities,
      ∀ name, Headings.shownName? source node = some name → OneLine name)
    (direct : ∀ entity ∈ (indexAfter pool index
        ((passes ⟨source, Markup.read, Formatter.template⟩ options order).take 3)).entities,
      ∀ raw ∈ Targets.unresolved entity, (Carrier.decode? raw).any LinkTarget.isUnresolved = false)
    (names : ∀ entity ∈ (indexAfter pool index
        ((passes ⟨source, Markup.read, Formatter.template⟩ options order).take 5)).entities,
      ∀ link ∈ entity.links, link.bare = true → LinkText.Nameable source (indexAfter pool index
        ((passes ⟨source, Markup.read, Formatter.template⟩ options order).take 5)) link.target) :
    Regular ⟨source, Markup.read, Formatter.template⟩ options pool index order where
  titled node member := by
    rw [templates]
    exact Headings.titled_default (titles node member)
  direct := direct
  plain entity member link among bare := by
    rw [templates]
    exact LinkText.isPlainText_default (names entity member link among bare)

end Pipeline

end DocComment
