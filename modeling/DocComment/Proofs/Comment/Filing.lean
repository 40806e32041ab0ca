import DocComment.Proofs.Comment.Metadata
import DocComment.Proofs.Comment.Shape
import DocComment.Proofs.Entity.Sections

/-! What the sections of documentation hold. Every node files content under a kind, and a section holds
what is filed under its kind, in the order of the nodes. A brief that is only implied is filed as if it
were written out. -/
namespace DocComment.Comment

open Entity (IsMarkup)

variable {source : SourceTree} {binding : Binding}

/-- What a node files once the brief is given, and under which kind. The documentation of a part is filed
as a whole. -/
def Node.filings (source : SourceTree) (binding : Binding) : Node → Sections
  | .markup blocks => blocks.map fun block => (.details, [block])
  | .special .. => []
  | .part kind content => [(kind, content)]
  | .inline command name content line =>
    ((Node.inline command name content line).part? source binding).toList.map fun part =>
      (command.sectionKind, [partDocumentation part content])

def filingsOf (source : SourceTree) (binding : Binding) (nodes : List Node) : Sections :=
  nodes.flatMap (Node.filings source binding)

/-- Blocks that are under no section. -/
def Node.unlabeled : Node → List Entity
  | .markup blocks => blocks
  | _ => []

/-- The paragraph that implies a brief: the first block under no section. -/
def impliedBrief? (nodes : List Node) : Option (List Entity) :=
  match (nodes.flatMap Node.unlabeled).head? with
  | some (.paragraph children) => some children
  | _ => none

/-- The nodes with the brief that they imply written out. -/
def withImplied : List Node → List Node
  | [] => []
  | .markup (.paragraph children :: blocks) :: rest =>
    .part .brief [.paragraph (splitFirstSentence children).1] ::
      .markup (afterBrief children ++ blocks) :: rest
  | .markup (block :: blocks) :: rest => .markup (block :: blocks) :: rest
  | node :: rest => node :: withImplied rest

/-- The nodes with their brief, if any, written out. One that is given leaves none to be implied. -/
def withBrief (nodes : List Node) : List Node :=
  if nodes.any isBriefNode then nodes else withImplied nodes

theorem sectionKind_ne_brief (command : InlineCommand) : command.sectionKind ≠ .brief := by
  cases command <;> decide

theorem filingsOf_cons (node : Node) (rest : List Node) :
    filingsOf source binding (node :: rest) =
      node.filings source binding ++ filingsOf source binding rest :=
  List.flatMap_cons

/-- Without a brief among the nodes, none is filed. -/
theorem filings_brief {node : Node} (other : isBriefNode node = false) :
    (node.filings source binding).filter (·.1 == .brief) = [] := by
  refine List.filter_eq_nil_iff.mpr fun filing member => ?_
  rw [beq_iff_eq]
  cases node with
  | markup blocks =>
    obtain ⟨_, _, rfl⟩ := List.mem_map.mp member
    nofun
  | special => cases member
  | part kind content =>
    rw [List.mem_singleton.mp member]
    rintro rfl
    cases other
  | inline command name content line =>
    obtain ⟨_, _, rfl⟩ := List.mem_map.mp member
    exact sectionKind_ne_brief command

theorem filingsOf_brief {nodes : List Node} (unbriefed : nodes.any isBriefNode = false) :
    (filingsOf source binding nodes).filter (·.1 == .brief) = [] := by
  rw [filingsOf, List.filter_flatMap, List.flatMap_eq_nil_iff]
  exact fun node member => filings_brief (by simpa using List.any_eq_false.mp unbriefed node member)

/-- Writing out the brief changes no sections but the brief and the details. -/
theorem withImplied_other {kind : SectionKind} (noBrief : kind ≠ .brief) (noDetails : kind ≠ .details)
    (nodes : List Node) :
    (filingsOf source binding (withImplied nodes)).filter (·.1 == kind) =
      (filingsOf source binding nodes).filter (·.1 == kind) := by
  have unlabeled (blocks : List Entity) :
      ((Node.markup blocks).filings source binding).filter (·.1 == kind) = [] := by
    refine List.filter_eq_nil_iff.mpr fun filing member => ?_
    obtain ⟨_, _, rfl⟩ := List.mem_map.mp member
    simpa using noDetails.symm
  fun_induction withImplied nodes with
  | case1 => rfl
  | case2 children blocks rest =>
    simp only [filingsOf_cons, List.filter_append, unlabeled, List.nil_append]
    simp [Node.filings, noBrief.symm]
  | case3 => rfl
  | case4 node rest _ _ ih => rw [filingsOf_cons, filingsOf_cons, List.filter_append, ih, List.filter_append]

theorem withImplied_brief {nodes : List Node} (unbriefed : nodes.any isBriefNode = false) :
    (filingsOf source binding (withImplied nodes)).under .brief =
      (impliedBrief? nodes).map fun children => [.paragraph (splitFirstSentence children).1] := by
  have nothing {filings : Sections} (unfiled : filings.filter (·.1 == .brief) = []) :
      filings.under .brief = none := by
    simp [Sections.under, unfiled]
  fun_induction withImplied nodes with
  | case1 => rfl
  | case2 children blocks rest =>
    rw [List.any_cons, Bool.or_eq_false_iff] at unbriefed
    have later : (filingsOf source binding (.markup (afterBrief children ++ blocks) :: rest)).filter
        (·.1 == .brief) = [] := by
      rw [filingsOf_cons, List.filter_append, filings_brief rfl, filingsOf_brief unbriefed.2]
      rfl
    rw [filingsOf_cons, Node.filings, List.singleton_append, Sections.under_cons, if_pos rfl,
      nothing later]
    rfl
  | case3 block blocks rest other =>
    rw [nothing (filingsOf_brief unbriefed)]
    have first : impliedBrief? (.markup (block :: blocks) :: rest) = none := by
      simp only [impliedBrief?, List.flatMap_cons, Node.unlabeled, List.cons_append, List.head?_cons]
      split
      · rename_i children same
        exact absurd (Option.some.inj same) (other children)
      · rfl
    rw [first]
    rfl
  | case4 node rest empty others ih =>
    rw [List.any_cons, Bool.or_eq_false_iff] at unbriefed
    have none : node.unlabeled = [] := by
      cases node with
      | markup blocks =>
        cases blocks with
        | nil => rfl
        | cons block more => exact absurd rfl (others block more)
      | _ => rfl
    have later : (filingsOf source binding (node :: withImplied rest)).filter (·.1 == .brief) =
        (filingsOf source binding (withImplied rest)).filter (·.1 == .brief) := by
      rw [filingsOf_cons, List.filter_append, filings_brief unbriefed.1, List.nil_append]
    rw [Sections.under_congr later, ih unbriefed.2]
    simp [impliedBrief?, none]

theorem withBrief_other {kind : SectionKind} (noBrief : kind ≠ .brief) (noDetails : kind ≠ .details)
    (nodes : List Node) :
    (filingsOf source binding (withBrief nodes)).under kind =
      (filingsOf source binding nodes).under kind := by
  unfold withBrief
  split
  · rfl
  · exact Sections.under_congr (withImplied_other noBrief noDetails nodes)

theorem withBrief_brief (nodes : List Node) :
    (filingsOf source binding (withBrief nodes)).under .brief =
      if nodes.any isBriefNode then (filingsOf source binding nodes).under .brief
      else (impliedBrief? nodes).map fun children => [.paragraph (splitFirstSentence children).1] := by
  unfold withBrief
  split
  · rfl
  · rename_i unbriefed
    exact withImplied_brief (Bool.eq_false_iff.mpr unbriefed)

/-- What a node does to a draft whose brief is given. -/
theorem Draft.apply_filings {draft next : Draft} {node : Node} (given : draft.wantsBrief = false)
    (success : draft.apply source binding name node = .ok next) :
    next.wantsBrief = false ∧
      next.sections = draft.sections.fileAll (node.filings source binding) := by
  cases Draft.applies success with
  | markup blocks =>
    rw [given, addUnlabeledAll_false]
    exact ⟨rfl, rfl⟩
  | special | part => exact ⟨given, rfl⟩
  | inline bound found fresh =>
    subst bound
    refine ⟨given, ?_⟩
    rw [Node.filings, Node.part?, found]
    rfl

theorem Draft.applyAll_filings {draft final : Draft} {nodes : List Node} (given : draft.wantsBrief = false)
    (success : nodes.foldlM (Draft.apply source binding name) draft = .ok final) :
    final.sections = draft.sections.fileAll (filingsOf source binding nodes) := by
  induction nodes generalizing draft with
  | nil => cases success; rfl
  | cons node rest ih =>
    rw [List.foldlM_cons, Except.bind_eq_ok] at success
    obtain ⟨next, applied, success⟩ := success
    obtain ⟨later, sections⟩ := apply_filings given applied
    rw [ih later success, sections, filingsOf_cons, Sections.fileAll, Sections.fileAll,
      Sections.fileAll, List.foldl_append]

/-- The brief counts as given. -/
def Draft.briefed (draft : Draft) : Draft :=
  { draft with wantsBrief := false }

/-- A node that is no markup does not care whether a brief is wanted. -/
theorem Draft.apply_briefed {node : Node} (plain : ∀ blocks, node ≠ .markup blocks) (draft : Draft) :
    (draft.apply source binding name node).map Draft.briefed =
        draft.briefed.apply source binding name node ∧
      ∀ next, draft.apply source binding name node = .ok next → next.wantsBrief = draft.wantsBrief := by
  cases node with
  | markup blocks => exact absurd rfl (plain blocks)
  | special special arguments line =>
    simp only [Draft.apply, Draft.briefed]
    cases Draft.special name special arguments draft.fields with
    | error => exact ⟨rfl, by rintro _ ⟨⟩⟩
    | ok => exact ⟨rfl, by rintro _ ⟨rfl⟩; rfl⟩
  | part kind content => exact ⟨rfl, by rintro _ ⟨rfl⟩; rfl⟩
  | inline command part content line =>
    cases binding with
    | moduleName => exact ⟨rfl, by rintro _ ⟨⟩⟩
    | declaration owner =>
      have parts : draft.briefed.parts = draft.parts := rfl
      simp only [Draft.apply, Draft.inline, parts]
      cases source.subPart? owner command.partKind part with
      | none => exact ⟨rfl, by rintro _ ⟨⟩⟩
      | some id =>
        by_cases twice : draft.parts.contains id = true
        · simp only [twice, ↓reduceIte]
          exact ⟨rfl, by rintro _ ⟨⟩⟩
        · simp only [twice, Bool.false_eq_true, ↓reduceIte]
          exact ⟨rfl, by rintro _ ⟨rfl⟩; rfl⟩

/-- A brief that is implied is filed as if it were written out. -/
theorem Draft.applyAll_withImplied {draft : Draft} {nodes : List Node} (wanted : draft.wantsBrief = true) :
    (nodes.foldlM (Draft.apply source binding name) draft).map Draft.briefed =
      ((withImplied nodes).foldlM (Draft.apply source binding name) draft.briefed).map
        Draft.briefed := by
  fun_induction withImplied nodes generalizing draft with
  | case1 => rfl
  | case2 children blocks rest =>
    have first : draft.apply source binding name (.markup (.paragraph children :: blocks)) =
        .ok { draft.briefed with
          sections := addUnlabeledAll
            (draft.sections.add .brief [.paragraph (splitFirstSentence children).1]) false
            (afterBrief children ++ blocks) } := by
      rw [Draft.apply, wanted, addUnlabeledAll_paragraph]
      rfl
    rw [List.foldlM_cons, first]
    rfl
  | case3 block blocks rest other =>
    have first : draft.apply source binding name (.markup (block :: blocks)) =
        draft.briefed.apply source binding name (.markup (block :: blocks)) := by
      rw [Draft.apply, Draft.apply, addUnlabeledAll_other other]
      simp [Draft.briefed]
    rw [List.foldlM_cons, first, List.foldlM_cons]
  | case4 node rest none others ih =>
    by_cases markup : node = .markup []
    · subst node
      have idle : draft.apply source binding name (.markup []) = .ok draft := by
        rw [Draft.apply, wanted]
        cases draft
        cases wanted
        rfl
      rw [List.foldlM_cons, idle, List.foldlM_cons]
      exact ih wanted
    · have plain : ∀ blocks, node ≠ .markup blocks := by
        rintro blocks rfl
        cases blocks with
        | nil => exact markup rfl
        | cons block more => exact others block more rfl
      obtain ⟨same, kept⟩ := @apply_briefed source binding name node plain draft
      rw [List.foldlM_cons, List.foldlM_cons, ← same]
      cases applied : draft.apply source binding name node with
      | error => rfl
      | ok next => exact ih ((kept next applied).trans wanted)

theorem Draft.start_filings {nodes : List Node} {draft : Draft}
    (drafted : nodes.foldlM (Draft.apply source binding name)
      (Draft.mk {} [] (!nodes.any isBriefNode) []) = .ok draft) :
    draft.sections = Sections.fileAll [] (filingsOf source binding (withBrief nodes)) := by
  cases given : nodes.any isBriefNode with
  | true =>
    rw [given] at drafted
    rw [withBrief, if_pos given, applyAll_filings rfl drafted]
  | false =>
    rw [given] at drafted
    have same := @applyAll_withImplied source binding name (Draft.mk {} [] true []) nodes rfl
    change nodes.foldlM _ (Draft.mk {} [] true []) = _ at drafted
    rw [drafted] at same
    cases written : (withImplied nodes).foldlM (Draft.apply source binding name)
        (Draft.mk {} [] true []).briefed with
    | error => rw [written] at same; cases same
    | ok other =>
      rw [written] at same
      have agree : draft.briefed = other.briefed := Except.ok.inj same
      have kept : draft.sections = other.sections := congrArg (·.sections) agree
      rw [withBrief, given, kept, applyAll_filings rfl written]
      rfl

theorem assemble_filings {nodes : List Node} (success : assemble source binding nodes = .ok entity) :
    ∃ fields, entity = ensureRequired source (.node (binding.tag fields)
      (Sections.fileAll [] (filingsOf source binding (withBrief nodes))).briefFirst.entities) := by
  rw [assemble_eq] at success
  cases drafted : nodes.foldlM (Draft.apply source binding (binding.describe source))
      (Draft.mk {} [] (!nodes.any isBriefNode) []) with
  | error => rw [drafted] at success; cases success
  | ok draft =>
    rw [drafted] at success
    cases success
    refine ⟨draft.fields, ?_⟩
    rw [← Draft.start_filings drafted]

/-- The sections that the documentation of what is bound must have. -/
def Binding.required (source : SourceTree) : Binding → List SectionKind
  | .declaration id => source.requiredSections id
  | .moduleName _ => []

theorem ensureRequired_bound (source : SourceTree) (binding : Binding) (fields : Fields)
    (children : List Entity) :
    ensureRequired source (.node (binding.tag fields) children) = .node (binding.tag fields)
      (ensureParts (binding.required source) (children.map (ensureRequired source))) := by
  cases binding with
  | declaration id => exact ensureRequired_declaration source id "" fields children
  | moduleName name =>
    simp [Binding.tag, Binding.required, ensureRequired, ensureRequiredAll_eq_map, ensureParts]

theorem findPart?_ensureParts (kind : SectionKind) (kinds : List SectionKind) (children : List Entity) :
    Entity.findPart? kind (ensureParts kinds children) =
      (Entity.findPart? kind children).or (if kind ∈ kinds then some [] else none) := by
  induction kinds generalizing children with
  | nil => simp [ensureParts]
  | cons first rest ih =>
    rw [ensureParts, List.foldl_cons, ← ensureParts, ih, Entity.findPart?_ensurePart]
    by_cases same : kind = first
    · subst first
      cases Entity.findPart? kind children <;> simp
    · simp [same]

theorem section?_bound (source : SourceTree) (binding : Binding) (fields : Fields) (kind : SectionKind)
    (filings : Sections) :
    (ensureRequired source (.node (binding.tag fields)
      (Sections.fileAll [] filings).briefFirst.entities)).section? kind =
      ((filings.under kind).map (List.map (ensureRequired source))).or
        (if kind ∈ binding.required source then some [] else none) := by
  rw [ensureRequired_bound, Entity.section?, Entity.children, findPart?_ensureParts,
    Entity.findPart?_map kind (ensureRequired_partKind? source) (ensureRequired_part source),
    Sections.findPart?_entities, Sections.lookup_briefFirst, Sections.lookup_filed]

theorem required_ne (source : SourceTree) (binding : Binding) :
    ∀ kind ∈ binding.required source, kind ≠ .brief ∧ kind ≠ .details := by
  cases binding with
  | declaration id => exact requiredSections_ne source id
  | moduleName => exact nofun

/-- The documentation of a part is what its content alone makes of it. -/
theorem assemble_part (source : SourceTree) (part : DeclId) (content : List Entity) :
    assemble source (.declaration part) [.markup content] =
      .ok (ensureRequired source (partDocumentation part content)) := by
  have sections : (addUnlabeledAll [] true content).briefFirst = addUnlabeledAll [] true content :=
    Sections.briefFirst_eq_self (addUnlabeledAll_briefFirst content)
  rw [partDocumentation, ← sections]
  rfl

/-- Sections of documentation that hold what nodes file. Required sections are added to documentation of
parts. -/
structure Arranged (source : SourceTree) (binding : Binding) (nodes : List Node) (entity : Entity) :
    Prop where
  sectioned : Sectioned entity.children
  /-- Most sections hold what is filed under their kind, and are there if something is or if they are
  required. -/
  others : ∀ kind, kind ≠ .brief → kind ≠ .details → entity.section? kind =
    (((filingsOf source binding nodes).under kind).map (List.map (ensureRequired source))).or
      (if kind ∈ binding.required source then some [] else none)
  /-- The brief is what is given as such. If nothing is, it is the first sentence of the first block under
  no section, if that is a paragraph. -/
  brief : entity.section? .brief =
    if nodes.any isBriefNode then
      ((filingsOf source binding nodes).under .brief).map (List.map (ensureRequired source))
    else (impliedBrief? nodes).map fun children =>
      [ensureRequired source (.paragraph (splitFirstSentence children).1)]
  /-- The details are what is given as such and all blocks under no section but what the brief took. -/
  details : entity.section? .details =
    ((filingsOf source binding (withBrief nodes)).under .details).map (List.map (ensureRequired source))
  /-- Nothing is lost, and nothing is there twice. -/
  whole : (entity.children.flatMap Entity.children).Perm
    ((filingsOf source binding (withBrief nodes)).contents.map (ensureRequired source))
  /-- Every command for a part files documentation of it, which holds what its content alone would give. -/
  parts : ∀ command name content line, Node.inline command name content line ∈ nodes → ∃ part,
    (Node.inline command name content line).part? source binding = some part ∧
      assemble source (.declaration part) [.markup content] =
        .ok (ensureRequired source (partDocumentation part content))
  /-- Markup stays as it is. -/
  markup : ∀ block, IsMarkup block → ensureRequired source block = block

theorem parts_found {nodes : List Node} (success : assemble source binding nodes = .ok entity)
    (member : Node.inline command name content line ∈ nodes) :
    ∃ part, (Node.inline command name content line).part? source binding = some part := by
  rcases faultless_or_firstFault source binding nodes with faultless | ⟨error, fault⟩
  · obtain ⟨before, after, split⟩ := List.append_of_mem member
    have fine := faultless before _ after split
    cases binding with
    | moduleName => cases fine
    | declaration owner =>
      cases found : source.subPart? owner command.partKind name with
      | none => simp [fault?, found] at fine
      | some part => exact ⟨part, found⟩
  · rw [assemble_of_firstFault fault] at success
    cases success

/-- The sections of compiled documentation hold what the nodes of the comment file, in their order. -/
theorem assemble_arranged {nodes : List Node} (success : assemble source binding nodes = .ok entity) :
    Arranged source binding nodes entity := by
  obtain ⟨fields, rfl⟩ := assemble_filings success
  have holds (kind : SectionKind) := section?_bound source binding fields kind
    (filingsOf source binding (withBrief nodes))
  have optional {kind : SectionKind} (own : kind = .brief ∨ kind = .details) :
      kind ∉ binding.required source := by
    intro member
    obtain ⟨noBrief, noDetails⟩ := required_ne source binding kind member
    exact own.elim noBrief noDetails
  refine ⟨?_, ?_, ?_, ?_, ?_, ?_, fun block => ensureRequired_markup source⟩
  · have distinct : (Sections.fileAll []
        (filingsOf source binding (withBrief nodes))).kinds.Nodup :=
      Sections.distinct_fileAll _ List.nodup_nil
    rw [ensureRequired_bound]
    exact ((sectioned_entities (Sections.distinct_briefFirst distinct)
      (Sections.briefFirst_first distinct)).ensureRequired source).ensureParts _
        fun kind member => (required_ne source binding kind member).1
  · intro kind noBrief noDetails
    rw [holds, withBrief_other noBrief noDetails]
  · rw [holds, if_neg (optional (.inl rfl)), Option.or_none, withBrief_brief, apply_ite (Option.map _),
      Option.map_map]
    rfl
  · rw [holds, if_neg (optional (.inr rfl)), Option.or_none]
  · rw [ensureRequired_bound, Entity.children, ensureRequired_contents]
    refine List.Perm.map _ ?_
    have moved := (Sections.briefFirst_perm (Sections.fileAll []
      (filingsOf source binding (withBrief nodes)))).flatMap_right Prod.snd
    exact moved.trans (Sections.contents_fileAll [] _)
  · intro command name content line member
    obtain ⟨part, found⟩ := parts_found success member
    exact ⟨part, found, assemble_part source part content⟩

theorem assemble_arranged_swap :
    let nodes : List Node :=
      [.markup [.paragraph [.text "Swaps. Twice."]], .inline .param "a" [.paragraph [.text "One. Two."]] 2,
       .part .details [.paragraph [.text "By moves."]], .markup [.leaf .thematicBreak],
       .part .effects [.paragraph [.text "None."]], .part .details [.leaf (.codeBlock "" "swap")]]
    let entity := Entity.node (.declaration 1 "" {})
      [.part .brief [.paragraph [.text "Swaps."]],
       .part .details [.paragraph [.text "Twice."], .paragraph [.text "By moves."],
         .leaf .thematicBreak, .leaf (.codeBlock "" "swap")],
       .part .parameters [.node (.declaration 3 "" {})
         [.part .brief [.paragraph [.text "One."]], .part .details [.paragraph [.text "Two."]]]],
       .part .effects [.paragraph [.text "None."]],
       .part .requires []]
    assemble swapTree (.declaration 1) nodes = .ok entity ∧
      Arranged swapTree (.declaration 1) nodes entity := by
  intro nodes entity
  have assembled : (assemble swapTree (.declaration 1) nodes).toOption = some entity := by
    decide +kernel
  cases result : assemble swapTree (.declaration 1) nodes with
  | error => rw [result] at assembled; cases assembled
  | ok documentation =>
    rw [result] at assembled
    obtain rfl := Option.some.inj assembled
    exact ⟨rfl, assemble_arranged result⟩

end DocComment.Comment
