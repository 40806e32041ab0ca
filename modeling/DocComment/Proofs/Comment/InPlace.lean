import DocComment.Proofs.Comment.Shape

namespace DocComment.Comment

/-- Adds content to the section of a kind, which starts at the end if it is new. An entity without
children holds no sections. -/
def fileUnder (name : String) (kind : SectionKind) (content : List Entity) :
    Entity → Except CommentError Entity
  | .leaf _ => .error (.structure_ name ("cannot hold a '" ++ kind.name ++ "' section"))
  | .node tag children =>
    .ok (.node tag (Entity.modifyPart kind (· ++ content) (Entity.ensurePart kind children)))

/-- Files a block that is under no section. -/
def fileUnlabeled (name : String) (wantsBrief : Bool) (block entity : Entity) :
    Except CommentError Entity :=
  match if wantsBrief then some block else none with
  | some (.node .paragraph children) => do
    let (brief, details) := splitFirstSentence children
    let filed ← fileUnder name .brief [.paragraph brief] entity
    if details.isEmpty then return filed else fileUnder name .details [.paragraph details] filed
  | _ => fileUnder name .details [block] entity

def fileUnlabeledAll (name : String) (wantsBrief : Bool) : List Entity → Entity → Except CommentError Entity
  | [], entity => .ok entity
  | block :: rest, entity => do
    let filed ← fileUnlabeled name wantsBrief block entity
    fileUnlabeledAll name false rest filed

/-- An entity under construction. -/
structure Builder where
  entity : Entity
  /-- No brief was given and no unlabeled block was seen yet. -/
  wantsBrief : Bool
  /-- The parts documented so far. -/
  parts : List DeclId := []

namespace Builder

def start (binding : Binding) (nodes : List Node) : Builder where
  entity := match binding with
    | .declaration id => .node (.declaration id "" {}) []
    | .moduleName name => .node (.moduleDoc name "" {}) []
  wantsBrief := !nodes.any isBriefNode

/-- Carries out a metadata command. An entity that is no documentation has no metadata. -/
def special (name : String) (command : SpecialCommand) (arguments : List String) (entity : Entity) :
    Except CommentError Entity :=
  match entity.fields? with
  | none => .error (.structure_ name "entity cannot carry documentation fields")
  | some fields => do
    let changed ← Draft.special name command arguments fields
    return entity.mapFields fun _ => changed

/-- Files the documentation of a part of the bound declaration. -/
def inline (source : SourceTree) (binding : Binding) (command : InlineCommand) (name : String)
    (content : List Entity) (line : Nat) (builder : Builder) : Except CommentError Builder :=
  let described := binding.describe source
  match binding with
  | .moduleName moduleName => .error (.inlineOnModule moduleName command name)
  | .declaration owner =>
    match source.subPart? owner command.partKind name with
    | none => .error (.unresolvedSubEntity described command name line)
    | some part =>
      if builder.parts.contains part then .error (.duplicateSubEntity described command name)
      else do
        let nested ← fileUnlabeledAll (name ++ " of " ++ described) true content
          (.node (.declaration part "" {}) [])
        let filed ← fileUnder described command.sectionKind [nested] builder.entity
        return { builder with entity := filed, parts := part :: builder.parts }

def apply (source : SourceTree) (binding : Binding) (builder : Builder) :
    Node → Except CommentError Builder
  | .markup blocks => do
    let filed ← fileUnlabeledAll (binding.describe source) builder.wantsBrief blocks builder.entity
    return { builder with entity := filed, wantsBrief := builder.wantsBrief && blocks.isEmpty }
  | .part kind content => do
    return { builder with entity := ← fileUnder (binding.describe source) kind content builder.entity }
  | .special command arguments _ => do
    return { builder with
      entity := ← special (binding.describe source) command arguments builder.entity }
  | .inline command name content line => builder.inline source binding command name content line

/-- Moves the brief to the front and adds required sections. -/
def finish (source : SourceTree) (builder : Builder) : Entity :=
  let isBrief (child : Entity) := child.partKind? == some .brief
  ensureRequired source <| builder.entity.withChildren <|
    builder.entity.children.filter isBrief ++ builder.entity.children.filter (!isBrief ·)

end Builder

/-- The documentation of what a comment is bound to, built in place. -/
def build (source : SourceTree) (binding : Binding) (nodes : List Node) : Except CommentError Entity := do
  let builder ← nodes.foldlM (Builder.apply source binding) (Builder.start binding nodes)
  return builder.finish source

theorem Sections.entities_cons (kind : SectionKind) (content : List Entity) (rest : Sections) :
    Sections.entities ((kind, content) :: rest) = Entity.part kind content :: rest.entities := rfl

theorem modifyPart_entities (kind : SectionKind) (content : List Entity) (sections : Sections) :
    Entity.modifyPart kind (· ++ content) (Entity.ensurePart kind sections.entities) =
      (sections.add kind content).entities := by
  induction sections with
  | nil => simp [Sections.add, Sections.entities, Entity.ensurePart, Entity.findPart?, Entity.modifyPart,
      Entity.partKind?, Entity.withChildren, Entity.children]
  | cons entry rest ih =>
    obtain ⟨other, present⟩ := entry
    rw [Sections.entities_cons, Sections.add]
    by_cases same : other = kind
    · simp [Entity.ensurePart, Entity.findPart?, Entity.modifyPart, Entity.partKind?, same,
        Entity.withChildren, Entity.children, Sections.entities_cons, Entity.part]
    · have later : Entity.ensurePart kind
          (Entity.part other present :: Sections.entities rest) =
          Entity.part other present :: Entity.ensurePart kind (Sections.entities rest) := by
        simp only [Entity.ensurePart, Entity.findPart?, Entity.partKind?, beq_iff_eq, Option.some.injEq,
          same, ↓reduceIte]
        split <;> rfl
      rw [later]
      simp [Entity.modifyPart, Entity.partKind?, same, ih, Sections.entities_cons]

theorem fileUnder_entities (name : String) (kind : SectionKind) (content : List Entity) (tag : Tag)
    (sections : Sections) :
    fileUnder name kind content (.node tag sections.entities) =
      .ok (.node tag (sections.add kind content).entities) := by
  rw [fileUnder, modifyPart_entities]

theorem fileUnlabeled_entities (name : String) (wantsBrief : Bool) (block : Entity) (tag : Tag)
    (sections : Sections) :
    fileUnlabeled name wantsBrief block (.node tag sections.entities) =
      .ok (.node tag (addUnlabeled sections wantsBrief block).entities) := by
  unfold fileUnlabeled addUnlabeled
  generalize (if wantsBrief then some block else none) = first
  rcases first with _ | ⟨leaf⟩ | ⟨tag, children⟩
  · exact fileUnder_entities ..
  · exact fileUnder_entities ..
  · cases tag with
    | paragraph =>
      simp only [fileUnder_entities, Bind.bind, Except.bind]
      split <;> rfl
    | _ => exact fileUnder_entities ..

theorem fileUnlabeledAll_entities (name : String) (wantsBrief : Bool) (blocks : List Entity) (tag : Tag)
    (sections : Sections) :
    fileUnlabeledAll name wantsBrief blocks (.node tag sections.entities) =
      .ok (.node tag (addUnlabeledAll sections wantsBrief blocks).entities) := by
  induction blocks generalizing wantsBrief sections with
  | nil => rfl
  | cons block rest ih =>
    simp only [fileUnlabeledAll, fileUnlabeled_entities, Bind.bind, Except.bind, ih]
    rfl

/-- The entity that a draft stands for. -/
def Draft.builder (binding : Binding) (draft : Draft) : Builder :=
  ⟨.node (binding.tag draft.fields) draft.sections.entities, draft.wantsBrief, draft.parts⟩

theorem Draft.special_builder (binding : Binding) (name : String) (command : SpecialCommand)
    (arguments : List String) (fields : Fields) (children : List Entity) :
    Builder.special name command arguments (.node (binding.tag fields) children) =
      (Draft.special name command arguments fields).map fun changed =>
        .node (binding.tag changed) children := by
  cases binding with
  | declaration id => cases result : Draft.special name command arguments fields <;>
      simp [Builder.special, Binding.tag, Entity.fields?, Entity.mapFields, result, Bind.bind, Except.bind,
        Except.map, pure, Except.pure]
  | moduleName module => cases result : Draft.special name command arguments fields <;>
      simp [Builder.special, Binding.tag, Entity.fields?, Entity.mapFields, result, Bind.bind, Except.bind,
        Except.map, pure, Except.pure]

theorem Draft.inline_builder (source : SourceTree) (binding : Binding) (command : InlineCommand)
    (name : String) (content : List Entity) (line : Nat) (draft : Draft) :
    (draft.builder binding).inline source binding command name content line =
      (draft.inline source binding (binding.describe source) command name content line).map
        (Draft.builder binding) := by
  cases binding with
  | moduleName module => rfl
  | declaration owner =>
    simp only [Builder.inline, Draft.inline]
    cases source.subPart? owner command.partKind name with
    | none => rfl
    | some part =>
      by_cases twice : draft.parts.contains part = true
      · simp only [Draft.builder, twice, ↓reduceIte]
        rfl
      · have nested := fileUnlabeledAll_entities
          (name ++ " of " ++ Binding.describe source (.declaration owner)) true content
          (.declaration part "" {}) []
        rw [show Sections.entities [] = [] from rfl] at nested
        simp only [Draft.builder, twice, Bool.false_eq_true, ↓reduceIte, nested, fileUnder_entities,
          Bind.bind, Except.bind]
        rfl

/-- One node changes the entity as it changes the draft. -/
theorem Draft.apply_builder (source : SourceTree) (binding : Binding) (draft : Draft) (node : Node) :
    (draft.builder binding).apply source binding node =
      (draft.apply source binding (binding.describe source) node).map (Draft.builder binding) := by
  cases node with
  | markup blocks =>
    simp only [Builder.apply, Draft.builder, fileUnlabeledAll_entities, Draft.apply]
    rfl
  | part kind content =>
    simp only [Builder.apply, Draft.builder, fileUnder_entities, Draft.apply]
    rfl
  | special command arguments line =>
    simp only [Builder.apply, Draft.builder, Draft.special_builder, Draft.apply]
    cases Draft.special (binding.describe source) command arguments draft.fields <;> rfl
  | inline command name content line => exact draft.inline_builder source binding command name content line

theorem Draft.applyAll_builder (source : SourceTree) (binding : Binding) (nodes : List Node)
    (draft : Draft) :
    nodes.foldlM (Builder.apply source binding) (draft.builder binding) =
      (nodes.foldlM (Draft.apply source binding (binding.describe source)) draft).map
        (Draft.builder binding) := by
  induction nodes generalizing draft with
  | nil => rfl
  | cons node rest ih =>
    rw [List.foldlM_cons, List.foldlM_cons, Draft.apply_builder]
    cases draft.apply source binding (binding.describe source) node with
    | error => rfl
    | ok next => exact ih next

theorem Draft.finish_builder (source : SourceTree) (binding : Binding) (draft : Draft) :
    (draft.builder binding).finish source =
      ensureRequired source (.node (binding.tag draft.fields) draft.sections.briefFirst.entities) := by
  have sorted : ∀ keep : Bool → Bool,
      draft.sections.entities.filter (fun child => keep (child.partKind? == some SectionKind.brief)) =
        Sections.entities (draft.sections.filter fun entry => keep (entry.1 == .brief)) := by
    intro keep
    simp [Sections.entities, List.filter_map, Function.comp_def, Entity.partKind?]
  have split : draft.sections.briefFirst.entities =
      draft.sections.entities.filter (fun child => child.partKind? == some SectionKind.brief) ++
        draft.sections.entities.filter (fun child => !(child.partKind? == some SectionKind.brief)) :=
    List.map_append.trans (congrArg₂ (· ++ ·) (sorted id) (sorted Bool.not)).symm
  rw [split]
  rfl

theorem Builder.start_eq (binding : Binding) (nodes : List Node) :
    Builder.start binding nodes = Draft.builder binding { wantsBrief := !nodes.any isBriefNode } := by
  cases binding <;> rfl

theorem build_eq_assemble (source : SourceTree) (binding : Binding) (nodes : List Node) :
    build source binding nodes = assemble source binding nodes := by
  simp only [build, assemble, Builder.start_eq, Draft.applyAll_builder]
  cases nodes.foldlM (Draft.apply source binding (binding.describe source))
    { wantsBrief := !nodes.any isBriefNode } with
  | error => rfl
  | ok draft =>
    have finished := draft.finish_builder source binding
    cases binding <;> exact congrArg Except.ok finished

end DocComment.Comment
