import DocComment.Comment.Binding
import DocComment.Comment.Sentence
import DocComment.Entity.Sections

namespace DocComment.Comment

/-- Sections in the order they were first used, at most one of each kind. -/
abbrev Sections := List (SectionKind × List Entity)

namespace Sections

/-- Adds content to the section of a kind, which starts at the end if it is new. -/
def add (kind : SectionKind) (content : List Entity) : Sections → Sections
  | [] => [(kind, content)]
  | (other, present) :: rest =>
    if other == kind then (other, present ++ content) :: rest
    else (other, present) :: add kind content rest

/-- The brief comes first, the others keep their order. -/
def briefFirst (sections : Sections) : Sections :=
  sections.filter (·.1 == .brief) ++ sections.filter (·.1 != .brief)

def entities (sections : Sections) : List Entity :=
  sections.map fun (kind, content) => .part kind content

end Sections

/-- Files content that is under no section. While a brief is wanted, a first block that is a
paragraph is split after its first sentence. All else is details. -/
def addUnlabeled (sections : Sections) (wantsBrief : Bool) (block : Entity) : Sections :=
  match if wantsBrief then some block else none with
  | some (.node .paragraph children) =>
    let (brief, details) := splitFirstSentence children
    let sections := sections.add .brief [.paragraph brief]
    if details.isEmpty then sections else sections.add .details [.paragraph details]
  | _ => sections.add .details [block]

/-- Files blocks in order. Only the first of all may give the brief. -/
def addUnlabeledAll (sections : Sections) (wantsBrief : Bool) : List Entity → Sections
  | [] => sections
  | block :: rest => addUnlabeledAll (addUnlabeled sections wantsBrief block) false rest

/-- Documentation under construction. -/
structure Draft where
  fields : Fields := {}
  sections : Sections := []
  /-- No brief was given and no unlabeled block was seen yet. -/
  wantsBrief : Bool
  /-- The parts documented so far. -/
  parts : List DeclId := []

namespace Draft

def missingArgument (entity : String) (command : SpecialCommand) : CommentError :=
  .structure_ entity ("'\\" ++ command.name ++ "' without its argument")

/-- A field that may be set once. -/
def setOnce (entity : String) (command : SpecialCommand) (old new : Option String) :
    Except CommentError (Option String) :=
  match new, old with
  | none, _ => .error (missingArgument entity command)
  | some new, some old => .error (.duplicateField entity command old new)
  | some new, none => .ok (some new)

/-- The group fields for the arguments of a group command. A name after a hyphen has no heading. -/
def groupFields (fields : Fields) (name : String) (heading : Option String) : Fields :=
  match name.toList with
  | '-' :: group => { fields with group := some (String.ofList group) }
  | _ => { fields with group := some name, outputSection := some (heading.getD name) }

/-- The fields after a metadata command. -/
def special (entity : String) (command : SpecialCommand) (arguments : List String) (fields : Fields) :
    Except CommentError Fields :=
  let argument := arguments.head?
  match command with
  | .exclude =>
    let mode := SpecialCommand.excludeMode argument
    if fields.excludeMode == .include then .ok { fields with excludeMode := mode }
    else .error (.duplicateField entity command fields.excludeMode.title mode.title)
  | .uniqueName => do
    return { fields with uniqueName := ← setOnce entity command fields.uniqueName argument }
  | .outputName => do
    return { fields with outputName := ← setOnce entity command fields.outputName argument }
  | .synopsis => do
    return { fields with synopsis := ← setOnce entity command fields.synopsis argument }
  | .moduleName => do
    return { fields with moduleName := ← setOnce entity command fields.moduleName argument }
  | .group | .outputSection =>
    match fields.group.or fields.outputSection, argument with
    | some existing, _ => .error (.conflictingGroup entity command existing)
    | none, none => .error (missingArgument entity command)
    | none, some name =>
      if command == .outputSection then .ok { fields with outputSection := some name }
      else .ok (groupFields fields name arguments[1]?)
  | .endBlock | .entity | .file =>
    .error (.structure_ entity ("'\\" ++ command.name ++ "' left over after binding"))

/-- Files the documentation of a part of the bound declaration. -/
def inline (source : SourceTree) (binding : Binding) (entity : String) (command : InlineCommand)
    (name : String) (content : List Entity) (line : Nat) (draft : Draft) : Except CommentError Draft :=
  match binding with
  | .moduleName moduleName => .error (.inlineOnModule moduleName command name)
  | .declaration owner =>
    match source.subPart? owner command.partKind name with
    | none => .error (.unresolvedSubEntity entity command name line)
    | some part =>
      if draft.parts.contains part then .error (.duplicateSubEntity entity command name)
      else
        let nested := .node (.declaration part "" {}) (addUnlabeledAll [] true content).entities
        .ok { draft with
          parts := part :: draft.parts
          sections := draft.sections.add command.sectionKind [nested] }

def apply (source : SourceTree) (binding : Binding) (entity : String) (draft : Draft) :
    Node → Except CommentError Draft
  | .markup blocks =>
    .ok { draft with
      sections := addUnlabeledAll draft.sections draft.wantsBrief blocks
      wantsBrief := draft.wantsBrief && blocks.isEmpty }
  | .part kind content => .ok { draft with sections := draft.sections.add kind content }
  | .special command arguments _ => do
    return { draft with fields := ← special entity command arguments draft.fields }
  | .inline command name content line => draft.inline source binding entity command name content line

end Draft

mutual

/-- Adds the required sections to every declaration in the tree. -/
def ensureRequired (source : SourceTree) : Entity → Entity
  | .leaf content => .leaf content
  | .node tag children =>
    let children := ensureRequiredAll source children
    match tag with
    | .declaration declared .. =>
      .node tag ((source.requiredSections declared).foldl (fun present kind =>
        Entity.ensurePart kind present) children)
    | _ => .node tag children

def ensureRequiredAll (source : SourceTree) : List Entity → List Entity
  | [] => []
  | entity :: rest => ensureRequired source entity :: ensureRequiredAll source rest

end

def isBriefNode : Node → Bool
  | .part .brief _ => true
  | _ => false

/-- The documentation of what a comment is bound to. -/
def assemble (source : SourceTree) (binding : Binding) (nodes : List Node) :
    Except CommentError Entity := do
  let start : Draft := { wantsBrief := !nodes.any isBriefNode }
  let draft ← nodes.foldlM (Draft.apply source binding (binding.describe source)) start
  let children := draft.sections.briefFirst.entities
  let tag := match binding with
    | .declaration id => Tag.declaration id "" draft.fields
    | .moduleName name => Tag.moduleDoc name "" draft.fields
  return ensureRequired source (.node tag children)

end DocComment.Comment
