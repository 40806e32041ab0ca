import DocComment.LinkTable
import DocComment.Pass.Headings

namespace DocComment

/-- The template for each kind of target; a blank one gives no text. -/
structure LinkTemplates where
  declaration : String := "\x60\x7b\x7b name|safe \x7d\x7d\x60"
  moduleDoc : String := "\x7b\x7b name \x7d\x7d"
  inventory : String := "\x60\x7b\x7b entry|safe \x7d\x7d\x60"
  uri : String := ""
  unresolved : String := ""
  deriving Repr, DecidableEq

def LinkTemplates.template (templates : LinkTemplates) : LinkTarget → String
  | .declarationRef _ => templates.declaration
  | .moduleRef _ => templates.moduleDoc
  | .inventoryRef _ => templates.inventory
  | .uri _ => templates.uri
  | .unresolved _ => templates.unresolved

namespace LinkText

/-- Projections of all documented declarations and modules. The first one of an identity counts. -/
structure Known where
  declarations : List (DeclId × Json) := []
  modules : List (String × Json) := []

def knownIn (source : SourceTree) (index : Index) : Known :=
  let entities := Entity.preorderAll index.entities
  { declarations := entities.filterMap fun entity => match entity with
      | .node (.declaration id ..) _ => some (id, projectEntity source entity)
      | _ => none
    modules := entities.filterMap fun entity => match entity with
      | .node (.moduleDoc name ..) _ => some (name, projectEntity source entity)
      | _ => none }

/-- What the template sees of a target. -/
def projectionOf (source : SourceTree) (known : Known) (target : LinkTarget) : Json :=
  match target with
  | .declarationRef id =>
    (known.declarations.lookup id).getD
      (if source.contains id then projectDeclaration source id {} else projectTarget target)
  | .moduleRef name => (known.modules.lookup name).getD (projectTarget target)
  | _ => projectTarget target

/-- The part of rendered blocks that fits into a link. -/
def inlineContent (blocks : List Entity) : List Entity :=
  blocks.flatMap fun block => match block with
    | .node .paragraph children | .node (.heading _) children => children
    | other => if other.isBlock then [.text other.plainText] else [other]

/-- Why no more links are filled. -/
inductive Fault where
  /-- The causes, outermost first. -/
  | failed (causes : List String)
  /-- A link in text made for a link in text and so on, deeper than is allowed. -/
  | tooDeep
  deriving Repr, DecidableEq

/-- How far a pass over an entity got. -/
structure Progress where
  /-- After a failure nothing changes. -/
  failure : Option Fault := none
  notices : List Notice := []

/-- The text for a link without any: none if it stays without. -/
def textOf (synthesis : Synthesis) (templates : LinkTemplates) (known : Known) (target : LinkTarget)
    (progress : Progress) : Option (List Entity) × Progress :=
  let unknown := match target with
    | .declarationRef id => if synthesis.source.contains id then none else some id
    | _ => none
  match unknown with
  | some id =>
    (none, { progress with notices := progress.notices ++
      [.remark ("link to unknown declaration #" ++ toString id ++ " left without text")] })
  | none =>
    let template := templates.template target
    if (Text.stripped template).isEmpty then (none, progress)
    else
      match synthesis.formatter.plain template (projectionOf synthesis.source known target) with
      | .ok rendered => (some (inlineContent (synthesis.read rendered)), progress)
      | .error fault =>
        (none, { progress with
          failure := some (.failed [target.kindName ++ " link template", Formatter.describe fault]) })

mutual

/-- Fills the links of an entity that have no text, from the first to the last. -/
def fill (text : LinkTarget → Progress → Option (List Entity) × Progress) :
    Progress → Entity → Entity × Progress
  | progress, .leaf content => (.leaf content, progress)
  | progress, .node tag children =>
    let missing := match tag, children with
      | .link target _, [] => if progress.failure.isNone then some target else none
      | _, _ => none
    match missing with
    | some target =>
      let (content, progress) := text target progress
      (.node tag (content.getD []), progress)
    | none =>
      let (children, progress) := fillAll text progress children
      (.node tag children, progress)

def fillAll (text : LinkTarget → Progress → Option (List Entity) × Progress) :
    Progress → List Entity → List Entity × Progress
  | progress, [] => ([], progress)
  | progress, entity :: rest =>
    let (entity, progress) := fill text progress entity
    let (rest, progress) := fillAll text progress rest
    (entity :: rest, progress)

end

variable (synthesis : Synthesis) (templates : LinkTemplates) (known : Known)

/-- The text for a link, with the links in that text filled as well. The first argument is how deep text
in text may be. -/
def filledText : Nat → LinkTarget → Progress → Option (List Entity) × Progress
  | 0, _, progress => (none, { progress with failure := some .tooDeep })
  | depth + 1, target, progress =>
    match textOf synthesis templates known target progress with
    | (none, progress) => (none, progress)
    | (some content, progress) =>
      let (content, progress) := fillAll (filledText depth) progress content
      (some content, progress)

/-- The run over an entity, if text in text gets no deeper than the first argument. -/
def runWithin (depth : Nat) (entity : Entity) : Option PassRun :=
  let (filled, progress) := fill (filledText synthesis templates known (depth + 1)) {} entity
  match progress.failure with
  | none => some { entity := filled, notices := progress.notices }
  | some (.failed causes) =>
    some { entity := filled, failure := some (.failed causes), notices := progress.notices }
  | some .tooDeep => none

/-- A depth that is enough for a run, if not this one then twice as deep, and so on. The search never
ends if none is. -/
def depthFrom (start : Nat) (entity : Entity) : Nat :=
  Id.run <| start |> repeatM fun depth =>
    if (runWithin synthesis templates known depth entity).isSome then pure (.inr depth)
    else pure (.inl (2 * depth))

/-- A depth that is nearly always enough. -/
def usualDepth : Nat := 1000

/-- More depth than there is memory for. -/
def vastDepth : Nat := 1000000000000

/-- What is left of an entity whose text never ends. No run gets there. -/
def endless (entity : Entity) : PassRun :=
  { entity, failure := some (.panicked "stack overflow") }

def apply (entity : Entity) : PassRun :=
  match runWithin synthesis templates known usualDepth entity with
  | some run => run
  | none =>
    (runWithin synthesis templates known (depthFrom synthesis templates known vastDepth entity)
      entity).getD (endless entity)

def pass (synthesis : Synthesis) (templates : LinkTemplates) : Pass :=
  ⟨"link text", fun index => apply synthesis templates (knownIn synthesis.source index)⟩

end LinkText

end DocComment
