import DocComment.Formatter
import DocComment.Pass.Basic

namespace DocComment

/-- The template for each kind of entity; a blank one makes no heading. -/
structure HeadingTemplates where
  declaration : String := "# \x7b\x7b kind_label \x7d\x7d \x7b\x7b qualified_name \x7d\x7d"
  moduleDoc : String := "# Module \x7b\x7b name \x7d\x7d"
  group : String := "# \x7b\x7b output_section \x7d\x7d"
  document : String := ""
  deriving Repr, DecidableEq

def HeadingTemplates.template? (templates : HeadingTemplates) (tag : Tag) : Option String :=
  let template := match tag with
    | .declaration .. => templates.declaration
    | .moduleDoc .. => templates.moduleDoc
    | .group .. => templates.group
    | .document .. => templates.document
    | _ => ""
  if (Text.stripped template).isEmpty then none else some template

/-- What the synthesis of headings and of link texts needs. -/
structure Synthesis where
  source : SourceTree
  /-- Reads markup. -/
  read : String → List Entity
  formatter : Formatter

namespace Headings

def maxLevel : Nat := 6

mutual

/-- Moves headings down, at most to the last level. -/
def shift (depth : Nat) : Entity → Entity
  | .leaf content => .leaf content
  | .node tag children =>
    let children := shiftAll depth children
    match tag with
    | .heading level => .node (.heading (min (level + depth) maxLevel)) children
    | _ => .node tag children

def shiftAll (depth : Nat) : List Entity → List Entity
  | [] => []
  | entity :: rest => shift depth entity :: shiftAll depth rest

end

def startsWithHeading : List Entity → Bool
  | .node (.heading _) _ :: _ => true
  | _ => false

/-- Whether an entity may get a heading: it has none, is not excluded, and a group needs a title. -/
def wantsHeading (entity : Entity) : Bool :=
  !startsWithHeading entity.children &&
    match entity.fields? with
    | none => true
    | some fields =>
      fields.excludeMode != .exclude &&
        match entity with
        | .node (.group ..) _ => fields.outputSection.isSome
        | _ => true

/-- The blocks to put in front of the children of an entity, and the sections to drop. -/
def headingOf (synthesis : Synthesis) (templates : HeadingTemplates) (depth : Nat) (entity : Entity) :
    Except Template.Fault (List Entity × List SectionKind) :=
  match entity with
  | .leaf _ => .ok ([], [])
  | .node tag _ =>
    match templates.template? tag with
    | none => .ok ([], [])
    | some template =>
      if !wantsHeading entity then .ok ([], [])
      else do
        let rendering ← synthesis.formatter template (projectEntity synthesis.source entity)
          (Formatter.partOf entity)
        return (shiftAll depth (synthesis.read rendering.text), rendering.dropped)

/-- The deepest nesting that is counted. -/
def maxDepth : Nat := 255

/-- The depth of what is inside an entity: documentation counts, sections and documents do not. -/
def innerDepth (depth : Nat) (entity : Entity) : Nat :=
  if entity.isDocumentation then min (depth + 1) maxDepth else depth

/-- Whether headings are made inside a child. -/
def isVisited (entity : Entity) : Bool :=
  entity.partKind?.isSome || entity.isDocumentation

mutual

/-- Adds headings to an entity and to the documentation in it, up to the first failure. -/
def synthesize (synthesis : Synthesis) (templates : HeadingTemplates) (depth : Nat) :
    Entity → Entity × Option Template.Fault
  | .leaf content => (.leaf content, none)
  | .node tag children =>
    match headingOf synthesis templates depth (.node tag children) with
    | .error fault => (.node tag children, some fault)
    | .ok (blocks, dropped) =>
      let (kept, fault) := synthesizeKept synthesis templates
        (innerDepth depth (.node tag children)) dropped children
      (.node tag (blocks ++ kept), fault)

/-- Goes through children without the sections to drop. -/
def synthesizeKept (synthesis : Synthesis) (templates : HeadingTemplates) (depth : Nat) :
    List SectionKind → List Entity → List Entity × Option Template.Fault
  | _, [] => ([], none)
  | dropped, entity :: rest =>
    if entity.partKind?.any dropped.contains then
      synthesizeKept synthesis templates depth
        (entity.partKind?.elim dropped fun kind => dropped.erase kind) rest
    else
      let (changed, fault) :=
        if isVisited entity then synthesize synthesis templates depth entity else (entity, none)
      match fault with
      | some fault => (changed :: Entity.dropParts dropped rest, some fault)
      | none =>
        let (others, fault) := synthesizeKept synthesis templates depth dropped rest
        (changed :: others, fault)

end

def apply (synthesis : Synthesis) (templates : HeadingTemplates) (entity : Entity) : PassRun :=
  let (changed, fault) := synthesize synthesis templates 0 entity
  { entity := changed
    failure := fault.map fun fault => .failed ["heading template", Formatter.describe fault] }

def pass (synthesis : Synthesis) (templates : HeadingTemplates) : Pass :=
  ⟨"headings", fun _ => apply synthesis templates⟩

end Headings

end DocComment
