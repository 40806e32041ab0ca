import DocComment.Pass.Basic
import DocComment.Text.Slug

namespace DocComment.Anchors

/-- The text of a heading that comes first among the children. -/
def headingText? : List Entity → Option String
  | .node (.heading _) children :: _ => some (Entity.plainTextAll children)
  | _ => none

/-- Gives an entity whose anchor is empty that of its heading. -/
def anchored (entity : Entity) : Entity :=
  if entity.anchor? == some "" then
    match headingText? entity.children with
    | some text => entity.setAnchor (Text.slug text)
    | none => entity
  else entity

mutual

def apply : Entity → Entity
  | .leaf content => .leaf content
  | .node tag children => (anchored (.node tag children)).withChildren (applyAll children)

def applyAll : List Entity → List Entity
  | [] => []
  | entity :: rest => apply entity :: applyAll rest

end

def pass : Pass :=
  ⟨"anchor", fun _ entity => { entity := apply entity }⟩

end DocComment.Anchors
