import DocComment.Entity.Sections
import DocComment.Markup.Write
import DocComment.Template.Render

namespace DocComment

/-- Renders a template against a projection. Sections are fetched through a function. -/
abbrev Formatter :=
  String → Json → (SectionKind → Option String) → Except Template.Fault Template.Rendering

/-- Renders a template against a projection. -/
abbrev TemplateEngine := String → Json → Template.Dialogue String

def TemplateEngine.standard : TemplateEngine := fun source projection =>
  Template.interpret (Template.Value.ofJson projection) Markup.escape source

namespace Formatter

/-- The formatter of a template engine: the calls of its renderings are answered from the sections. -/
def ofEngine (engine : TemplateEngine) : Formatter := fun source projection part =>
  (engine source projection).serve part

/-- The formatter of the template language. -/
def template : Formatter :=
  ofEngine TemplateEngine.standard

/-- A failed rendering as diagnostics show it. -/
def describe (fault : Template.Fault) : String :=
  "template error: " ++ fault.message

/-- The markup of a section of an entity. -/
def partOf (entity : Entity) (kind : SectionKind) : Option String :=
  (entity.section? kind).map Markup.write

/-- Renders over an entity. The sections to drop are removed once the whole template is rendered. -/
def onEntity (formatter : Formatter) (source : String) (projection : Json) (entity : Entity) :
    Except Template.Fault (String × Entity) := do
  let rendering ← formatter source projection (partOf entity)
  return (rendering.text, entity.dropSections rendering.dropped)

/-- Renders without an entity. -/
def plain (formatter : Formatter) (source : String) (projection : Json) :
    Except Template.Fault String := do
  let rendering ← formatter source projection fun _ => none
  return rendering.text

end Formatter

end DocComment
