import DocComment.Carrier
import DocComment.Comment.Binding
import DocComment.Entity.Key

namespace DocComment

private def optionalText : Option String → Json
  | some text => .string text
  | none => .null

/-- The members of every projection of an entity. -/
structure Projection where
  kind : String
  name : String
  qualifiedName : String
  kindLabel : String
  declarationKind : Option DeclKind := none
  fields : Fields := {}
  /-- The carrier address of the entity. -/
  link : String := ""

def Projection.toJson (projection : Projection) : Json :=
  .object
    [("kind", .string projection.kind), ("name", .string projection.name),
     ("qualified_name", .string projection.qualifiedName),
     ("kind_label", .string projection.kindLabel),
     ("declaration_kind", optionalText (projection.declarationKind.map DeclKind.name)),
     ("unique_name", optionalText projection.fields.uniqueName),
     ("group", optionalText projection.fields.group),
     ("module", optionalText projection.fields.moduleName),
     ("output_section", optionalText projection.fields.outputSection),
     ("synopsis", optionalText projection.fields.synopsis),
     ("link", .string projection.link)]

/-- The name is that for the output, if the documentation sets one. -/
def projectDeclaration (source : SourceTree) (id : DeclId) (fields : Fields) : Json :=
  Projection.toJson
    { kind := "declaration"
      name := fields.outputName.getD (source.name id)
      qualifiedName := source.qualifiedName id
      kindLabel := (source.kind id).label
      declarationKind := some (source.kind id)
      fields
      link := Carrier.encode (.declarationRef id) }

def projectModule (name : String) (fields : Fields) : Json :=
  Projection.toJson
    { kind := "module", name, qualifiedName := name, kindLabel := "Module", fields
      link := Carrier.encode (.moduleRef name) }

/-- The projection of documentation or of a document; null for markup. A group links to its first
member, if that is a declaration. -/
def projectEntity (source : SourceTree) : Entity → Json
  | .node (.declaration id _ fields) _ => projectDeclaration source id fields
  | .node (.moduleDoc name _ fields) _ => projectModule name fields
  | .node (.group name id fields) children =>
    Projection.toJson
      { kind := "group", name, qualifiedName := name, kindLabel := "Group", fields
        link := match (Entity.node (.group name id fields) children).key? with
          | some (.declaration id) => Carrier.encode (.declarationRef id)
          | _ => "" }
  | .node (.document name path _) _ =>
    Projection.toJson
      { kind := "document", name, qualifiedName := path.spelling, kindLabel := "Document" }
  | _ => .null

/-- The projection of a link target that has no documentation of its own. -/
def projectTarget : LinkTarget → Json
  | .unresolved raw => .object [("kind", .string "unresolved"), ("name", .string raw)]
  | .uri address =>
    .object [("kind", .string "uri"), ("name", .string address), ("uri", .string address)]
  | .inventoryRef entry =>
    .object
      [("kind", .string "inventory"), ("name", .string entry.entry),
       ("project", .string entry.project), ("version", .string entry.version),
       ("entry", .string entry.entry), ("location", .string entry.location)]
  | .moduleRef name => projectModule name {}
  | .declarationRef id =>
    .object [("kind", .string "declaration"), ("link", .string (Carrier.encode (.declarationRef id)))]

/-- The name of an entity in diagnostics. -/
def entityLabel (source : SourceTree) : Entity → String
  | .node (.declaration id ..) _ => (Comment.Binding.declaration id).describe source
  | .node (.moduleDoc name ..) _ => (Comment.Binding.moduleName name).describe source
  | .node (.group name ..) _ => "group '" ++ name ++ "'"
  | .node (.document _ path _) _ => "document '" ++ path.spelling ++ "'"
  | _ => "markup"

/-- The scope that lookups from inside an entity start at. -/
def entityScope (source : SourceTree) (entity : Entity) : String :=
  match entity.key? with
  | some (.declaration id) => source.qualifiedName id
  | some (.moduleName name) => name
  | _ => ""

end DocComment
