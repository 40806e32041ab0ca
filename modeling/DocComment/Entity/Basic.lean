import DocComment.Entity.Fields
import DocComment.Path

namespace DocComment

/-- Position of a declaration in its source tree. -/
abbrev DeclId := Nat

/-- An entry of an external symbol inventory. -/
structure InventoryRef where
  project : String
  version : String
  entry : String
  location : String
  deriving Repr, DecidableEq, Inhabited

/-- Where a link points. Links start out unresolved or as addresses. -/
inductive LinkTarget where
  /-- A name still to be looked up. A leading `*` or `?` asks for a fuzzy lookup. -/
  | unresolved (raw : String)
  | moduleRef (name : String)
  | declarationRef (id : DeclId)
  | inventoryRef (entry : InventoryRef)
  | uri (address : String)
  deriving Repr, DecidableEq, Inhabited

namespace LinkTarget

def isUnresolved : LinkTarget → Bool
  | .unresolved _ => true
  | _ => false

/-- Short name of the kind, which selects the template for its text. -/
def kindName : LinkTarget → String
  | .unresolved _ => "unresolved"
  | .moduleRef _ => "module"
  | .declarationRef _ => "declaration"
  | .inventoryRef _ => "inventory"
  | .uri _ => "uri"

end LinkTarget

/-- Nodes without children. -/
inductive Leaf where
  | text (text : String)
  | softBreak
  | hardBreak
  | thematicBreak
  | code (text : String)
  /-- The language is the whole info string; it is empty for an indented block. -/
  | codeBlock (language : String) (code : String)
  deriving Repr, DecidableEq, Inhabited

/-- What a node with children is. -/
inductive Tag where
  | emphasis
  | strong
  | image (source : String) (title : String)
  | link (target : LinkTarget) (title : String)
  | list (ordered : Bool)
  | listItem
  | paragraph
  | blockQuote
  | heading (level : Nat)
  /-- A labeled section of a documentation entity. -/
  | part (kind : SectionKind)
  | document (name : String) (path : RelativePath) (id : String)
  | moduleDoc (name : String) (id : String) (fields : Fields)
  /-- Members that share one heading. -/
  | group (name : String) (id : String) (fields : Fields)
  | declaration (declared : DeclId) (id : String) (fields : Fields)
  deriving Repr, DecidableEq, Inhabited

inductive Entity where
  | leaf (leaf : Leaf)
  | node (tag : Tag) (children : List Entity)
  deriving Repr, Inhabited

namespace Entity

mutual

def decEq : (left right : Entity) → Decidable (left = right)
  | .leaf a, .leaf b => if same : a = b then isTrue (by rw [same]) else isFalse (by simp [same])
  | .node a xs, .node b ys =>
    if same : a = b then
      match decEqList xs ys with
      | isTrue equal => isTrue (by rw [same, equal])
      | isFalse differ => isFalse (by simp [differ])
    else isFalse (by simp [same])
  | .leaf _, .node .. => isFalse (by nofun)
  | .node .., .leaf _ => isFalse (by nofun)

def decEqList : (left right : List Entity) → Decidable (left = right)
  | [], [] => isTrue rfl
  | x :: xs, y :: ys =>
    match decEq x y with
    | isTrue same =>
      match decEqList xs ys with
      | isTrue equal => isTrue (by rw [same, equal])
      | isFalse differ => isFalse (by simp [differ])
    | isFalse differ => isFalse (by simp [differ])
  | [], _ :: _ => isFalse (by nofun)
  | _ :: _, [] => isFalse (by nofun)

end

instance : DecidableEq Entity := decEq

@[match_pattern] abbrev text (written : String) : Entity := .leaf (.text written)
@[match_pattern] abbrev code (written : String) : Entity := .leaf (.code written)
@[match_pattern] abbrev paragraph (children : List Entity) : Entity := .node .paragraph children
@[match_pattern] abbrev part (kind : SectionKind) (children : List Entity) : Entity :=
  .node (.part kind) children

def children : Entity → List Entity
  | .leaf _ => []
  | .node _ children => children

/-- Replaces the children of a node; a leaf stays as it is. -/
def withChildren (children : List Entity) : Entity → Entity
  | .leaf content => .leaf content
  | .node tag _ => .node tag children

/-- Laid out as a block rather than inline. -/
def isBlock : Entity → Bool
  | .leaf .thematicBreak | .leaf (.codeBlock ..) => true
  | .leaf _ => false
  | .node tag _ =>
    match tag with
    | .emphasis | .strong | .image .. | .link .. => false
    | _ => true

mutual

/-- The text with markup stripped; a break counts as one blank. -/
def plainText : Entity → String
  | .leaf (.text written) | .leaf (.code written) | .leaf (.codeBlock _ written) => written
  | .leaf .softBreak | .leaf .hardBreak => " "
  | .leaf .thematicBreak => ""
  | .node _ children => plainTextAll children

def plainTextAll : List Entity → String
  | [] => ""
  | entity :: rest => plainText entity ++ plainTextAll rest

end

/-- Cross-reference id of the kinds that have one; empty until it is assigned. -/
def anchor? : Entity → Option String
  | .node (.document _ _ id) _ | .node (.moduleDoc _ id _) _ | .node (.group _ id _) _
  | .node (.declaration _ id _) _ => some id
  | _ => none

def setAnchor (id : String) : Entity → Entity
  | .node (.document name path _) children => .node (.document name path id) children
  | .node (.moduleDoc name _ fields) children => .node (.moduleDoc name id fields) children
  | .node (.group name _ fields) children => .node (.group name id fields) children
  | .node (.declaration declared _ fields) children => .node (.declaration declared id fields) children
  | other => other

def fields? : Entity → Option Fields
  | .node (.moduleDoc _ _ fields) _ | .node (.group _ _ fields) _
  | .node (.declaration _ _ fields) _ => some fields
  | _ => none

/-- Changes the metadata of the kinds that have some. -/
def mapFields (change : Fields → Fields) : Entity → Entity
  | .node (.moduleDoc name id fields) children => .node (.moduleDoc name id (change fields)) children
  | .node (.group name id fields) children => .node (.group name id (change fields)) children
  | .node (.declaration declared id fields) children =>
    .node (.declaration declared id (change fields)) children
  | other => other

def isDocumentation (entity : Entity) : Bool :=
  entity.fields?.isSome

end Entity

end DocComment
