import DocComment.Entity.Basic

namespace DocComment

inductive DeclKind where
  | file
  | namespace_
  | class_
  | struct
  | union
  | enum
  | enumerator
  | function
  | memberFunction
  | constructor
  | destructor
  | conversion
  | variable_
  | member
  | typeAlias
  | concept
  | macroDefinition
  | functionParameter
  | templateParameter
  | base
  deriving Repr, DecidableEq, Inhabited

namespace DeclKind

def all : List DeclKind :=
  [.file, .namespace_, .class_, .struct, .union, .enum, .enumerator, .function, .memberFunction,
   .constructor, .destructor, .conversion, .variable_, .member, .typeAlias, .concept,
   .macroDefinition, .functionParameter, .templateParameter, .base]

def name : DeclKind → String
  | .file => "file"
  | .namespace_ => "namespace"
  | .class_ => "class"
  | .struct => "struct"
  | .union => "union"
  | .enum => "enum"
  | .enumerator => "enumerator"
  | .function => "function"
  | .memberFunction => "member_function"
  | .constructor => "constructor"
  | .destructor => "destructor"
  | .conversion => "conversion"
  | .variable_ => "variable"
  | .member => "member"
  | .typeAlias => "type_alias"
  | .concept => "concept"
  | .macroDefinition => "macro"
  | .functionParameter => "function_parameter"
  | .templateParameter => "template_parameter"
  | .base => "base"

/-- The label that headings show. -/
def label : DeclKind → String
  | .file => "Header file"
  | .namespace_ => "Namespace"
  | .class_ => "Class"
  | .struct => "Struct"
  | .union => "Union"
  | .enum => "Enumeration"
  | .enumerator => "Enumeration constant"
  | .function => "Function"
  | .memberFunction => "Member function"
  | .constructor => "Constructor"
  | .destructor => "Destructor"
  | .conversion => "Conversion operator"
  | .variable_ => "Variable"
  | .member => "Member variable"
  | .typeAlias => "Type alias"
  | .concept => "Concept"
  | .macroDefinition => "Macro"
  | .functionParameter => "Parameter"
  | .templateParameter => "Template parameter"
  | .base => "Base class"

def ofName? (name : String) : Option DeclKind :=
  all.find? (·.name == name)

def isFunctionLike : DeclKind → Bool
  | .function | .memberFunction | .constructor | .destructor | .conversion | .macroDefinition => true
  | _ => false

/-- Parts of a declaration that have no comment of their own. -/
def isSubPart : DeclKind → Bool
  | .functionParameter | .templateParameter | .base => true
  | _ => false

end DeclKind

inductive Access where
  | public_
  | protected_
  | private_
  deriving Repr, DecidableEq, Inhabited

namespace Access

def name : Access → String
  | .public_ => "public"
  | .protected_ => "protected"
  | .private_ => "private"

def ofName? (name : String) : Option Access :=
  [public_, protected_, private_].find? (·.name == name)

end Access

structure Decl where
  kind : DeclKind := .file
  name : String := ""
  parent : Option DeclId := none
  children : List DeclId := []
  access : Access := .public_
  comment : Option String := none
  deriving Repr, DecidableEq, Inhabited

/-- Declarations in the order they were added, the comments of a file that belong to none of them,
and the first declaration of each qualified name. -/
structure SourceTree where
  decls : List Decl := []
  freeComments : List (DeclId × String) := []
  byQualifiedName : List (String × DeclId) := []
  deriving Repr, DecidableEq, Inhabited

namespace SourceTree

def size (tree : SourceTree) : Nat :=
  tree.decls.length

def contains (tree : SourceTree) (id : DeclId) : Bool :=
  id < tree.size

def ids (tree : SourceTree) : List DeclId :=
  List.range tree.size

def decl (tree : SourceTree) (id : DeclId) : Decl :=
  tree.decls[id]?.getD {}

def kind (tree : SourceTree) (id : DeclId) : DeclKind :=
  (tree.decl id).kind

def name (tree : SourceTree) (id : DeclId) : String :=
  (tree.decl id).name

def parent (tree : SourceTree) (id : DeclId) : Option DeclId :=
  (tree.decl id).parent

def children (tree : SourceTree) (id : DeclId) : List DeclId :=
  (tree.decl id).children

def access (tree : SourceTree) (id : DeclId) : Access :=
  (tree.decl id).access

def comment? (tree : SourceTree) (id : DeclId) : Option String :=
  (tree.decl id).comment

/-- The declaration itself and the scopes around it, innermost first, up to but without the first
file. Parents come before their children, so the number of declarations bounds the walk. -/
def scopesFrom (tree : SourceTree) : Nat → Option DeclId → List DeclId
  | 0, _ => []
  | _, none => []
  | fuel + 1, some id =>
    if tree.kind id == .file then [] else id :: tree.scopesFrom fuel (tree.parent id)

def scopes (tree : SourceTree) (id : DeclId) : List DeclId :=
  tree.scopesFrom (tree.size + 1) (some id)

def enclosingFileFrom (tree : SourceTree) : Nat → Option DeclId → Option DeclId
  | 0, _ => none
  | _, none => none
  | fuel + 1, some id =>
    if tree.kind id == .file then some id else tree.enclosingFileFrom fuel (tree.parent id)

/-- The file a declaration lives in; a file is its own. -/
def enclosingFile? (tree : SourceTree) (id : DeclId) : Option DeclId :=
  tree.enclosingFileFrom (tree.size + 1) (some id)

/-- The names of the scopes from the outermost on, without the file. A file has its path. -/
def qualifiedName (tree : SourceTree) (id : DeclId) : String :=
  if tree.kind id == .file then tree.name id
  else String.intercalate "::" ((tree.scopes id).reverse.map tree.name)

private def adoptChild (decls : List Decl) (parent : Option DeclId) (id : DeclId) : List Decl :=
  match parent with
  | none => decls
  | some parent => decls.modify parent fun decl => { decl with children := decl.children ++ [id] }

/-- Appends a declaration and enters its name if it is the first with it. -/
def push (tree : SourceTree) (kind : DeclKind) (name : String) (parent : Option DeclId) : SourceTree :=
  let id := tree.size
  let grown := { tree with decls := adoptChild (tree.decls ++ [{ kind, name, parent }]) parent id }
  if kind.isSubPart || kind == .file then grown
  else
    let qualified := grown.qualifiedName id
    if (tree.byQualifiedName.lookup qualified).isSome then grown
    else { grown with byQualifiedName := tree.byQualifiedName ++ [(qualified, id)] }

/-- Adds a file. Its name is its path. -/
def addFile (tree : SourceTree) (path : String) : SourceTree :=
  tree.push .file path none

/-- Adds a declaration inside another one. -/
def add (tree : SourceTree) (parent : DeclId) (kind : DeclKind) (name : String) : SourceTree :=
  tree.push kind name (some parent)

def setComment (tree : SourceTree) (id : DeclId) (text : String) : SourceTree :=
  { tree with decls := tree.decls.modify id fun decl => { decl with comment := some text } }

def setAccess (tree : SourceTree) (id : DeclId) (access : Access) : SourceTree :=
  { tree with decls := tree.decls.modify id fun decl => { decl with access } }

/-- Adds a comment of a file that belongs to none of its declarations. -/
def addFreeComment (tree : SourceTree) (file : DeclId) (text : String) : SourceTree :=
  { tree with freeComments := tree.freeComments ++ [(file, text)] }

def childrenOfKind (tree : SourceTree) (id : DeclId) (kind : DeclKind) : List DeclId :=
  (tree.children id).filter fun child => tree.kind child == kind

def parameters (tree : SourceTree) (id : DeclId) : List DeclId :=
  tree.childrenOfKind id .functionParameter

def templateParameters (tree : SourceTree) (id : DeclId) : List DeclId :=
  tree.childrenOfKind id .templateParameter

def bases (tree : SourceTree) (id : DeclId) : List DeclId :=
  tree.childrenOfKind id .base

def isFunctionLike (tree : SourceTree) (id : DeclId) : Bool :=
  (tree.kind id).isFunctionLike

def isTemplated (tree : SourceTree) (id : DeclId) : Bool :=
  !(tree.templateParameters id).isEmpty

/-- The first declaration of a qualified name, or else the first file of that path. -/
def lookup? (tree : SourceTree) (qualified : String) : Option DeclId :=
  (tree.byQualifiedName.lookup qualified).or
    (tree.ids.find? fun id => tree.kind id == .file && tree.name id == qualified)

/-- The direct part of a declaration with this kind and name. -/
def subPart? (tree : SourceTree) (owner : DeclId) (kind : DeclKind) (name : String) : Option DeclId :=
  (tree.childrenOfKind owner kind).find? fun child => tree.name child == name

/-- The sections that the documentation of a declaration always has. -/
def requiredSections (tree : SourceTree) (id : DeclId) : List SectionKind :=
  (if tree.isTemplated id then [.requires] else []) ++
    (if tree.isFunctionLike id then [.parameters] else [])

end SourceTree

end DocComment
