import DocComment.Entity.Basic

namespace DocComment

inductive Key where
  | declaration (id : DeclId)
  | moduleName (name : String)
  | document (path : RelativePath)
  deriving Repr, DecidableEq, Inhabited

namespace Key

/-- The spelling that keys of one identity share; paths are compared by components. -/
def normal : Key → Key
  | .document path => .document path.normal
  | other => other

/-- Whether two keys name the same identity. -/
def same (left right : Key) : Bool :=
  left.normal == right.normal

def describe : Key → String
  | .declaration id => "declaration #" ++ toString id
  | .moduleName name => "module '" ++ name ++ "'"
  | .document path => "document '" ++ path.spelling ++ "'"

end Key

namespace Entity

mutual

/-- The identity of an entity; a group has that of its first member with one. -/
def key? : Entity → Option Key
  | .leaf _ => none
  | .node tag children =>
    match tag with
    | .declaration declared .. => some (.declaration declared)
    | .moduleDoc name .. => some (.moduleName name)
    | .document _ path _ => some (.document path)
    | .group .. => firstKey? children
    | _ => none

def firstKey? : List Entity → Option Key
  | [] => none
  | entity :: rest => (key? entity).or (firstKey? rest)

end

/-- Whether this is the entity with the given identity. -/
def hasKey (key : Key) (entity : Entity) : Bool :=
  entity.key?.any key.same

/-- The identities under which an entity is indexed: its own, or those of a group's members. -/
def indexKeys : Entity → List Key
  | .node (.group ..) children => children.filterMap key?
  | entity => entity.key?.toList

mutual

/-- The first entity of the tree, in preorder, with an identity. -/
def findKey? (key : Key) : Entity → Option Entity
  | .leaf _ => none
  | .node tag children =>
    if (Entity.node tag children).hasKey key then some (.node tag children)
    else findKeyIn? key children

def findKeyIn? (key : Key) : List Entity → Option Entity
  | [] => none
  | entity :: rest => (findKey? key entity).or (findKeyIn? key rest)

end

end Entity

end DocComment
