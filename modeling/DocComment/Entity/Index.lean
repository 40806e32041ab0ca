import DocComment.Entity.Key

namespace DocComment

inductive IndexError where
  | duplicate (key : Key)
  | noIdentity
  deriving Repr, DecidableEq

def IndexError.message : IndexError → String
  | .duplicate key => key.describe ++ " is already documented"
  | .noIdentity => "entity without identity cannot be indexed"

/-- Top-level entities and the position registered for each identity, in normal spelling. Members of
a group are registered at the position of the group. -/
structure Index where
  entities : List Entity := []
  positions : List (Key × Nat) := []
  deriving Repr, DecidableEq, Inhabited

namespace Index

def size (index : Index) : Nat :=
  index.entities.length

def position? (index : Index) (key : Key) : Option Nat :=
  index.positions.lookup key.normal

def contains (index : Index) (key : Key) : Bool :=
  (index.position? key).isSome

/-- Appends an entity and registers its identities, unless it has none or one of them is taken. -/
def insert (index : Index) (entity : Entity) : Index × Option IndexError :=
  match entity.indexKeys with
  | [] => (index, some .noIdentity)
  | keys =>
    match keys.find? index.contains with
    | some key => (index, some (.duplicate key))
    | none =>
      ({ entities := index.entities ++ [entity]
         positions := index.positions ++ keys.map fun key => (key.normal, index.size) }, none)

/-- The entity of an identity; a member of a group is found itself, not its group. -/
def find? (index : Index) (key : Key) : Option Entity := do
  let position ← index.position? key
  match ← index.entities[position]? with
  | .node (.group ..) children => children.find? (·.hasKey key)
  | entity => some entity

/-- Changes the first entity that satisfies a condition. -/
def modifyFirst (condition : Entity → Bool) (change : Entity → Entity) : List Entity → List Entity
  | [] => []
  | entity :: rest =>
    if condition entity then change entity :: rest else entity :: modifyFirst condition change rest

/-- Changes the entity of an identity in place. -/
def modify (index : Index) (key : Key) (change : Entity → Entity) : Index :=
  match index.position? key with
  | none => index
  | some position =>
    { index with entities := index.entities.modify position fun entity =>
        match entity with
        | .node (.group name id fields) children =>
          .node (.group name id fields) (modifyFirst (·.hasKey key) change children)
        | other => change other }

/-- Like `find?`, and else the first entity of this identity nested anywhere. -/
def findNested? (index : Index) (key : Key) : Option Entity :=
  (index.find? key).or (Entity.findKeyIn? key index.entities)

/-- Adds entities to an index until one is refused. What was added before it stays. -/
def insertAll : Index → List Entity → Index × Option IndexError
  | index, [] => (index, none)
  | index, entity :: rest =>
    match index.insert entity with
    | (grown, none) => insertAll grown rest
    | (index, some problem) => (index, some problem)

/-- An index of these entities alone, up to the first that is refused. -/
def rebuild (entities : List Entity) : Index × Option IndexError :=
  insertAll {} entities

/-- The address of a resolved link target. -/
def href? (index : Index) (target : LinkTarget) : Option String :=
  let nonempty (text : String) : Option String := if text == "" then none else some text
  let anchored (key : Key) : Option String :=
    ((index.findNested? key).bind Entity.anchor?).bind fun id => (nonempty id).map ("#" ++ ·)
  match target with
  | .unresolved _ => none
  | .moduleRef name => anchored (.moduleName name)
  | .declarationRef id => anchored (.declaration id)
  | .inventoryRef entry => nonempty entry.location
  | .uri address => nonempty address

end Index

end DocComment
