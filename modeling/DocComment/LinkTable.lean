import DocComment.Carrier
import DocComment.Diagnostics
import DocComment.Entity.Index
import DocComment.Inventory
import DocComment.Source.Basic

namespace DocComment

namespace Entity

mutual

/-- The entity and all below it, in preorder. -/
def preorder : Entity → List Entity
  | .leaf content => [.leaf content]
  | .node tag children => .node tag children :: preorderAll children

def preorderAll : List Entity → List Entity
  | [] => []
  | entity :: rest => preorder entity ++ preorderAll rest

end

end Entity

/-- The order in which a set goes through names. Every set has one of its own. -/
structure SetOrder where
  arrange : List String → List String
  perm : ∀ names, (arrange names).Perm names

/-- The order in which the names came in. -/
def SetOrder.arrival : SetOrder :=
  ⟨id, fun names => .refl names⟩

/-- What links can name. The first entry for a name counts. -/
structure LinkTable where
  /-- Unique names, then qualified names. -/
  names : List (String × DeclId) := []
  /-- Paths of files, and the names after their last slashes. -/
  headers : List (String × DeclId) := []
  /-- A set, in the order in which it is gone through. -/
  modules : List String := []
  /-- Qualified names in the order of the index. -/
  declarations : List (String × DeclId) := []
  /-- Declarations from this number on are unknown. -/
  declared : Nat := 0
  /-- Whether a raw target is an address rather than a name. -/
  isAddress : String → Bool := isCompleteUri

namespace LinkTable

def uniqueNames (entities : List Entity) : List (String × DeclId) :=
  entities.filterMap fun entity => match entity with
    | .node (.declaration id _ fields) _ => fields.uniqueName.map fun name => (name, id)
    | _ => none

def baseName? (path : String) : Option String :=
  if path.toList.contains '/' then
    some (String.ofList (path.toList.reverse.takeWhile (· != '/')).reverse)
  else none

def headerNames (source : SourceTree) (ids : List DeclId) : List (String × DeclId) :=
  (ids.filter fun id => source.kind id == .file).flatMap fun id =>
    (source.name id, id) :: ((baseName? (source.name id)).map fun base => (base, id)).toList

def build (source : SourceTree) (index : Index) (order : SetOrder := .arrival)
    (isAddress : String → Bool := isCompleteUri) : LinkTable :=
  let entities := Entity.preorderAll index.entities
  let ids := entities.filterMap fun entity => match entity with
    | .node (.declaration id ..) _ => some id
    | _ => none
  let qualified := (ids.filter fun id => source.kind id != .file).map fun id =>
    (source.qualifiedName id, id)
  { names := uniqueNames entities ++ qualified
    headers := headerNames source ids
    modules := order.arrange (entities.filterMap fun entity => match entity with
      | .node (.moduleDoc name ..) _ => some name
      | _ => none).eraseDups
    declarations := qualified
    declared := source.size
    isAddress }

/-- The components of a qualified name. -/
def scopeComponents : List Char → List (List Char)
  | [] => [[]]
  | ':' :: ':' :: rest => [] :: scopeComponents rest
  | c :: rest =>
    match scopeComponents rest with
    | [] => [[c]]
    | part :: parts => (c :: part) :: parts

/-- The number of leading components that two names share. -/
def sharedScope (left right : String) : Nat :=
  (((scopeComponents left.toList).zip (scopeComponents right.toList)).takeWhile
    fun (a, b) => a == b).length

def fold (ignoreCase : Bool) (name : String) : List Char :=
  if ignoreCase then Unicode.lower name.toList else name.toList

/-- Whether a name is the whole of a qualified name or its last components. -/
def endsWithName (qualified name : List Char) : Bool :=
  qualified == name || (name.reverse ++ [':', ':']).isPrefixOf qualified.reverse

/-- Whether a candidate is nearer to a scope than the best one so far. -/
def nearer (scope : String) (candidate best : String) : Bool :=
  let shared := sharedScope candidate scope
  let sharedBest := sharedScope best scope
  sharedBest < shared ||
    (sharedBest == shared && Text.byteLength candidate.toList < Text.byteLength best.toList)

/-- The first of the nearest candidates. -/
def nearest? (scope : String) (candidates : List (String × DeclId)) : Option (String × DeclId) :=
  candidates.foldl (fun best candidate =>
    match best with
    | none => some candidate
    | some present => if nearer scope candidate.1 present.1 then some candidate else best) none

/-- Looks a name up from inside a scope by its last components. -/
def fuzzy? (table : LinkTable) (ignoreCase : Bool) (name scope : String) : Option LinkTarget :=
  let folded := fold ignoreCase name
  if folded.isEmpty then none
  else
    let candidates := table.declarations.filter fun (qualified, _) =>
      endsWithName (fold ignoreCase qualified) folded
    match nearest? scope candidates with
    | some (_, id) => some (.declarationRef id)
    | none => (table.modules.find? fun name => fold ignoreCase name == folded).map .moduleRef

def named? (table : LinkTable) (name : String) : Option LinkTarget :=
  match table.names.lookup name with
  | some id => some (.declarationRef id)
  | none => if table.modules.contains name then some (.moduleRef name) else none

/-- The target of a carrier address, unless it is malformed or its declaration is unknown. -/
def carried (table : LinkTable) (raw : String) : Option LinkTarget × List Notice :=
  match Carrier.decode? raw with
  | none => (none, [.remark ("malformed link carrier '" ++ raw ++ "'")])
  | some (.declarationRef id) =>
    if table.declared ≤ id then
      (none, [.remark ("link carrier names unknown declaration #" ++ toString id)])
    else (some (.declarationRef id), [])
  | some target => (some target, [])

/-- Resolves a raw target from inside a scope: a carrier, a file, then a name. Complete addresses are
left alone. -/
def resolve (table : LinkTable) (raw scope : String) : Option LinkTarget × List Notice :=
  if Carrier.scheme.toList.isPrefixOf raw.toList then table.carried raw
  else
    (match table.headers.lookup raw with
    | some id => some (.declarationRef id)
    | none =>
      if table.isAddress raw then none
      else match raw.toList with
        | '*' :: name => table.fuzzy? false (String.ofList name) scope
        | '?' :: name => table.fuzzy? true (String.ofList name) scope
        | _ => table.named? raw, [])

end LinkTable

end DocComment
