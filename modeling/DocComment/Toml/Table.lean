import DocComment.Toml.Basic

/-! The table that a sequence of statements builds. Each table is declared once, and a table that one
kind of statement made is closed to the other kinds. -/
namespace DocComment.Toml

/-- How a table came about. -/
inductive Origin where
  /-- Declared by a header of its own. -/
  | header
  /-- Implied by the longer path of a header. -/
  | implied
  /-- Made by a key with dots. -/
  | dotted
  deriving Repr, DecidableEq

/-- A member of a table that is being built. -/
inductive Node where
  /-- A value given in one piece; nothing can be added to it. -/
  | value (given : Value)
  | table (origin : Origin) (members : List (String × Node))
  /-- An array of tables, each begun by a header. -/
  | tables (elements : List (List (String × Node)))

/-- The members of a table that is being built. -/
abbrev Node.Members := List (String × Node)

namespace Node

/-- The members with one of them replaced. -/
def replace (name : String) (node : Node) (members : Members) : Members :=
  members.map fun (other, old) => if other == name then (other, node) else (other, old)

/-- Changes the table that a path of headers leads to: through tables and through the last elements of
arrays. Tables on the way are implied. -/
def descend? (change : Members → Option Members) : List String → Members → Option Members
  | [], members => change members
  | name :: path, members =>
    match members.lookup name with
    | none => (descend? change path []).map fun inner => members ++ [(name, .table .implied inner)]
    | some (.table origin inner) =>
      (descend? change path inner).map fun inner => replace name (.table origin inner) members
    | some (.tables elements) =>
      elements.getLast?.bind fun last =>
        (descend? change path last).map fun last =>
          replace name (.tables (elements.dropLast ++ [last])) members
    | some (.value _) => none

/-- Adds a value under a key with or without dots. A table that ends the path before the last name was
made by dots; one that is only passed was not declared by a header. -/
def assign? (given : Value) : List String → Members → Option Members
  | [], _ => none
  | [name], members =>
    if (members.lookup name).isSome then none else some (members ++ [(name, .value given)])
  | name :: path, members =>
    match members.lookup name with
    | none => (assign? given path []).map fun inner => members ++ [(name, .table .dotted inner)]
    | some (.table origin inner) =>
      if origin == .header || (origin == .implied && path.length == 1) then none
      else (assign? given path inner).map fun inner => replace name (.table origin inner) members
    | some _ => none

/-- Declares a table, new or implied before. -/
def declare? (name : String) (members : Members) : Option Members :=
  match members.lookup name with
  | none => some (members ++ [(name, .table .header [])])
  | some (.table .implied inner) => some (replace name (.table .header inner) members)
  | some _ => none

/-- Begins a new element of an array of tables. -/
def declareElement? (name : String) (members : Members) : Option Members :=
  match members.lookup name with
  | none => some (members ++ [(name, .tables [[]])])
  | some (.tables elements) => some (replace name (.tables (elements ++ [[]])) members)
  | some _ => none

mutual

/-- The finished value. -/
def finish : Node → Value
  | .value given => given
  | .table _ members => .table (finishMembers members)
  | .tables elements => .array (finishElements elements)

def finishMembers : List (String × Node) → Table
  | [] => []
  | (name, node) :: rest => (name, node.finish) :: finishMembers rest

def finishElements : List (List (String × Node)) → List Value
  | [] => []
  | members :: rest => .table (finishMembers members) :: finishElements rest

end

/-- Follows one statement. The path is that of the last header. -/
def follow? (state : List String × Members) : Statement → Option (List String × Members)
  | .assign path given => (descend? (assign? given path) state.1 state.2).map fun members => (state.1, members)
  | .header path =>
    path.getLast?.bind fun name =>
      (descend? (declare? name) path.dropLast state.2).map fun members => (path, members)
  | .elementHeader path =>
    path.getLast?.bind fun name =>
      (descend? (declareElement? name) path.dropLast state.2).map fun members => (path, members)

end Node

/-- The table that statements build, unless two of them are at odds. -/
def tableOf? (statements : List Statement) : Option Table :=
  (statements.foldlM Node.follow? ([], [])).map fun (_, members) => Node.finishMembers members

/-- The table that assignments between braces build. -/
def inlineTable? (assignments : List (List String × Value)) : Option Table :=
  tableOf? (assignments.map fun (path, value) => .assign path value)

end DocComment.Toml
