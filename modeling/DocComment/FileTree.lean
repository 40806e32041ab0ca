import DocComment.Text.Basic
import DocComment.Text.Percent

namespace DocComment

inductive FileEntry where
  | directory
  | file (bytes : List UInt8)
  deriving Repr, DecidableEq

/-- Entries by location. The root is a directory without an entry. -/
structure FileTree where
  entries : List (List String × FileEntry) := []
  deriving Repr, DecidableEq

namespace FileTree

/-- The names between the slashes of a path. -/
def names (path : String) : List String :=
  (Text.splitBy (· == '/') path.toList).map String.ofList

/-- A path below another one; a path that starts with a slash stands for itself. -/
def joinPaths (base path : String) : String :=
  if path.startsWith "/" then path
  else if base.isEmpty || base.endsWith "/" then base ++ path
  else base ++ "/" ++ path

/-- Whether a name stays where it is. -/
def isStay (name : String) : Bool :=
  name == "" || name == "."

/-- The names of a path that lead somewhere. -/
def steps (path : String) : List String :=
  (names path).filter (! isStay ·)

def entry? (tree : FileTree) (location : List String) : Option FileEntry :=
  if location.isEmpty then some .directory else tree.entries.lookup location

def isDirectory (tree : FileTree) (location : List String) : Bool :=
  tree.entry? location == some .directory

/-- Sets the entry at a location, in a directory that is there. -/
def set (tree : FileTree) (location : List String) (entry : FileEntry) : FileTree :=
  ⟨tree.entries.filter (·.1 != location) ++ [(location, entry)]⟩

/-- The names in a directory, in order. -/
def children (tree : FileTree) (location : List String) : List String :=
  (tree.entries.filterMap fun (path, _) =>
    if path.dropLast == location then path.getLast? else none).mergeSort fun a b => decide (a ≤ b)

/-- Whether a location comes before another one or is it: names compare in turn, and a location comes
before what is below it. -/
def comesBefore : List String → List String → Bool
  | [], _ => true
  | _ :: _, [] => false
  | a :: left, b :: right => if a == b then comesBefore left right else decide (a < b)

/-- All locations below a location; each directory comes right before what it holds. -/
def below (tree : FileTree) (location : List String) : List (List String) :=
  (tree.entries.filterMap fun (path, _) =>
    if location.isPrefixOf path && path != location then some path else none).mergeSort comesBefore

/-- One name further. Only from a directory one can go on. -/
def step? (tree : FileTree) (location : List String) (name : String) : Option (List String) :=
  if !tree.isDirectory location then none
  else if isStay name then some location
  else if name == ".." then some location.dropLast
  else if (tree.entry? (location ++ [name])).isSome then some (location ++ [name])
  else none

/-- Where a path from the root leads. -/
def locate? (tree : FileTree) (path : String) : Option (List String) :=
  (names path).foldlM tree.step? []

/-- One name further, into a directory that is made if nothing is there. -/
def stepInto? (state : FileTree × List String) (name : String) : Option (FileTree × List String) :=
  let (tree, location) := state
  if name == ".." then some (tree, location.dropLast)
  else
    let next := location ++ [name]
    match tree.entry? next with
    | some .directory => some (tree, next)
    | some (.file _) => none
    | none => some (tree.set next .directory, next)

/-- Makes the directory of a path and all directories on the way. -/
def makeDirectories? (tree : FileTree) (steps : List String) : Option FileTree :=
  (steps.foldlM stepInto? (tree, [])).map (·.1)

/-- Writes a file into a directory that is there. -/
def writeFile? (tree : FileTree) (path : String) (bytes : List UInt8) : Option FileTree := do
  let path := names path
  let name ← path.getLast?
  let directory ← path.dropLast.foldlM tree.step? []
  let location := directory ++ [name]
  if isStay name || name == ".." || !tree.isDirectory directory || tree.isDirectory location then none
  else some (tree.set location (.file bytes))

/-- The content of a file as text. -/
def text? (tree : FileTree) (location : List String) : Option String :=
  match tree.entry? location with
  | some (.file bytes) => Text.ofUtf8? bytes
  | _ => none

end FileTree

end DocComment
