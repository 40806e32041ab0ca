import DocComment.FileTree
import DocComment.Text.Basic

namespace DocComment.Glob

/-- A member of a class of characters. -/
inductive ClassItem where
  | single (c : Char)
  | range (first last : Char)
  deriving Repr, DecidableEq

def ClassItem.contains : ClassItem → Char → Bool
  | .single c, d => c == d
  | .range first last, d => first ≤ d && d ≤ last

inductive Token where
  | literal (c : Char)
  | anyChar
  /-- Any number of characters. -/
  | anyText
  | within (items : List ClassItem)
  | outside (items : List ClassItem)
  deriving Repr, DecidableEq

/-- What one component of a path must look like. -/
inductive Component where
  /-- The component itself. -/
  | name (text : String)
  | wild (tokens : List Token)
  /-- Any number of directories. -/
  | anyDepth
  deriving Repr, DecidableEq

/-- Whether a predicate holds of some end of a text. -/
def someEnd (holds : List Char → Bool) : List Char → Bool
  | [] => holds []
  | c :: rest => holds (c :: rest) || someEnd holds rest

/-- Whether tokens match all of a text. -/
def matchTokens : List Token → List Char → Bool
  | [], text => text.isEmpty
  | .anyText :: tokens, text => someEnd (matchTokens tokens) text
  | _ :: _, [] => false
  | .literal c :: tokens, d :: rest => c == d && matchTokens tokens rest
  | .anyChar :: tokens, _ :: rest => matchTokens tokens rest
  | .within items :: tokens, d :: rest => items.any (·.contains d) && matchTokens tokens rest
  | .outside items :: tokens, d :: rest => !items.any (·.contains d) && matchTokens tokens rest

def Component.matchesName (component : Component) (name : String) : Bool :=
  match component with
  | .name text => text == name
  | .wild tokens => matchTokens tokens name.toList
  | .anyDepth => true

/-- The members of a class. A hyphen between two characters makes a range. -/
def classItems : List Char → List ClassItem
  | first :: '-' :: last :: rest => .range first last :: classItems rest
  | c :: rest => .single c :: classItems rest
  | [] => []

/-- A class after its opening bracket. It has a member, which may be a closing bracket. -/
def class? (text : List Char) : Option (Token × List Char) :=
  match text with
  | '!' :: c :: rest =>
    (Text.splitOnce (· == ']') rest).map fun (inside, after) => (.outside (classItems (c :: inside)), after)
  | ['!'] => none
  | c :: rest =>
    (Text.splitOnce (· == ']') rest).map fun (inside, after) => (.within (classItems (c :: inside)), after)
  | [] => none

/-- The tokens of a component. Two stars in a row are no tokens. -/
def tokens? : Nat → List Char → Option (List Token)
  | 0, _ => none
  | _, [] => some []
  | _, '*' :: '*' :: _ => none
  | fuel + 1, '*' :: rest => (tokens? fuel rest).map (.anyText :: ·)
  | fuel + 1, '?' :: rest => (tokens? fuel rest).map (.anyChar :: ·)
  | fuel + 1, '[' :: rest =>
    (class? rest).bind fun (token, after) => (tokens? fuel after).map (token :: ·)
  | fuel + 1, c :: rest => (tokens? fuel rest).map (.literal c :: ·)

/-- A component. Two stars alone stand for any number of directories. -/
def component? (text : String) : Option Component :=
  if text == "**" then some .anyDepth
  else if text.toList.any fun c => c == '*' || c == '?' || c == '[' then
    (tokens? (text.length + 1) text.toList).map .wild
  else some (.name text)

/-- A place in a file tree, and the names by which it was reached. -/
structure Place where
  spelled : List String
  location : List String
  deriving Repr, DecidableEq

namespace Place

def child (place : Place) (name : String) : Place :=
  ⟨place.spelled ++ [name], place.location ++ [name]⟩

/-- One name further, if something is there. -/
def step? (tree : FileTree) (place : Place) (name : String) : Option Place :=
  (tree.step? place.location name).map fun location =>
    ⟨if name.isEmpty then place.spelled else place.spelled ++ [name], location⟩

/-- All places below, each directory right before what it holds. -/
def below (tree : FileTree) (place : Place) : List Place :=
  (tree.below place.location).map fun location =>
    ⟨place.spelled ++ location.drop place.location.length, location⟩

def children (tree : FileTree) (place : Place) : List Place :=
  (tree.children place.location).map place.child

end Place

/-- The detours that a component with wildcards matches: only one that starts with a point does. -/
def detours (component : Component) : List String :=
  match component with
  | .wild (.literal '.' :: _) => ["..", "."].filter component.matchesName
  | _ => []

/-- The places that components lead to, from a given place. Several components for any depth count
as one; at the end one stands for directories. -/
def find (tree : FileTree) : List Component → Place → List Place
  | [], place => [place]
  | .name text :: rest, place =>
    match place.step? tree text with
    | some next => find tree rest next
    | none => []
  | .wild tokens :: rest, place =>
    let special := (detours (.wild tokens)).filterMap (place.step? tree)
    let named := (place.children tree).filter fun next =>
      (next.location.getLast?.map (Component.wild tokens).matchesName).getD false
    if tree.isDirectory place.location then (special ++ named).flatMap (find tree rest) else []
  | [.anyDepth], place => (place.below tree).filter fun next => tree.isDirectory next.location
  | .anyDepth :: .anyDepth :: rest, place => find tree (.anyDepth :: rest) place
  | .anyDepth :: next :: rest, place =>
    ((place.below tree).filter fun found =>
      (found.location.getLast?.map next.matchesName).getD false).flatMap (find tree rest)
termination_by components => components.length

/-- The components of a pattern that starts at the root. A slash at the end begins none. -/
def components? (pattern : String) : Option (List Component) :=
  let names := (FileTree.names pattern).drop 1
  (if names.getLast? == some "" then names.dropLast else names).mapM component?

/-- The places that a pattern matches; none if it is no pattern. A slash at the end asks for directories. -/
def matches? (tree : FileTree) (pattern : String) : Option (List Place) :=
  (components? pattern).map fun components =>
    let places := find tree components ⟨[], []⟩
    if pattern.endsWith "/" then places.filter fun place => tree.isDirectory place.location else places

end DocComment.Glob
