import DocComment.Text.Basic

namespace DocComment

/-- A relative path as it was spelled. -/
structure RelativePath where
  spelling : String
  deriving Repr, DecidableEq, Inhabited

namespace RelativePath

/-- The names between slashes; empty names do not count, `.` and `..` do. -/
def components (path : RelativePath) : List String :=
  ((Text.splitBy (· == '/') path.spelling.toList).filter (! ·.isEmpty)).map String.ofList

/-- The spelling with one slash between components; paths with equal components share it. -/
def normal (path : RelativePath) : RelativePath :=
  ⟨String.intercalate "/" path.components⟩

/-- The last name without its extension. A point at the start of a name begins none. -/
def stem (path : RelativePath) : String :=
  match path.components.getLast? with
  | none => ""
  | some name =>
    let upToPoint := Text.dropEndWhile (· != '.') name.toList
    if name == "." || name == ".." then ""
    else if upToPoint.length ≤ 1 then name
    else String.ofList upToPoint.dropLast

end RelativePath

end DocComment
