import DocComment.Comment.Assembly

namespace DocComment.Comment

/-- How comments are compiled. -/
structure Compiler where
  /-- Reads markup. -/
  read : String → List Entity
  table : CommandTable
  /-- Bind comments that name nothing to their file. -/
  freeFileBinding : Bool := false

namespace Compiler

/-- The documentation that a comment gives. -/
def compile (compiler : Compiler) (resolve : String → Option DeclId) (source : SourceTree) (site : Site)
    (text : String) : Except CommentError Entity := do
  let nodes := segment compiler.read compiler.table text
  let (binding, left) ← bind resolve source compiler.freeFileBinding site nodes
  assemble source binding left

/-- A freestanding document. Commands mean nothing in it. -/
def document (compiler : Compiler) (name : String) (path : RelativePath) (text : String) : Entity :=
  .node (.document name path "") (compiler.read text)

end Compiler

end DocComment.Comment
