import DocComment.Comment.Compile
import DocComment.Entity.Index
import DocComment.Pool.Schedule

/-! Building the index from the comments of a source tree and from documents. Entities are inserted
in the order of submission; one that is refused is recorded and left out. -/
namespace DocComment

/-- A freestanding document. -/
structure DocumentSource where
  name : String
  path : RelativePath
  text : String
  deriving Repr, DecidableEq

namespace Collect

/-- A comment with its label and its site. -/
structure Item where
  label : String
  site : Comment.Site
  text : String

def attachedItems (source : SourceTree) : List Item :=
  source.ids.filterMap fun id =>
    (source.comment? id).map fun text =>
      ⟨(Comment.Binding.declaration id).describe source, .atDeclaration source id, text⟩

def freeItems (source : SourceTree) : List Item :=
  source.freeComments.map fun (file, text) =>
    ⟨"free comment in '" ++ source.name file ++ "'", .inFile file, text⟩

/-- Comments at declarations, in the order of these, then the free ones. -/
def items (source : SourceTree) : List Item :=
  attachedItems source ++ freeItems source

def commentTask (compiler : Comment.Compiler) (source : SourceTree) (item : Item) : WorkItem Entity :=
  ⟨item.label,
    { ending := match compiler.compile source.lookup? source item.site item.text with
        | .ok entity => .returned entity
        | .error problem => .failed [problem.message] }⟩

def documentTask (compiler : Comment.Compiler) (document : DocumentSource) : WorkItem Entity :=
  ⟨"document '" ++ document.path.spelling ++ "'",
    { ending := .returned (compiler.document document.name document.path document.text) }⟩

/-- Inserts entities one by one. -/
def insertAll : Index → Diagnostics → List Entity → Index × Diagnostics
  | index, diagnostics, [] => (index, diagnostics)
  | index, diagnostics, entity :: rest =>
    match index.insert entity with
    | (grown, none) => insertAll grown diagnostics rest
    | (index, some problem) => insertAll index (diagnostics.error problem.message) rest

/-- The index of all comments of a source tree, the tasks run in the given order. -/
def sourceInOrder (compiler : Comment.Compiler) (source : SourceTree) (pool : Pool) (order : List Nat)
    (diagnostics : Diagnostics) : Index × Diagnostics :=
  let (compiled, after) :=
    Batch.mapInOrder pool order diagnostics ((items source).map (commentTask compiler source))
  insertAll {} after (compiled.filterMap id)

def source (compiler : Comment.Compiler) (tree : SourceTree) (pool : Pool) (diagnostics : Diagnostics) :
    Index × Diagnostics :=
  sourceInOrder compiler tree pool (List.range (items tree).length) diagnostics

/-- The index with documents added. -/
def documents (compiler : Comment.Compiler) (sources : List DocumentSource) (pool : Pool) (index : Index)
    (diagnostics : Diagnostics) : Index × Diagnostics :=
  let (compiled, after) := Batch.mapEach pool diagnostics (sources.map (documentTask compiler))
  insertAll index after (compiled.filterMap id)

/-- The indexes that the comments of a source tree can give, the pools being what each task finds. -/
def SourceTo (compiler : Comment.Compiler) (tree : SourceTree) (pools : Nat → Pool)
    (diagnostics : Diagnostics) (index : Index) (after : Diagnostics) : Prop :=
  ∃ compiled log,
    Batch.MapsTo pools diagnostics ((items tree).map (commentTask compiler tree)) compiled log ∧
    insertAll {} log (compiled.filterMap id) = (index, after)

/-- The indexes that documents added to an index can give. -/
def DocumentsTo (compiler : Comment.Compiler) (sources : List DocumentSource) (pools : Nat → Pool)
    (index : Index) (diagnostics : Diagnostics) (grown : Index) (after : Diagnostics) : Prop :=
  ∃ compiled log,
    Batch.MapsTo pools diagnostics (sources.map (documentTask compiler)) compiled log ∧
    insertAll index log (compiled.filterMap id) = (grown, after)

end Collect

end DocComment
