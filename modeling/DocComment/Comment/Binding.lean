import DocComment.Comment.Command
import DocComment.Comment.Segment

namespace DocComment.Comment

inductive CommentError where
  | alreadyBound (command : SpecialCommand) (bound : String) (line : Nat)
  | unresolvedEntity (name : String) (line : Nat)
  | unresolvedSubEntity (entity : String) (command : InlineCommand) (name : String) (line : Nat)
  | noEnclosingFile (line : Nat)
  | unbound
  | duplicateField (entity : String) (command : SpecialCommand) (old new : String)
  | duplicateSubEntity (entity : String) (command : InlineCommand) (name : String)
  | conflictingGroup (entity : String) (command : SpecialCommand) (existing : String)
  | inlineOnModule (moduleName : String) (command : InlineCommand) (name : String)
  /-- A command reached the assembly that should not have. -/
  | structure_ (entity : String) (problem : String)
  deriving Repr, DecidableEq

namespace CommentError

def message : CommentError → String
  | .alreadyBound command bound line =>
    "'\\" ++ command.name ++ "' on line " ++ toString line ++ ": comment is already bound to " ++ bound
  | .unresolvedEntity name line =>
    "'\\entity " ++ name ++ "' on line " ++ toString line ++ ": no such entity"
  | .unresolvedSubEntity entity command name line =>
    "'\\" ++ command.name ++ " " ++ name ++ "' on line " ++ toString line ++ ": " ++ entity ++
      " has no such sub-entity"
  | .noEnclosingFile line => "'\\file' on line " ++ toString line ++ ": comment has no enclosing file"
  | .unbound => "comment is not bound to any entity"
  | .duplicateField entity command old new =>
    entity ++ ": '\\" ++ command.name ++ "' sets '" ++ new ++ "' but it is already '" ++ old ++ "'"
  | .duplicateSubEntity entity command name =>
    entity ++ ": '\\" ++ command.name ++ " " ++ name ++ "' documents the same sub-entity twice"
  | .conflictingGroup entity command existing =>
    entity ++ ": '\\" ++ command.name ++ "' conflicts with group/output section '" ++ existing ++ "'"
  | .inlineOnModule moduleName command name =>
    "module '" ++ moduleName ++ "': '\\" ++ command.name ++ " " ++ name ++ "' needs a declaration"
  | .structure_ entity problem => entity ++ ": " ++ problem

end CommentError

inductive Binding where
  | declaration (id : DeclId)
  | moduleName (name : String)
  deriving Repr, DecidableEq

/-- The name of the bound thing in messages. -/
def Binding.describe (source : SourceTree) : Binding → String
  | .declaration id =>
    String.ofList (Unicode.lower (source.kind id).label.toList) ++ " '" ++ source.qualifiedName id ++ "'"
  | .moduleName name => "module '" ++ name ++ "'"

/-- Where a comment was found. -/
structure Site where
  file : Option DeclId := none
  /-- The declaration that the comment stands at. -/
  attached : Option DeclId := none
  deriving Repr, DecidableEq

namespace Site

def atDeclaration (source : SourceTree) (id : DeclId) : Site :=
  ⟨source.enclosingFile? id, some id⟩

def inFile (file : DeclId) : Site :=
  ⟨some file, none⟩

end Site

/-- The target of a binding command; none for any other node. -/
def bindingTarget (resolve : String → Option DeclId) (site : Site) :
    Node → Option (SpecialCommand × Nat × Except CommentError Binding)
  | .special .file _ line =>
    some (.file, line, match site.file with
      | some file => .ok (.declaration file)
      | none => .error (.noEnclosingFile line))
  | .special .entity arguments line =>
    let name := arguments.head?.getD ""
    some (.entity, line, match resolve name with
      | some id => .ok (.declaration id)
      | none => .error (.unresolvedEntity name line))
  | _ => none

/-- Binds by the commands that name a file or an entity. The nodes without the command that bound
the comment are left; a second one is an error. -/
def bindByCommand (resolve : String → Option DeclId) (source : SourceTree) (site : Site) :
    Option Binding → List Node → Except CommentError (Option Binding × List Node)
  | bound, [] => .ok (bound, [])
  | bound, node :: rest =>
    match bindingTarget resolve site node with
    | none => do
      let (binding, left) ← bindByCommand resolve source site bound rest
      return (binding, node :: left)
    | some (command, line, target) => do
      let target ← target
      match bound with
      | some existing => .error (.alreadyBound command (existing.describe source) line)
      | none => bindByCommand resolve source site (some target) rest

/-- The module that the first module command names, and the nodes without that command. -/
def bindByModule : List Node → Option (String × List Node)
  | [] => none
  | .special .moduleName (name :: _) _ :: rest => some (name, rest)
  | node :: rest => (bindByModule rest).map fun (name, left) => (name, node :: left)

/-- Binds a comment: to the declaration it stands at, to the file or entity it names, to the module
it names, or, if wanted, to its file. -/
def bind (resolve : String → Option DeclId) (source : SourceTree) (freeFileBinding : Bool) (site : Site)
    (nodes : List Node) : Except CommentError (Binding × List Node) := do
  let (bound, left) ← bindByCommand resolve source site (site.attached.map .declaration) nodes
  match bound with
  | some binding => return (binding, left)
  | none =>
    match bindByModule left with
    | some (name, rest) => return (.moduleName name, rest)
    | none =>
      match site.file with
      | some file => if freeFileBinding then return (.declaration file, left) else .error .unbound
      | none => .error .unbound

end DocComment.Comment
