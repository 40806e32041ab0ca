import DocComment.Collect
import DocComment.Config.Basic
import DocComment.Config.Read
import DocComment.Config.Write
import DocComment.Glob.Basic

namespace DocComment

/-- Files, and the directory of the user. -/
structure Workspace where
  tree : FileTree := {}
  home : String
  deriving Repr, DecidableEq

namespace Workspace

/-- A tilde at the start of a path stands for the directory of the user. -/
def expand (workspace : Workspace) (path : String) : String :=
  match path.toList with
  | '~' :: rest =>
    if rest.isEmpty || rest.head? == some '/' then workspace.home ++ String.ofList rest else path
  | _ => path

/-- Where the configuration of the user is. -/
def configPath (workspace : Workspace) : String :=
  workspace.expand "~/.config/commentary/config.toml"

/-- The configuration in a file, if the file is there. -/
def loadConfig (workspace : Workspace) (path : String) : Except ConfigError (Option Config) :=
  match workspace.tree.locate? path with
  | none => .ok none
  | some location =>
    match workspace.tree.text? location with
    | none => .error (.unreadable path)
    | some text =>
      match Config.read? text with
      | none => .error .malformed
      | some config => .ok (some config)

/-- Writes a configuration. Missing directories are made first and stay if the writing fails. -/
def saveConfig (workspace : Workspace) (config : Config) (path : String) :
    Workspace × Except ConfigError Unit :=
  match workspace.tree.makeDirectories? (FileTree.steps path).dropLast with
  | none => (workspace, .error (.unsaved path))
  | some tree =>
    match config.write?.bind fun text => tree.writeFile? path (Text.utf8Bytes text) with
    | none => ({ workspace with tree }, .error (.unsaved path))
    | some tree => ({ workspace with tree }, .ok ())

/-- The path of a place below a root, or none if it is not spelled that way. -/
def relativePath? (root : String) (place : Glob.Place) : Option RelativePath :=
  let steps := place.spelled.filter (! FileTree.isStay ·)
  let rootSteps := FileTree.steps root
  if rootSteps.isPrefixOf steps then
    some ⟨String.intercalate "/" (steps.drop rootSteps.length)⟩
  else none

/-- Adds the document at a place. A file outside the root is passed over, and so is one that is
there already; neither keeps its text from being read. -/
def addDocument (workspace : Workspace) (root : String) (documents : List DocumentSource)
    (place : Glob.Place) : Except ConfigError (List DocumentSource) :=
  match workspace.tree.text? place.location with
  | none => .error (.unreadableDocument (String.intercalate "/" place.location))
  | some text =>
    match relativePath? root place with
    | none => .ok documents
    | some path =>
      if documents.any fun document => document.path.components == path.components then .ok documents
      else .ok (documents ++ [⟨path.stem, path, text⟩])

/-- The documents of a configuration, in the order of its patterns and by name for each. -/
def documents (workspace : Workspace) (config : Config) (root : String) :
    Except ConfigError (List DocumentSource) :=
  config.documents.foldlM (fun found pattern =>
    match Glob.matches? workspace.tree (FileTree.joinPaths root (workspace.expand pattern)) with
    | none => .error (.documentPattern pattern)
    | some places =>
      (places.filter fun place => !workspace.tree.isDirectory place.location).foldlM
        (workspace.addDocument root) found) []

end Workspace

end DocComment
