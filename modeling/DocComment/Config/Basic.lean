import DocComment.Comment.CommandTable
import DocComment.TextMap

namespace DocComment

inductive ConfigError where
  /-- The file is there and is no text. -/
  | unreadable (path : String)
  /-- The text is no configuration. -/
  | malformed
  | commandPattern (cause : Comment.PatternError)
  /-- A pattern of the exclusion is none. -/
  | exclude (fault : Pattern.Fault)
  | documentPattern (pattern : String)
  | unreadableDocument (path : String)
  /-- The file cannot be written, or the configuration has no written form. -/
  | unsaved (path : String)
  deriving Repr, DecidableEq

structure CommentSettings where
  /-- A loose comment without a file command belongs to the module of its file. -/
  freeFileBinding : Bool := false
  deriving Repr, DecidableEq

/-- Templates of headings; one that is not set is the default one. -/
structure HeadingSettings where
  declaration : Option String := none
  moduleDoc : Option String := none
  group : Option String := none
  document : Option String := none
  deriving Repr, DecidableEq

/-- Templates of link texts; one that is not set is the default one. -/
structure LinkSettings where
  declaration : Option String := none
  moduleDoc : Option String := none
  inventory : Option String := none
  uri : Option String := none
  unresolved : Option String := none
  deriving Repr, DecidableEq

structure TemplateSettings where
  heading : HeadingSettings := {}
  link : LinkSettings := {}
  deriving Repr, DecidableEq

structure FilterSettings where
  /-- Patterns for qualified names and names of modules. -/
  exclude : List String := []
  excludePrivate : Bool := true
  excludeUncommented : Bool := false
  deriving Repr, DecidableEq

structure InventorySettings where
  project : String := ""
  version : String := ""
  baseUrl : String := ""
  entries : TextMap := .empty
  deriving Repr, DecidableEq

structure DiagnosticsSettings where
  warningsAsErrors : Bool := false
  deriving Repr, DecidableEq

structure PoolSettings where
  /-- Number of workers; zero leaves the choice to the machine. -/
  threads : Nat := 0
  /-- Every job runs at once where it is made. -/
  synchronous : Bool := false
  deriving Repr, DecidableEq

structure Config where
  /-- Patterns for paths of freestanding documents. -/
  documents : List String := []
  comment : CommentSettings := {}
  /-- Patterns of commands by name. A name after a bar adds to the default pattern. -/
  commands : TextMap := .empty
  templates : TemplateSettings := {}
  filter : FilterSettings := {}
  inventories : List InventorySettings := []
  diagnostics : DiagnosticsSettings := {}
  pool : PoolSettings := {}
  deriving Repr, DecidableEq

end DocComment
