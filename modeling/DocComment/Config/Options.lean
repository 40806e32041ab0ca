import DocComment.Config.Basic
import DocComment.Session

namespace DocComment.Config

/-- The patterns of the commands; overrides apply in the order of their keys. -/
def commandTable (config : Config) (properties : Pattern.Properties := fun _ => none) :
    Except ConfigError Comment.CommandTable :=
  (Comment.CommandTable.withOverrides config.commands.entries properties).mapError .commandPattern

/-- The options of the exclusion. The first pattern that is none is the error. -/
def exclusionOptions (config : Config) (properties : Pattern.Properties := fun _ => none) :
    Except ConfigError ExclusionOptions := do
  let compiled ← config.filter.exclude.mapM fun pattern =>
    (Pattern.compile pattern.toList properties).mapError ConfigError.exclude
  return ⟨compiled.map (·.regex), config.filter.excludePrivate, config.filter.excludeUncommented⟩

def headingTemplates (settings : HeadingSettings) : HeadingTemplates :=
  let default : HeadingTemplates := {}
  { declaration := settings.declaration.getD default.declaration
    moduleDoc := settings.moduleDoc.getD default.moduleDoc
    group := settings.group.getD default.group
    document := settings.document.getD default.document }

def linkTemplates (settings : LinkSettings) : LinkTemplates :=
  let default : LinkTemplates := {}
  { declaration := settings.declaration.getD default.declaration
    moduleDoc := settings.moduleDoc.getD default.moduleDoc
    inventory := settings.inventory.getD default.inventory
    uri := settings.uri.getD default.uri
    unresolved := settings.unresolved.getD default.unresolved }

def templateOptions (config : Config) : Templates :=
  ⟨headingTemplates config.templates.heading, linkTemplates config.templates.link⟩

def inventoryList (config : Config) : List Inventory :=
  config.inventories.map fun settings =>
    ⟨settings.project, settings.version, settings.baseUrl, settings.entries.entries⟩

def sink (config : Config) : Diagnostics :=
  { warningsAsErrors := config.diagnostics.warningsAsErrors }

/-- The pool of a run. `available` is the number of workers that the machine would choose. -/
def workers (config : Config) (available : Nat) : Pool :=
  if config.pool.synchronous then .synchronous
  else .threaded (if config.pool.threads == 0 then available else config.pool.threads)

/-- A new session. Patterns of commands are checked before those of the exclusion. -/
def session (config : Config) (source : SourceTree) (available : Nat)
    (properties : Pattern.Properties := fun _ => none) : Except ConfigError Session := do
  let table ← config.commandTable properties
  let exclusion ← config.exclusionOptions properties
  return {
    source
    compiler := ⟨Markup.read, table, config.comment.freeFileBinding⟩
    options := ⟨exclusion, config.templateOptions, config.inventoryList⟩
    pool := config.workers available
    diagnostics := config.sink }

end DocComment.Config
