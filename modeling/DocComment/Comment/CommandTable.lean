import DocComment.Comment.Command
import DocComment.Pattern.Match
import DocComment.Pattern.Parse

namespace DocComment.Comment

inductive PatternError where
  | unknownCommand (name : String)
  | invalidPattern (command : Command) (fault : Pattern.Fault)
  deriving Repr, DecidableEq

def PatternError.message : PatternError → String
  | .unknownCommand name => "unknown command '" ++ name ++ "' in pattern overrides"
  | .invalidPattern command _ => "invalid pattern for command '" ++ command.name ++ "'"

structure CommandPattern where
  command : Command
  /-- The pattern text of the token. -/
  source : String
  compiled : Pattern.Compiled

/-- The patterns of the commands, in the order of the commands. -/
structure CommandTable where
  patterns : List CommandPattern

namespace CommandTable

/-- A command is written as a backslash and its name. -/
def defaultSource (command : Command) : String :=
  String.ofList (Pattern.quote ('\\' :: command.name.toList))

def tokenGroup : String := "cmd"

/-- The pattern of a whole command line; the token is a group of its own. -/
def lineSource (token : String) : String :=
  "^(?P<" ++ tokenGroup ++ ">" ++ token ++ ")(?:\\s|$)"

def compileToken (command : Command) (source token : String)
    (properties : Pattern.Properties := fun _ => none) : Except PatternError CommandPattern :=
  match Pattern.compile (lineSource token).toList properties with
  | .ok compiled => .ok ⟨command, source, compiled⟩
  | .error fault => .error (.invalidPattern command fault)

/-- The sources after one override. A key that starts with a bar adds an alternative, any other key
replaces the source. -/
def overrideSource (sources : List (Command × String)) (key pattern : String) :
    Except PatternError (List (Command × String)) :=
  let (merge, name) := match key.toList with
    | '|' :: name => (true, String.ofList name)
    | _ => (false, key)
  match Command.ofName? name with
  | none => .error (.unknownCommand name)
  | some command => .ok <| sources.map fun (other, source) =>
    if other == command then (other, if merge then source ++ "|" ++ pattern else pattern)
    else (other, source)

def defaultSources : List (Command × String) :=
  Command.all.map fun command => (command, defaultSource command)

/-- Overrides apply in order on top of the defaults. -/
def withOverrides (overrides : List (String × String)) (properties : Pattern.Properties := fun _ => none) :
    Except PatternError CommandTable := do
  let sources ← overrides.foldlM (fun sources (key, pattern) => overrideSource sources key pattern)
    defaultSources
  let patterns ← sources.mapM fun (command, source) =>
    compileToken command source ("(?:" ++ source ++ ")") properties
  return ⟨patterns⟩

/-- The table without overrides. -/
def default : CommandTable :=
  ⟨defaultSources.filterMap fun (command, source) => (compileToken command source source).toOption⟩

def source? (table : CommandTable) (command : Command) : Option String :=
  (table.patterns.find? (·.command == command)).map (·.source)

/-- Where the token of a pattern ends in the content, if it is there and not empty. -/
def tokenEnd? (pattern : CommandPattern) (content : List Char) : Option Nat := do
  let (_, last) ← pattern.compiled.regex.search content
  let index ← pattern.compiled.names.lookup tokenGroup
  let (first, stop) ← last.group? index
  if first == stop then none else some stop

/-- The command at the start of a line's content and the number of characters of its token. The
longest token wins, and of equally long ones the last command. -/
def recognize? (table : CommandTable) (content : List Char) : Option (Command × Nat) :=
  table.patterns.foldl (fun best pattern =>
    match tokenEnd? pattern content with
    | none => best
    | some stop =>
      match best with
      | some (_, length) => if length ≤ stop then some (pattern.command, stop) else best
      | none => some (pattern.command, stop)) none

end CommandTable

end DocComment.Comment
