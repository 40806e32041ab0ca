namespace DocComment

inductive Severity where
  | error
  | warning
  deriving Repr, DecidableEq

def Severity.name : Severity → String
  | .error => "error"
  | .warning => "warn"

structure LogEntry where
  severity : Severity
  text : String
  deriving Repr, DecidableEq

/-- The line that the log shows. -/
def LogEntry.line (entry : LogEntry) : String :=
  entry.severity.name ++ ": " ++ entry.text

/-- What a task reports while it runs. -/
inductive Notice where
  /-- A warning that counts. -/
  | warning (text : String)
  /-- A line of the log that does not count. -/
  | remark (text : String)
  deriving Repr, DecidableEq

/-- Counts of errors and warnings, and the log in the order of its entries. -/
structure Diagnostics where
  errors : Nat := 0
  warnings : Nat := 0
  /-- Every warning counts as an error. -/
  warningsAsErrors : Bool := false
  log : List LogEntry := []
  deriving Repr, DecidableEq

namespace Diagnostics

def write (entry : LogEntry) (diagnostics : Diagnostics) : Diagnostics :=
  { diagnostics with log := diagnostics.log ++ [entry] }

def error (text : String) (diagnostics : Diagnostics) : Diagnostics :=
  { diagnostics.write ⟨.error, text⟩ with errors := diagnostics.errors + 1 }

def warning (text : String) (diagnostics : Diagnostics) : Diagnostics :=
  if diagnostics.warningsAsErrors then diagnostics.error text
  else { diagnostics.write ⟨.warning, text⟩ with warnings := diagnostics.warnings + 1 }

def notice (diagnostics : Diagnostics) : Notice → Diagnostics
  | .warning text => diagnostics.warning text
  | .remark text => diagnostics.write ⟨.warning, text⟩

def noticeAll (notices : List Notice) (diagnostics : Diagnostics) : Diagnostics :=
  notices.foldl notice diagnostics

/-- Whether the run as a whole failed: it did once there was an error. -/
def hasFailed (diagnostics : Diagnostics) : Bool :=
  0 < diagnostics.errors

/-- Whether two sinks have the same counts, and the same log up to the order of its entries. -/
structure Agrees (left right : Diagnostics) : Prop where
  errors : left.errors = right.errors
  warnings : left.warnings = right.warnings
  warningsAsErrors : left.warningsAsErrors = right.warningsAsErrors
  log : left.log.Perm right.log

/-- The counters with an empty log. -/
def clearLog (diagnostics : Diagnostics) : Diagnostics :=
  { diagnostics with log := [] }

end Diagnostics

end DocComment
