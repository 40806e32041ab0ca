namespace DocComment.Toml

inductive Value where
  | string (text : String)
  | integer (number : Int)
  /-- A number with a fraction or an exponent, as written and without underscores. -/
  | float (written : String)
  | boolean (flag : Bool)
  /-- A date, a time of day, or both. -/
  | moment (written : String)
  | array (items : List Value)
  | table (members : List (String × Value))
  deriving Repr, Inhabited

/-- The members of a table. No name occurs twice. -/
abbrev Table := List (String × Value)

/-- The name under which a moment is seen where a table is asked for. -/
def momentName : String := "$__toml_private_datetime"

/-- The members that a value offers where a table is asked for. A moment offers its text. -/
def Value.members? : Value → Option Table
  | .table members => some members
  | .moment written => some [(momentName, .string written)]
  | _ => none

/-- What one statement of a TOML text says. -/
inductive Statement where
  /-- The table of the statements that follow. -/
  | header (path : List String)
  /-- A new last element of an array of tables, for the statements that follow. -/
  | elementHeader (path : List String)
  | assign (path : List String) (value : Value)
  deriving Repr, Inhabited

def isBlank (c : Char) : Bool :=
  c == ' ' || c == '\t'

/-- Control characters other than the tab; none stands in a text or a comment as it is. -/
def isControl (c : Char) : Bool :=
  (c.toNat < 32 && c != '\t') || c.toNat == 127

/-- The characters of a key that needs no quotes. -/
def isBareKeyChar (c : Char) : Bool :=
  c.isAlphanum || c == '-' || c == '_'

end DocComment.Toml
