import DocComment.Template.Operator

namespace DocComment.Template

inductive Expr where
  | undefined
  | null
  | bool (value : Bool)
  | integer (value : Nat)
  | decimal (written : String)
  | string (written : String)
  /-- What the statement at hand hands on: the output of a block that a filter is applied to, or the block
  of a call. -/
  | captured
  | variable_ (name : String)
  | list (items : List Expr)
  | map (keys values : List Expr)
  | negate (operand : Expr)
  | not (operand : Expr)
  | binary (operator : BinaryOp) (left right : Expr)
  | choice (condition yes no : Expr)
  | attribute (container : Expr) (name : String)
  | item (container index : Expr)
  | slice (container start stop step : Expr)
  /-- A call of what a name stands for, with positional and keyword arguments. -/
  | callNamed (name : String) (arguments : List Expr) (names : List String) (named : List Expr)
  | callMember (container : Expr) (name : String) (arguments : List Expr) (names : List String)
      (named : List Expr)
  | callValue (function : Expr) (arguments : List Expr) (names : List String) (named : List Expr)
  /-- The output of a named block. -/
  | blockOutput (name : String)
  | filter (name : String) (subject : Expr) (arguments : List Expr) (names : List String)
      (named : List Expr)
  | test (name : String) (subject : Expr) (arguments : List Expr)
  deriving Repr, Inhabited

namespace Expr

/-- A call, by the form of what is called. -/
def callOf (function : Expr) (arguments : List Expr) (names : List String) (named : List Expr) : Expr :=
  match function with
  | .variable_ name => .callNamed name arguments names named
  | .attribute (.variable_ "self") name => .blockOutput name
  | .attribute container name => .callMember container name arguments names named
  | _ => .callValue function arguments names named

/-- A call with one more keyword argument; none for what is no call. -/
def withArgument? (call : Expr) (name : String) (value : Expr) : Option Expr :=
  match call with
  | .callNamed function arguments names named =>
    some (.callNamed function arguments (names ++ [name]) (named ++ [value]))
  | .callMember container function arguments names named =>
    some (.callMember container function arguments (names ++ [name]) (named ++ [value]))
  | .callValue function arguments names named =>
    some (.callValue function arguments (names ++ [name]) (named ++ [value]))
  | .blockOutput block => some (.blockOutput block)
  | _ => none

end Expr

/-- The variables that an assignment sets: one, or one for each member of a list. -/
inductive Target where
  | one (name : String)
  | many (names : List String)
  deriving Repr, DecidableEq, Inhabited

inductive Statement where
  | data (written : String)
  | value (shown : Expr)
  | branch (condition : Expr) (yes no : List Statement)
  /-- A recursive loop can be run again, for other members, from inside its body. -/
  | loop (target : Target) (items condition : Expr) (body otherwise : List Statement) (recursive : Bool)
  | assign (target : Target) (value : Expr)
  /-- Sets a variable to the output of a block; the value may filter the output. -/
  | capture (name : String) (value : Expr) (body : List Statement)
  /-- Variables for a block only. -/
  | scope (targets : List Target) (values : List Expr) (body : List Statement)
  /-- Shows the output of a block through a filter. -/
  | filtered (value : Expr) (body : List Statement)
  /-- A block for which the output of blocks inside counts as safe, or does not. -/
  | autoescape (mode : Expr) (body : List Statement)
  | block (name : String) (body : List Statement)
  | perform (call : Expr)
  /-- Names a block with parameters. The last of them may have default values. The flag tells whether the
  body asks for the block of a call. -/
  | define (name : String) (parameters : List String) (defaults : List Expr) (asks : Bool)
      (body : List Statement)
  /-- Shows a call that is given a block with parameters. -/
  | callWith (parameters : List String) (defaults : List Expr) (asks : Bool) (call : Expr)
      (body : List Statement)
  /-- Shows another template, or the first there is of several. -/
  | inclusion (name : Expr) (optional : Bool)
  /-- Sets variables to a value made from another template. -/
  | imported (name : Expr) (target : Target) (value : Expr)
  | extension (name : Expr)
  deriving Repr, Inhabited

mutual

/-- The named blocks of a statement, outer ones first. There are none in blocks with parameters. -/
def Statement.blocks : Statement → List (String × List Statement)
  | .block name body => (name, body) :: blocksAll body
  | .branch _ yes no => blocksAll yes ++ blocksAll no
  | .loop _ _ _ body otherwise _ => blocksAll body ++ blocksAll otherwise
  | .capture _ _ body | .scope _ _ body | .filtered _ body | .autoescape _ body => blocksAll body
  | _ => []

def Statement.blocksAll : List Statement → List (String × List Statement)
  | [] => []
  | statement :: rest => blocks statement ++ blocksAll rest

end

end DocComment.Template
