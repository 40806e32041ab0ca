import DocComment.Json.Basic
import DocComment.Text.Basic
import DocComment.Text.Decimal

namespace DocComment.Template

/-- Why a template cannot be rendered. -/
inductive Fault where
  /-- The template is not well formed. -/
  | malformed (problem : String)
  /-- A section function was called with a name that is none of a section. -/
  | unknownSection (name : String)
  /-- An expression has no value. -/
  | failed (problem : String)
  deriving Repr, DecidableEq

def Fault.message : Fault → String
  | .malformed problem | .failed problem => problem
  | .unknownSection name => "unknown section kind '" ++ name ++ "'"

/-- The functions by which a template reaches the sections of an entity. -/
inductive PartFunction where
  /-- Gives the markup of a section. -/
  | fetch
  /-- Takes a section away once the template is rendered. -/
  | drop
  deriving Repr, DecidableEq

/-- What templates can call. -/
inductive Callable where
  | part (function : PartFunction)
  | range
  | dict
  /-- A block with parameters, and its number among all such blocks. -/
  | block (name : String) (number : Nat)
  deriving Repr, DecidableEq

namespace Callable

def rank : Callable → Nat
  | .part .fetch => 0
  | .part .drop => 1
  | .range => 2
  | .dict => 3
  | .block _ number => number + 4

def written : Callable → String
  | .part .fetch => "<function section>"
  | .part .drop => "<function drop>"
  | .range => "<function range>"
  | .dict => "<function dict>"
  | .block name _ => "<macro " ++ name ++ ">"

end Callable

inductive Value where
  | undefined
  | null
  | bool (value : Bool)
  | integer (value : Int)
  | decimal (value : Float)
  /-- Safe text is written as it is, other text is escaped. -/
  | text (written : String) (safe : Bool)
  | list (items : List Value)
  /-- Entries are in the order of their keys. -/
  | map (entries : List (Value × Value))
  | callable (function : Callable)
  deriving Repr, Inhabited

namespace Value

def ofString (written : String) : Value :=
  .text written false

def ofNat (n : Nat) : Value :=
  .integer n

def isUndefined : Value → Bool
  | .undefined => true
  | _ => false

def isText : Value → Bool
  | .text .. => true
  | _ => false

/-- What counts as true in a condition. -/
def isTrue : Value → Bool
  | .undefined | .null => false
  | .bool value => value
  | .integer value => value != 0
  | .decimal value => value != 0
  | .text written _ => !written.isEmpty
  | .list items => !items.isEmpty
  | .map entries => !entries.isEmpty
  | .callable _ => true

/-- Kinds in the order in which values of different kinds compare. -/
def kindRank : Value → Nat
  | .undefined => 0
  | .null => 1
  | .bool _ => 2
  | .integer _ | .decimal _ => 3
  | .text .. => 4
  | .list _ => 5
  | .map _ => 6
  | .callable _ => 7

/-- The whole number of a value that counts as one. -/
def asInt? : Value → Option Int
  | .bool value => some (if value then 1 else 0)
  | .integer value => some value
  | .decimal value =>
    if value.floor == value && value.abs < 9.0e18 then some value.toInt64.toInt else none
  | _ => none

def asFloat? : Value → Option Float
  | .bool value => some (if value then 1 else 0)
  | .integer value => some (Float.ofInt value)
  | .decimal value => some value
  | _ => none

/-- Two numbers brought to one kind. -/
inductive Numbers where
  | integers (left right : Int)
  | decimals (left right : Float)

/-- A decimal on either side makes both decimals. -/
def numbers? (left right : Value) : Option Numbers :=
  match left, right with
  | .decimal a, other => (asFloat? other).map fun b => .decimals a b
  | other, .decimal b => (asFloat? other).map fun a => .decimals a b
  | _, _ => (asInt? left).bind fun a => (asInt? right).map fun b => .integers a b

def sameNumber (left right : Value) : Bool :=
  match numbers? left right with
  | some (.integers a b) => a == b
  | some (.decimals a b) => a == b
  | none => false

mutual

def equal : Value → Value → Bool
  | .undefined, .undefined | .null, .null => true
  | .text a _, .text b _ => a == b
  | .list a, .list b => equalAll a b
  | .map a, .map b => equalEntries a b
  | .callable a, .callable b => a == b
  | a, b => sameNumber a b

def equalAll : List Value → List Value → Bool
  | [], [] => true
  | a :: left, b :: right => equal a b && equalAll left right
  | _, _ => false

def equalEntries : List (Value × Value) → List (Value × Value) → Bool
  | [], [] => true
  | (key, value) :: left, (otherKey, otherValue) :: right =>
    equal key otherKey && equal value otherValue && equalEntries left right
  | _, _ => false

end

def compareNumbers (left right : Value) : Ordering :=
  match numbers? left right with
  | some (.integers a b) => compare a b
  | some (.decimals a b) => if a < b then .lt else if b < a then .gt else .eq
  | none => .eq

mutual

/-- Values of different kinds compare by kind. -/
def order : Value → Value → Ordering
  | .text a _, .text b _ => compare a b
  | .list a, .list b => orderAll a b
  | .map a, .map b => orderEntries a b
  | .callable a, .callable b => compare a.rank b.rank
  | a, b => (compare a.kindRank b.kindRank).then (compareNumbers a b)

def orderAll : List Value → List Value → Ordering
  | [], [] => .eq
  | [], _ :: _ => .lt
  | _ :: _, [] => .gt
  | a :: left, b :: right => (order a b).then (orderAll left right)

def orderEntries : List (Value × Value) → List (Value × Value) → Ordering
  | [], [] => .eq
  | [], _ :: _ => .lt
  | _ :: _, [] => .gt
  | (key, value) :: left, (otherKey, otherValue) :: right =>
    ((order key otherKey).then (order value otherValue)).then (orderEntries left right)

end

/-- Puts an entry in its place; a later entry for a key replaces the earlier one. -/
def insertEntry (key value : Value) : List (Value × Value) → List (Value × Value)
  | [] => [(key, value)]
  | (other, present) :: rest =>
    match order key other with
    | .lt => (key, value) :: (other, present) :: rest
    | .eq => (key, value) :: rest
    | .gt => (other, present) :: insertEntry key value rest

def ofEntries (entries : List (Value × Value)) : Value :=
  .map (entries.foldl (fun sorted (key, value) => insertEntry key value sorted) [])

mutual

def ofJson : Json → Value
  | .null => .null
  | .bool value => .bool value
  | .integer value => .integer value
  | .decimal written => .decimal (Text.decimalNumber written.toList)
  | .string written => ofString written
  | .array items => .list (ofJsonItems items)
  | .object members => ofEntries (ofJsonMembers members)

def ofJsonItems : List Json → List Value
  | [] => []
  | item :: rest => ofJson item :: ofJsonItems rest

def ofJsonMembers : List (String × Json) → List (Value × Value)
  | [] => []
  | (name, value) :: rest => (ofString name, ofJson value) :: ofJsonMembers rest

end

/-- Text in quotes, as it shows inside a list. -/
def quoted (written : String) : List Char :=
  let chars := written.toList
  let quote := if chars.contains '\x27' && !chars.contains '"' then '"' else '\x27'
  let escaped := chars.flatMap fun c =>
    if c == quote || c == '\\' then ['\\', c]
    else if c == '\n' then ['\\', 'n']
    else if c == '\r' then ['\\', 'r']
    else if c == '\t' then ['\\', 't']
    else [c]
  quote :: escaped ++ [quote]

mutual

/-- The form of a value inside a list or map. -/
def inner : Value → List Char
  | .undefined => "Undefined".toList
  | .null => "None".toList
  | .bool value => if value then "True".toList else "False".toList
  | .integer value => (toString value).toList
  | .decimal value => (Text.decimalText value).toList
  | .text written _ => quoted written
  | .list items => '[' :: innerItems items ++ [']']
  | .map entries => '\x7b' :: innerEntries entries ++ ['\x7d']
  | .callable function => function.written.toList

def innerItems : List Value → List Char
  | [] => []
  | [item] => inner item
  | item :: rest => inner item ++ ", ".toList ++ innerItems rest

def innerEntries : List (Value × Value) → List Char
  | [] => []
  | [(key, value)] => inner key ++ ": ".toList ++ inner value
  | (key, value) :: rest => inner key ++ ": ".toList ++ inner value ++ ", ".toList ++ innerEntries rest

end

/-- The text of a value. -/
def display : Value → String
  | .undefined => ""
  | .text written _ => written
  | other => String.ofList other.inner

/-- The members that a loop goes through; none for what is no collection. -/
def items? : Value → Option (List Value)
  | .undefined | .null => some []
  | .text written _ => some (written.toList.map fun c => ofString (String.singleton c))
  | .list items => some items
  | .map entries => some (entries.map (·.1))
  | _ => none

def length? : Value → Option Nat
  | .text written _ => some written.length
  | .list items => some items.length
  | .map entries => some entries.length
  | _ => none

/-- The position that an index names; a negative one counts from the end. -/
def position? (index : Value) (length : Nat) : Option Nat :=
  index.asInt?.bind fun i =>
    if 0 ≤ i then some i.toNat
    else if i.natAbs ≤ length then some (length - i.natAbs)
    else none

/-- The member at an index or key. -/
def member? (container index : Value) : Option Value :=
  match container with
  | .list items => (index.position? items.length).bind fun i => items[i]?
  | .text written _ =>
    (index.position? written.length).bind fun i =>
      written.toList[i]?.map fun c => ofString (String.singleton c)
  | .map entries => (entries.find? fun (key, _) => key.equal index).map (·.2)
  | _ => none

def attribute? (container : Value) (name : String) : Option Value :=
  match container with
  | .map _ => container.member? (ofString name)
  | _ => none

end Value

end DocComment.Template
