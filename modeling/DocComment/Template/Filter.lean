import DocComment.Template.Operator
import DocComment.Unicode.Case
import DocComment.Unicode.Punctuation

namespace DocComment.Template

/-- Keyword arguments of a call. -/
abbrev Named := List (String × Value)

abbrev Filter := Value → List Value → Named → Except Fault Value

namespace Filter

private def failed (problem : String) : Except Fault α :=
  .error (.failed problem)

/-- A filter without arguments. -/
private def plain (apply : Value → Except Fault Value) : Filter := fun subject arguments named =>
  if arguments.isEmpty && named.isEmpty then apply subject else failed "too many arguments"

private def onText (change : List Char → List Char) : Filter :=
  plain fun subject => .ok (.ofString (String.ofList (change subject.display.toList)))

/-- Capital letters at the start of words, small ones inside. -/
def titled (inWord : Bool) : List Char → List Char
  | [] => []
  | c :: rest =>
    if Unicode.isAsciiPunctuation c || Unicode.isWhite c then c :: titled false rest
    else (if inWord then Unicode.lowerChar c else Unicode.upperChar c) ++ titled true rest

def capitalized : List Char → List Char
  | [] => []
  | c :: rest => Unicode.upperChar c ++ Unicode.lower rest

/-- Replaces every occurrence from the left on. An empty pattern occurs around every character. -/
def replaced (pattern replacement : List Char) : Nat → List Char → List Char
  | 0, text => text
  | fuel + 1, text =>
    match pattern, text with
    | [], [] => replacement
    | [], c :: rest => replacement ++ c :: replaced pattern replacement fuel rest
    | _ :: _, [] => []
    | _ :: _, c :: rest =>
      match Text.stripStart pattern (c :: rest) with
      | some after => replacement ++ replaced pattern replacement fuel after
      | none => c :: replaced pattern replacement fuel rest

private def replaceFilter : Filter := fun subject arguments named =>
  match arguments, named with
  | [pattern, replacement], [] =>
    let text := subject.display.toList
    .ok (.ofString (String.ofList
      (replaced pattern.display.toList replacement.display.toList (text.length + 1) text)))
  | _, _ => failed "replace needs two arguments"

private def members (subject : Value) : Except Fault (List Value) :=
  match subject.items? with
  | some items => .ok items
  | none => failed "value is not iterable"

/-- Texts joined; what comes before the first text that is not empty has no joiner after it. -/
def joined (joiner : String) (items : List Value) : String :=
  items.foldl (fun out item => (if out.isEmpty then out else out ++ joiner) ++ item.display) ""

private def joinFilter : Filter := fun subject arguments named => do
  let joiner ← match arguments, named with
    | [], [] => .ok ""
    | [joiner], [] => .ok joiner.display
    | _, _ => failed "too many arguments"
  return .ofString (joined joiner (← members subject))

private def trimFilter : Filter := fun subject arguments named =>
  match arguments, named with
  | [], [] => .ok (.ofString (Text.stripped subject.display))
  | [set], [] =>
    let drop := fun c => set.display.toList.contains c
    .ok (.ofString (String.ofList (Text.dropEndWhile drop (subject.display.toList.dropWhile drop))))
  | _, _ => failed "too many arguments"

private def splitText (separator : List Char) : Nat → List Char → List (List Char)
  | 0, text => [text]
  | _, [] => [[]]
  | fuel + 1, c :: rest =>
    match Text.stripStart separator (c :: rest) with
    | some after => [] :: splitText separator fuel after
    | none =>
      match splitText separator fuel rest with
      | [] => [[c]]
      | piece :: pieces => (c :: piece) :: pieces

private def textList (pieces : List (List Char)) : Value :=
  .list (pieces.map fun piece => .ofString (String.ofList piece))

private def splitFilter : Filter := fun subject arguments named =>
  let text := subject.display.toList
  match arguments, named with
  | [], [] | [.null], [] =>
    .ok (textList ((Text.splitBy Unicode.isWhite text).filter fun piece => !piece.isEmpty))
  | [separator], [] =>
    if separator.display.isEmpty then failed "empty separator"
    else .ok (textList (splitText separator.display.toList (text.length + 1) text))
  | _, _ => failed "too many arguments"

private def defaultFilter : Filter := fun subject arguments named =>
  match arguments, named with
  | [], [] => .ok (if subject.isUndefined then .ofString "" else subject)
  | [other], [] => .ok (if subject.isUndefined then other else subject)
  | [other, lax], [] =>
    .ok (if subject.isUndefined || (lax.isTrue && !subject.isTrue) then other else subject)
  | _, _ => failed "too many arguments"

private def lengthFilter (subject : Value) : Except Fault Value :=
  match subject.length? with
  | some length => .ok (.ofNat length)
  | none => failed "cannot calculate length"

private def reversed (subject : Value) : Except Fault Value :=
  match subject with
  | .text written _ => .ok (.ofString (String.ofList written.toList.reverse))
  | other => (members other).map fun items => .list items.reverse

private def absolute (subject : Value) : Except Fault Value :=
  match subject with
  | .integer value => Value.integerResult value.natAbs
  | .decimal value => .ok (.decimal value.abs)
  | _ => failed "cannot get absolute value"

private def roundFilter : Filter := fun subject arguments named => do
  let places ← match arguments, named with
    | [], [] => .ok (0 : Int)
    | [places], [] =>
      match places.asInt? with
      | some places => .ok places
      | none => failed "precision must be a number"
    | _, _ => failed "too many arguments"
  match subject with
  | .integer value => return .integer value
  | .decimal value =>
    let scale := Float.pow 10 (Float.ofInt places)
    return .decimal ((value * scale).round / scale)
  | _ => failed "cannot round value"

/-- The whole number that text writes, with a sign or without. -/
def writtenInt? (text : List Char) : Option Int :=
  let (negative, digits) := match text with
    | '-' :: rest => (true, rest)
    | '+' :: rest => (false, rest)
    | _ => (false, text)
  if digits.isEmpty || !digits.all Char.isDigit then none
  else some (if negative then -(Text.decimalValue digits : Int) else Text.decimalValue digits)

/-- The number that text writes. -/
def writtenFloat? (text : List Char) : Option Float :=
  let digits := text.dropWhile fun c => c == '-' || c == '+'
  let afterWhole := digits.dropWhile Char.isDigit
  let (fraction, rest) := match afterWhole with
    | '.' :: rest => (rest.takeWhile Char.isDigit, rest.dropWhile Char.isDigit)
    | _ => ([], afterWhole)
  let exponentFits := match rest with
    | [] => true
    | c :: exponent => (c == 'e' || c == 'E') && (writtenInt? exponent).isSome
  if text.length ≤ digits.length + 1 && exponentFits &&
      !((digits.takeWhile Char.isDigit).isEmpty && fraction.isEmpty) then
    some (Text.decimalNumber text)
  else none

private def toInteger (subject : Value) : Except Fault Value :=
  match subject with
  | .undefined | .null => .ok (.integer 0)
  | .bool value => .ok (.integer (if value then 1 else 0))
  | .integer value => .ok (.integer value)
  | .decimal value => .ok (.integer value.toInt64.toInt)
  | .text written _ =>
    match writtenInt? written.toList with
    | some value => .ok (.integer value)
    | none =>
      match writtenFloat? written.toList with
      | some value => .ok (.integer value.toInt64.toInt)
      | none => failed "invalid integer"
  | _ => failed "cannot convert value to integer"

private def toDecimal (subject : Value) : Except Fault Value :=
  match subject with
  | .undefined | .null => .ok (.decimal 0)
  | .text written _ =>
    match writtenFloat? written.toList with
    | some value => .ok (.decimal value)
    | none => failed "invalid float"
  | other =>
    match other.asFloat? with
    | some value => .ok (.decimal value)
    | none => failed "cannot convert value to float"

private def ordered (items : List Value) : List Value :=
  items.mergeSort fun a b => a.order b != .gt

/-- Text compares without regard to case unless asked otherwise. -/
private def sortKey (caseSensitive : Bool) : Value → Value
  | .text written safe =>
    if caseSensitive then .text written safe
    else .ofString (String.ofList (Unicode.lower written.toList))
  | other => other

/-- A member reached by a name with dots, or by a number. -/
def attributePath (path : String) (value : Value) : Value :=
  (Text.splitBy (· == '.') path.toList).foldl (fun value part =>
    match writtenInt? part with
    | some index => (value.member? (.integer index)).getD .undefined
    | none => (value.attribute? (String.ofList part)).getD .undefined) value

private def namedFlag (named : Named) (name : String) (fallback : Bool) : Bool :=
  ((named.lookup name).map Value.isTrue).getD fallback

private def onlyNamed (allowed : List String) (named : Named) : Except Fault Unit :=
  if named.all fun (name, _) => allowed.contains name then .ok () else failed "too many arguments"

private def keyOf (named : Named) (item : Value) : Value :=
  let subject := match named.lookup "attribute" with
    | some path => attributePath path.display item
    | none => item
  sortKey (namedFlag named "case_sensitive" false) subject

private def sortFilter : Filter := fun subject arguments named => do
  onlyNamed ["case_sensitive", "attribute", "reverse"] named
  if !arguments.isEmpty then failed "too many arguments"
  else
    let sorted := (← members subject).mergeSort fun a b => (keyOf named a).order (keyOf named b) != .gt
    return .list (if namedFlag named "reverse" false then sorted.reverse else sorted)

private def uniqueFilter : Filter := fun subject arguments named => do
  onlyNamed ["case_sensitive", "attribute"] named
  if !arguments.isEmpty then failed "too many arguments"
  else
    let kept := (← members subject).foldl (fun (kept : List (Value × Value)) item =>
      let key := keyOf named item
      if kept.any fun (other, _) => other.equal key then kept else kept ++ [(key, item)]) []
    return .list (kept.map (·.2))

private def pairs (entries : List (Value × Value)) : Value :=
  .list (entries.map fun (key, value) => .list [key, value])

private def itemsFilter (subject : Value) : Except Fault Value :=
  match subject with
  | .map entries => .ok (pairs entries)
  | _ => failed "cannot convert value into pair list"

private def dictSortFilter : Filter := fun subject arguments named => do
  onlyNamed ["case_sensitive", "by", "reverse"] named
  match subject, arguments with
  | .map entries, [] =>
    let byValue := ((named.lookup "by").map Value.display) == some "value"
    let key (entry : Value × Value) :=
      sortKey (namedFlag named "case_sensitive" false) (if byValue then entry.2 else entry.1)
    let sorted := entries.mergeSort fun a b => (key a).order (key b) != .gt
    return pairs (if namedFlag named "reverse" false then sorted.reverse else sorted)
  | _, _ => failed "cannot convert value into pair list"

/-- Characters that have another form in a page, with that form. -/
def htmlForms : List (Char × String) :=
  [('<', "&lt;"), ('>', "&gt;"), ('&', "&amp;"), ('"', "&quot;"), ('\x27', "&#x27;"), ('/', "&#x2f;")]

private def escaped (subject : Value) : Except Fault Value :=
  match subject with
  | .text written true => .ok (.text written true)
  | other =>
    .ok (.text (String.ofList (other.display.toList.flatMap fun c =>
      match htmlForms.lookup c with
      | some form => form.toList
      | none => [c])) true)

private def firstFilter (subject : Value) : Except Fault Value :=
  (members subject).map fun items => items.head?.getD .undefined

private def lastFilter (subject : Value) : Except Fault Value :=
  (members subject).map fun items => items.getLast?.getD .undefined

private def stringFilter (subject : Value) : Except Fault Value :=
  match subject with
  | .text written safe => .ok (.text written safe)
  | other => .ok (.ofString other.display)

private def indentFilter : Filter := fun subject arguments named =>
  match arguments, named with
  | width :: flags, [] =>
    match width.asInt? with
    | some width =>
      let blanks := List.replicate width.toNat ' '
      let first := (flags[0]?.map Value.isTrue).getD false
      let onBlank := (flags[1]?.map Value.isTrue).getD false
      let indented := (Text.lines subject.display.toList).zipIdx.map fun (line, number) =>
        if (number == 0 && !first) || (line.isEmpty && !onBlank) then line else blanks ++ line
      .ok (.ofString (String.ofList (Text.joinLines indented)))
    | none => failed "width must be a number"
  | _, _ => failed "indent needs a width"

private def attributeFilter : Filter := fun subject arguments named =>
  match arguments, named with
  | [key], [] => .ok ((subject.member? key).getD .undefined)
  | _, _ => failed "attr needs a name"

private def sumFilter (subject : Value) : Except Fault Value := do
  (← members subject).foldlM (fun total item => Value.apply .add total item) (.integer 0)

private def chunks (size : Nat) : Nat → List Value → List (List Value)
  | 0, _ => []
  | _, [] => []
  | fuel + 1, items => items.take size :: chunks size fuel (items.drop size)

private def batchFilter : Filter := fun subject arguments named => do
  match arguments, named with
  | size :: fill, [] =>
    let size := (size.asInt?.getD 0).toNat
    let items ← members subject
    if size == 0 then failed "count cannot be 0"
    else
      let filled (chunk : List Value) : List Value := match fill with
        | [value] => chunk ++ List.replicate (size - chunk.length) value
        | _ => chunk
      return .list ((chunks size items.length items).map fun chunk => .list (filled chunk))
  | _, _ => failed "batch needs a count"

private def sliceColumns (count : Nat) (items : List Value) : List (List Value) :=
  let each := items.length / count
  let extra := items.length % count
  (List.range count).map fun column =>
    let start := column * each + min column extra
    (items.drop start).take (if column < extra then each + 1 else each)

private def sliceFilter : Filter := fun subject arguments named => do
  match arguments, named with
  | count :: fill, [] =>
    let count := (count.asInt?.getD 0).toNat
    let items ← members subject
    if count == 0 then failed "count cannot be 0"
    else
      let extra := items.length % count
      let filled (column : List Value) (number : Nat) : List Value := match fill with
        | [value] => if extra != 0 && extra ≤ number then column ++ [value] else column
        | _ => column
      return .list ((sliceColumns count items).zipIdx.map fun (column, number) =>
        .list (filled column number))
  | _, _ => failed "slice needs a count"

/-- The filters that need no other filter or test. -/
def basic : List (String × Filter) :=
  [("safe", plain fun subject => .ok (.text subject.display true)),
   ("escape", plain escaped), ("e", plain escaped),
   ("lower", onText Unicode.lower), ("upper", onText Unicode.upper),
   ("title", onText (titled false)), ("capitalize", onText capitalized),
   ("replace", replaceFilter), ("join", joinFilter), ("trim", trimFilter), ("split", splitFilter),
   ("lines", plain fun subject => .ok (textList (Text.lines subject.display.toList))),
   ("default", defaultFilter), ("d", defaultFilter),
   ("length", plain lengthFilter), ("count", plain lengthFilter), ("reverse", plain reversed),
   ("abs", plain absolute), ("round", roundFilter), ("int", plain toInteger), ("float", plain toDecimal),
   ("first", plain firstFilter), ("last", plain lastFilter),
   ("min", plain fun subject => (members subject).map fun items =>
      (ordered items).head?.getD .undefined),
   ("max", plain fun subject => (members subject).map fun items =>
      (ordered items).getLast?.getD .undefined),
   ("sort", sortFilter), ("unique", uniqueFilter), ("items", plain itemsFilter),
   ("dictsort", dictSortFilter), ("string", plain stringFilter),
   ("bool", plain fun subject => .ok (.bool subject.isTrue)),
   ("list", plain fun subject => (members subject).map .list), ("attr", attributeFilter),
   ("indent", indentFilter), ("sum", plain sumFilter), ("batch", batchFilter), ("slice", sliceFilter)]

end Filter

abbrev Test := Value → List Value → Except Fault Bool

namespace Test

private def plain (holds : Value → Bool) : Test := fun subject arguments =>
  if arguments.isEmpty then .ok (holds subject) else .error (.failed "too many arguments")

private def binary (holds : Value → Value → Bool) : Test := fun subject arguments =>
  match arguments with
  | [other] => .ok (holds subject other)
  | _ => .error (.failed "test needs one argument")

private def onInteger (holds : Int → Bool) : Test :=
  plain fun subject => (subject.asInt?.map holds).getD false

private def isNumber : Value → Bool
  | .integer _ | .decimal _ => true
  | _ => false

private def isInteger : Value → Bool
  | .integer _ => true
  | _ => false

private def isDecimal : Value → Bool
  | .decimal _ => true
  | _ => false

private def isBool (wanted : Option Bool) : Value → Bool
  | .bool value => wanted.all (· == value)
  | _ => false

private def isList : Value → Bool
  | .list _ => true
  | _ => false

private def isMap : Value → Bool
  | .map _ => true
  | _ => false

private def isNull : Value → Bool
  | .null => true
  | _ => false

private def isSafe : Value → Bool
  | .text _ safe => safe
  | _ => false

private def ofOperator (operator : BinaryOp) : Test := fun subject arguments =>
  match arguments with
  | [other] => (Value.apply operator subject other).map Value.isTrue
  | _ => .error (.failed "test needs one argument")

private def endsWith (ending text : List Char) : Bool :=
  ending.reverse.isPrefixOf text.reverse

/-- The tests by name, those for the filters and tests themselves apart. -/
def basic : List (String × Test) :=
  [("undefined", plain Value.isUndefined), ("defined", plain fun subject => !subject.isUndefined),
   ("none", plain isNull), ("safe", plain isSafe), ("escaped", plain isSafe),
   ("boolean", plain (isBool none)), ("true", plain (isBool (some true))),
   ("false", plain (isBool (some false))),
   ("odd", onInteger (· % 2 != 0)), ("even", onInteger (· % 2 == 0)),
   ("divisibleby", binary fun subject other =>
      match subject.asInt?, other.asInt? with
      | some a, some b => b != 0 && a % b == 0
      | _, _ => false),
   ("number", plain isNumber), ("integer", plain isInteger), ("int", plain isInteger),
   ("float", plain isDecimal), ("string", plain Value.isText), ("sequence", plain isList),
   ("mapping", plain isMap),
   ("iterable", plain fun subject => subject.isText || isList subject || isMap subject),
   ("startingwith", binary fun subject other =>
      other.display.toList.isPrefixOf subject.display.toList),
   ("endingwith", binary fun subject other => endsWith other.display.toList subject.display.toList),
   ("lower", plain fun subject => Unicode.lower subject.display.toList == subject.display.toList),
   ("upper", plain fun subject => Unicode.upper subject.display.toList == subject.display.toList),
   ("sameas", binary fun subject other => subject.kindRank == other.kindRank && subject.equal other),
   ("eq", ofOperator .equal), ("equalto", ofOperator .equal), ("==", ofOperator .equal),
   ("ne", ofOperator .unequal), ("!=", ofOperator .unequal),
   ("lt", ofOperator .less), ("lessthan", ofOperator .less), ("<", ofOperator .less),
   ("le", ofOperator .lessEqual), ("<=", ofOperator .lessEqual),
   ("gt", ofOperator .greater), ("greaterthan", ofOperator .greater), (">", ofOperator .greater),
   ("ge", ofOperator .greaterEqual), (">=", ofOperator .greaterEqual), ("in", ofOperator .isIn)]

/-- Applies a test by name. -/
def run (name : String) (subject : Value) (arguments : List Value) : Except Fault Bool :=
  match basic.lookup name with
  | some test => test subject arguments
  | none =>
    if name == "filter" then
      binary (fun subject _ => (Filter.basic.lookup subject.display).isSome) subject (arguments ++ [.null])
    else if name == "test" then
      binary (fun subject _ => (basic.lookup subject.display).isSome) subject (arguments ++ [.null])
    else .error (.failed "unknown test")

end Test

namespace Filter

private def select (keep : Bool) (onAttribute : Bool) : Filter := fun subject arguments named => do
  let items ← match subject.items? with
    | some items => .ok items
    | none => .error (.failed "value is not iterable")
  if !named.isEmpty then .error (.failed "too many arguments")
  else
    let (path, arguments) := match onAttribute, arguments with
      | true, path :: rest => (some path.display, rest)
      | _, _ => (none, arguments)
    let kept ← items.filterM fun item => do
      let tested := match path with
        | some path => attributePath path item
        | none => item
      let holds ← match arguments with
        | [] => pure tested.isTrue
        | test :: rest => Test.run test.display tested rest
      return holds == keep
    return .list kept

private def mapFilter : Filter := fun subject arguments named => do
  let items ← match subject.items? with
    | some items => .ok items
    | none => .error (.failed "value is not iterable")
  match arguments, named.lookup "attribute" with
  | [], some path =>
    let fallback := (named.lookup "default").getD .undefined
    return .list (items.map fun item =>
      match attributePath path.display item with
      | .undefined => fallback
      | value => value)
  | name :: rest, none =>
    match basic.lookup name.display with
    | some filter => return .list (← items.mapM fun item => filter item rest named)
    | none => .error (.failed "unknown filter")
  | _, _ => .error (.failed "map needs a filter or an attribute")

/-- Applies a filter by name. -/
def run (name : String) (subject : Value) (arguments : List Value) (named : Named) :
    Except Fault Value :=
  match basic.lookup name with
  | some filter => filter subject arguments named
  | none =>
    match name with
    | "select" => select true false subject arguments named
    | "reject" => select false false subject arguments named
    | "selectattr" => select true true subject arguments named
    | "rejectattr" => select false true subject arguments named
    | "map" => mapFilter subject arguments named
    | _ => .error (.failed "unknown filter")

end Filter

end DocComment.Template
