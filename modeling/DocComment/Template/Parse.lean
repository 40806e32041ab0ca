import DocComment.Template.Expression
import DocComment.Template.Token

/-! Reading templates. Readers take the tokens and give back what they read and the tokens after it;
the fuel bounds the nesting and is never short of the tokens that are left. -/
namespace DocComment.Template

/-- What was read and the tokens after it. -/
abbrev Parsed (α : Type) := α × List Token

private def unexpected (wanted : String) (tokens : List Token) : Except Fault α :=
  match tokens with
  | [] => .error (.malformed ("unexpected end of input, expected " ++ wanted))
  | _ :: _ => .error (.malformed ("unexpected token, expected " ++ wanted))

private def tooDeep : Except Fault α :=
  .error (.malformed "template exceeds maximum recursion limits")

private def expect (token : Token) (wanted : String) (tokens : List Token) :
    Except Fault (List Token) :=
  match tokens with
  | first :: rest => if first == token then .ok rest else unexpected wanted tokens
  | [] => unexpected wanted tokens

/-- The binding strength of operators, weakest first. -/
private def levels : List (List (String × BinaryOp)) :=
  [[("or", .or)], [("and", .and)], [],
   [("==", .equal), ("!=", .unequal), ("<", .less), ("<=", .lessEqual), (">", .greater),
    (">=", .greaterEqual), ("in", .isIn)],
   [("+", .add), ("-", .subtract)],
   [("~", .concat)],
   [("*", .multiply), ("/", .divide), ("//", .floorDivide), ("%", .remainder)],
   [("**", .power)]]

private def notLevel : Nat := 2

private def compareLevel : Nat := 3

private def unaryLevel : Nat := 8

/-- The operator of a level that comes next. -/
private def operatorAt? (level : Nat) (tokens : List Token) : Option (BinaryOp × List Token) :=
  let lookup (written : String) (rest : List Token) :=
    ((levels[level]?.getD []).lookup written).map fun operator => (operator, rest)
  match tokens with
  | .name "not" :: .name "in" :: rest => if level == compareLevel then some (.notIn, rest) else none
  | .name written :: rest => lookup written rest
  | .mark written :: rest => lookup written rest
  | _ => none

/-- Words that cannot start the argument of a test without parentheses. -/
private def testStops : List String :=
  ["and", "or", "else", "is", "if", "in", "not", "recursive"]

private def startsTestArgument : List Token → Bool
  | .name written :: _ => !testStops.contains written
  | .string _ :: _ | .integer _ :: _ | .decimal _ :: _ => true
  | .mark written :: _ => ["+", "-", "[", "\x7b"].contains written
  | _ => false

/-- Arguments of a call: positional ones, then names and values of keyword ones. -/
structure Arguments where
  positional : List Expr := []
  names : List String := []
  named : List Expr := []
  deriving Inhabited

mutual

private def readChoice : Nat → List Token → Except Fault (Parsed Expr)
  | 0, _ => tooDeep
  | fuel + 1, tokens => do
    let (value, rest) ← readLevel fuel 0 tokens
    readChoiceTail fuel value rest

private def readChoiceTail : Nat → Expr → List Token → Except Fault (Parsed Expr)
  | 0, _, _ => tooDeep
  | fuel + 1, value, tokens =>
    match tokens with
    | .name "if" :: rest => do
      let (condition, rest) ← readLevel fuel 0 rest
      match rest with
      | .name "else" :: rest => do
        let (otherwise, rest) ← readChoice fuel rest
        readChoiceTail fuel (.choice condition value otherwise) rest
      | _ => readChoiceTail fuel (.choice condition value .undefined) rest
    | _ => .ok (value, tokens)

/-- An expression of operators from a level on. -/
private def readLevel : Nat → Nat → List Token → Except Fault (Parsed Expr)
  | 0, _, _ => tooDeep
  | fuel + 1, level, tokens =>
    if unaryLevel ≤ level then do
      let (value, rest) ← readUnary fuel tokens
      readFilters fuel value rest
    else
      match if level == notLevel then tokens else [] with
      | .name "not" :: rest => do
        let (value, rest) ← readLevel fuel level rest
        return (.not value, rest)
      | _ => do
        let (value, rest) ← readLevel fuel (level + 1) tokens
        readLevelTail fuel level value rest

private def readLevelTail : Nat → Nat → Expr → List Token → Except Fault (Parsed Expr)
  | 0, _, _, _ => tooDeep
  | fuel + 1, level, left, tokens =>
    match operatorAt? level tokens with
    | some (operator, rest) => do
      let (right, rest) ← readLevel fuel (level + 1) rest
      readLevelTail fuel level (.binary operator left right) rest
    | none => .ok (left, tokens)

private def readUnary : Nat → List Token → Except Fault (Parsed Expr)
  | 0, _ => tooDeep
  | fuel + 1, tokens =>
    match tokens with
    | .mark "-" :: rest => do
      let (value, rest) ← readUnary fuel rest
      return (.negate value, rest)
    | _ => do
      let (value, rest) ← readPrimary fuel tokens
      readAccess fuel value rest

/-- Attributes, indices, slices and calls after a value. -/
private def readAccess : Nat → Expr → List Token → Except Fault (Parsed Expr)
  | 0, _, _ => tooDeep
  | fuel + 1, value, tokens =>
    match tokens with
    | .mark "." :: .name name :: rest => readAccess fuel (.attribute value name) rest
    | .mark "." :: rest => unexpected "identifier" rest
    | .mark "[" :: rest => do
      let (access, rest) ← readIndex fuel value rest
      readAccess fuel access rest
    | .mark "(" :: rest => do
      let (arguments, rest) ← readArguments fuel {} rest
      readAccess fuel (.callOf value arguments.positional arguments.names arguments.named) rest
    | _ => .ok (value, tokens)

/-- An index or a slice, after its opening bracket. -/
private def readIndex : Nat → Expr → List Token → Except Fault (Parsed Expr)
  | 0, _, _ => tooDeep
  | fuel + 1, value, tokens => do
    let (start, rest) ← readBound fuel tokens
    match rest with
    | .mark ":" :: rest => do
      let (stop, rest) ← readBound fuel rest
      let (step, rest) ← match rest with
        | .mark ":" :: rest => readBound fuel rest
        | _ => .ok (.undefined, rest)
      let rest ← expect (.mark "]") "]" rest
      return (.slice value start stop step, rest)
    | .mark "]" :: rest =>
      match start with
      | .undefined => .error (.malformed "empty subscript")
      | _ => .ok (.item value start, rest)
    | _ => unexpected "]" rest

/-- A bound of a slice; undefined if it is left out. -/
private def readBound : Nat → List Token → Except Fault (Parsed Expr)
  | 0, _ => tooDeep
  | fuel + 1, tokens =>
    match tokens with
    | .mark ":" :: _ | .mark "]" :: _ => .ok (.undefined, tokens)
    | _ => readChoice fuel tokens

/-- The arguments of a call after its opening parenthesis. Keyword arguments come last. -/
private def readArguments : Nat → Arguments → List Token → Except Fault (Parsed Arguments)
  | 0, _, _ => tooDeep
  | fuel + 1, arguments, tokens =>
    let next (arguments : Arguments) (rest : List Token) : Except Fault (Parsed Arguments) :=
      match rest with
      | .mark "," :: rest => readArguments fuel arguments rest
      | .mark ")" :: rest => .ok (arguments, rest)
      | _ => unexpected "," rest
    match tokens with
    | .mark ")" :: rest => .ok (arguments, rest)
    | .name name :: .mark "=" :: rest => do
      let (value, rest) ← readLevel fuel 0 rest
      next { arguments with
        names := arguments.names ++ [name]
        named := arguments.named ++ [value] } rest
    | _ => do
      let (value, rest) ← readChoice fuel tokens
      if !arguments.names.isEmpty then
        .error (.malformed "non-keyword arg after keyword arg")
      else next { arguments with positional := arguments.positional ++ [value] } rest

/-- Filters and tests after a value. -/
private def readFilters : Nat → Expr → List Token → Except Fault (Parsed Expr)
  | 0, _, _ => tooDeep
  | fuel + 1, value, tokens =>
    match tokens with
    | .mark "|" :: .name name :: rest => do
      let (arguments, rest) ← match rest with
        | .mark "(" :: rest => readArguments fuel {} rest
        | _ => .ok (({} : Arguments), rest)
      readFilters fuel (.filter name value arguments.positional arguments.names arguments.named) rest
    | .mark "|" :: rest => unexpected "identifier" rest
    | .name "is" :: .name "not" :: .name name :: rest => do
      let (arguments, rest) ← readTestArguments fuel rest
      readFilters fuel (.not (.test name value arguments)) rest
    | .name "is" :: .name name :: rest => do
      let (arguments, rest) ← readTestArguments fuel rest
      readFilters fuel (.test name value arguments) rest
    | .name "is" :: rest => unexpected "identifier" rest
    | _ => .ok (value, tokens)

private def readTestArguments : Nat → List Token → Except Fault (Parsed (List Expr))
  | 0, _ => tooDeep
  | fuel + 1, tokens =>
    match tokens with
    | .mark "(" :: rest => do
      let (arguments, rest) ← readArguments fuel {} rest
      if arguments.names.isEmpty then return (arguments.positional, rest)
      else .error (.malformed "tests take no keyword arguments")
    | _ =>
      if startsTestArgument tokens then do
        let (value, rest) ← readUnary fuel tokens
        return ([value], rest)
      else .ok ([], tokens)

private def readPrimary : Nat → List Token → Except Fault (Parsed Expr)
  | 0, _ => tooDeep
  | fuel + 1, tokens =>
    match tokens with
    | .name name :: rest =>
      if name == "true" || name == "True" then .ok (.bool true, rest)
      else if name == "false" || name == "False" then .ok (.bool false, rest)
      else if name == "none" || name == "None" then .ok (.null, rest)
      else .ok (.variable_ name, rest)
    | .string written :: rest => .ok (.string written, rest)
    | .integer value :: rest => .ok (.integer value, rest)
    | .decimal written :: rest => .ok (.decimal written, rest)
    | .mark "(" :: .mark ")" :: rest => .ok (.list [], rest)
    | .mark "(" :: rest => do
      let (value, rest) ← readChoice fuel rest
      match rest with
      | .mark ")" :: rest => .ok (value, rest)
      | .mark "," :: rest => do
        let (items, rest) ← readItems fuel ")" rest
        return (.list (value :: items), rest)
      | _ => unexpected ")" rest
    | .mark "[" :: rest => do
      let (items, rest) ← readItems fuel "]" rest
      return (.list items, rest)
    | .mark "\x7b" :: rest => do
      let ((keys, values), rest) ← readEntries fuel rest
      return (.map keys values, rest)
    | _ => unexpected "expression" tokens

/-- Members of a list up to its closing mark. -/
private def readItems : Nat → String → List Token → Except Fault (Parsed (List Expr))
  | 0, _, _ => tooDeep
  | fuel + 1, closing, tokens =>
    match tokens with
    | .mark written :: rest =>
      if written == closing then .ok ([], rest) else readItem fuel closing tokens
    | _ => readItem fuel closing tokens

private def readItem : Nat → String → List Token → Except Fault (Parsed (List Expr))
  | 0, _, _ => tooDeep
  | fuel + 1, closing, tokens => do
    let (item, rest) ← readChoice fuel tokens
    match rest with
    | .mark written :: rest =>
      if written == closing then .ok ([item], rest)
      else if written == "," then do
        let (items, rest) ← readItems fuel closing rest
        return (item :: items, rest)
      else unexpected closing rest
    | _ => unexpected closing rest

/-- Entries of a map, after its opening brace. -/
private def readEntries : Nat → List Token → Except Fault (Parsed (List Expr × List Expr))
  | 0, _ => tooDeep
  | fuel + 1, tokens =>
    match tokens with
    | .mark "\x7d" :: rest => .ok (([], []), rest)
    | _ => do
      let (key, rest) ← readChoice fuel tokens
      let rest ← expect (.mark ":") ":" rest
      let (value, rest) ← readChoice fuel rest
      match rest with
      | .mark "\x7d" :: rest => .ok (([key], [value]), rest)
      | .mark "," :: rest => do
        let ((keys, values), rest) ← readEntries fuel rest
        return ((key :: keys, value :: values), rest)
      | _ => unexpected "," rest

end

/-- Names that cannot be assigned. -/
private def reservedNames : List String :=
  ["true", "True", "false", "False", "none", "None", "loop", "self"]

private def readTargetName : List Token → Except Fault (Parsed String)
  | .name name :: rest =>
    if reservedNames.contains name then .error (.malformed "cannot assign to reserved variable name")
    else .ok (name, rest)
  | tokens => unexpected "identifier" tokens

/-- More names of a target, after a comma. -/
private def readTargetNames : Nat → List Token → Except Fault (Parsed (List String))
  | 0, _ => tooDeep
  | fuel + 1, tokens =>
    match tokens with
    | .name "in" :: _ | .mark "=" :: _ | .mark ")" :: _ => .ok ([], tokens)
    | _ => do
      let (name, rest) ← readTargetName tokens
      match rest with
      | .mark "," :: rest => do
        let (names, rest) ← readTargetNames fuel rest
        return (name :: names, rest)
      | _ => return ([name], rest)

private def readTarget (fuel : Nat) (tokens : List Token) : Except Fault (Parsed Target) := do
  let (parenthesized, tokens) := match tokens with
    | .mark "(" :: rest => (true, rest)
    | _ => (false, tokens)
  let (name, rest) ← readTargetName tokens
  let (target, rest) ← match rest with
    | .mark "," :: rest => do
      let (names, rest) ← readTargetNames fuel rest
      pure (Target.many (name :: names), rest)
    | _ => pure (Target.one name, rest)
  if parenthesized then return (target, ← expect (.mark ")") ")" rest) else return (target, rest)

private def expectTagEnd (tokens : List Token) : Except Fault (List Token) :=
  expect .tagEnd "end of block" tokens

/-- The assignments of a scope. -/
private def readAssignments : Nat → List Token → Except Fault (Parsed (List Target × List Expr))
  | 0, _ => tooDeep
  | fuel + 1, tokens =>
    match tokens with
    | .tagEnd :: _ => .ok (([], []), tokens)
    | _ => do
      let (name, rest) ← readTargetName tokens
      let rest ← expect (.mark "=") "assignment operator" rest
      let (value, rest) ← readChoice fuel rest
      match rest with
      | .mark "," :: rest => do
        let ((targets, values), rest) ← readAssignments fuel rest
        return ((.one name :: targets, value :: values), rest)
      | _ => return (([.one name], [value]), rest)

/-- The parameters of a named block, after the opening parenthesis. Once one has a default value, all
that follow have one. -/
private def readParameters : Nat → Bool → List Token → Except Fault (Parsed (List String × List Expr))
  | 0, _, _ => tooDeep
  | fuel + 1, defaulted, tokens =>
    let next (name : String) (value : List Expr) (rest : List Token) :
        Except Fault (Parsed (List String × List Expr)) :=
      match rest with
      | .mark ")" :: rest => .ok (([name], value), rest)
      | .mark "," :: rest => do
        let ((names, values), rest) ← readParameters fuel (!value.isEmpty) rest
        return ((name :: names, value ++ values), rest)
      | _ => unexpected "," rest
    match tokens with
    | .mark ")" :: rest => .ok (([], []), rest)
    | _ => do
      let (name, rest) ← readTargetName tokens
      match rest with
      | .mark "=" :: rest => do
        let (value, rest) ← readChoice fuel rest
        next name [value] rest
      | _ => if defaulted then unexpected "=" rest else next name [] rest

private def readIdentifier : List Token → Except Fault (Parsed String)
  | .name name :: rest => .ok (name, rest)
  | tokens => unexpected "identifier" tokens

/-- Words about the context of another template mean nothing. -/
private def skipContext : List Token → Except Fault (List Token)
  | .name "with" :: rest | .name "without" :: rest => expect (.name "context") "context" rest
  | tokens => .ok tokens

/-- Names to import, and the names that they get. -/
private def readImports : Nat → List Token → Except Fault (Parsed (List String × List String))
  | 0, _ => tooDeep
  | fuel + 1, tokens =>
    match tokens with
    | .tagEnd :: _ => .ok (([], []), tokens)
    | _ => do
      let (name, rest) ← readTargetName tokens
      let (renamed, rest) ← match rest with
        | .name "as" :: rest => readTargetName rest
        | _ => .ok (name, rest)
      match rest with
      | .mark "," :: rest => do
        let ((names, renamings), rest) ← readImports fuel rest
        return ((name :: names, renamed :: renamings), rest)
      | _ => return (([name], [renamed]), rest)

/-- Whether the statements that were read ask for the block of a call. -/
private def asksBack (tokens rest : List Token) : Bool :=
  (tokens.take (tokens.length - rest.length)).contains (.name "caller")

mutual

/-- Statements up to a tag with one of the `endings`, or to the end if there are none; also gives the
word of that tag. -/
private def readStatements : Nat → List String → List Token → Except Fault (Parsed (List Statement × String))
  | 0, _, _ => tooDeep
  | fuel + 1, endings, tokens =>
    let continue_ (statement : Statement) (rest : List Token) : Except Fault (Parsed (List Statement × String)) := do
      let ((statements, ending), rest) ← readStatements fuel endings rest
      return ((statement :: statements, ending), rest)
    match tokens with
    | [] => if endings.isEmpty then .ok (([], ""), []) else unexpected "end of block" []
    | .data written :: rest => continue_ (.data written) rest
    | .valueStart :: rest => do
      let (value, rest) ← readChoice fuel rest
      let rest ← expect .valueEnd "end of variable block" rest
      continue_ (.value value) rest
    | .tagStart :: .name keyword :: rest =>
      if endings.contains keyword then .ok (([], keyword), rest)
      else do
        let (statement, rest) ← readStatement fuel keyword rest
        continue_ statement rest
    | _ => unexpected "statement" tokens

/-- The statements of a block and the tag that ends it. -/
private def readBody : Nat → String → List Token → Except Fault (Parsed (List Statement))
  | 0, _, _ => tooDeep
  | fuel + 1, ending, tokens => do
    let ((body, _), rest) ← readStatements fuel [ending] tokens
    return (body, ← expectTagEnd rest)

/-- The statements of a block with parameters. -/
private def readBlockless : Nat → String → List Token → Except Fault (Parsed (List Statement))
  | 0, _, _ => tooDeep
  | fuel + 1, ending, tokens => do
    let (body, rest) ← readBody fuel ending tokens
    if (Statement.blocksAll body).isEmpty then return (body, rest)
    else .error (.malformed "block tags in macros are not allowed")

/-- A statement after the keyword of its tag. -/
private def readStatement : Nat → String → List Token → Except Fault (Parsed Statement)
  | 0, _, _ => tooDeep
  | fuel + 1, keyword, tokens =>
    match keyword with
    | "if" => readBranch fuel tokens
    | "for" => readLoop fuel tokens
    | "set" => readSet fuel tokens
    | "with" => do
      let ((targets, values), rest) ← readAssignments fuel tokens
      let rest ← expectTagEnd rest
      let (body, rest) ← readBody fuel "endwith" rest
      return (.scope targets values body, rest)
    | "filter" => do
      let (value, rest) ← readFilters fuel .captured (.mark "|" :: tokens)
      let rest ← expectTagEnd rest
      let (body, rest) ← readBody fuel "endfilter" rest
      return (.filtered value body, rest)
    | "autoescape" => do
      let (mode, rest) ← readChoice fuel tokens
      let rest ← expectTagEnd rest
      let (body, rest) ← readBody fuel "endautoescape" rest
      return (.autoescape mode body, rest)
    | "do" => do
      let (value, rest) ← readChoice fuel tokens
      let rest ← expectTagEnd rest
      if (value.withArgument? "" .undefined).isSome then return (.perform value, rest)
      else .error (.malformed "expected call expression")
    | "macro" => do
      let (name, rest) ← readIdentifier tokens
      let rest ← expect (.mark "(") "(" rest
      let ((parameters, defaults), rest) ← readParameters fuel false rest
      let start ← expectTagEnd rest
      let (body, rest) ← readBlockless fuel "endmacro" start
      return (.define name parameters defaults (asksBack start rest) body, rest)
    | "call" => do
      let ((parameters, defaults), rest) ← match tokens with
        | .mark "(" :: rest => readParameters fuel false rest
        | _ => .ok (([], []), tokens)
      let (value, rest) ← readChoice fuel rest
      let start ← expectTagEnd rest
      let (body, rest) ← readBlockless fuel "endcall" start
      match value.withArgument? "caller" .captured with
      | some call => return (.callWith parameters defaults (asksBack start rest) call body, rest)
      | none => .error (.malformed "expected call expression")
    | "block" => do
      let (name, rest) ← readIdentifier tokens
      let rest ← expectTagEnd rest
      let ((body, _), rest) ← readStatements fuel ["endblock"] rest
      match rest with
      | .name trailing :: rest =>
        if trailing == name then return (.block name body, ← expectTagEnd rest)
        else .error (.malformed "mismatching name on block")
      | _ => return (.block name body, ← expectTagEnd rest)
    | "include" => do
      let (name, rest) ← readChoice fuel tokens
      let rest ← skipContext rest
      match rest with
      | .name "ignore" :: rest => do
        let rest ← skipContext (← expect (.name "missing") "missing" rest)
        return (.inclusion name true, ← expectTagEnd rest)
      | _ => return (.inclusion name false, ← expectTagEnd rest)
    | "extends" => do
      let (name, rest) ← readChoice fuel tokens
      return (.extension name, ← expectTagEnd rest)
    | "import" => do
      let (name, rest) ← readChoice fuel tokens
      let (target, rest) ← readTargetName (← expect (.name "as") "as" rest)
      return (.imported name (.one target) (.map [] []), ← expectTagEnd rest)
    | "from" => do
      let (name, rest) ← readChoice fuel tokens
      let ((names, renamings), rest) ← readImports fuel (← expect (.name "import") "import" rest)
      return (.imported name (.many renamings) (.list (names.map .variable_)), ← expectTagEnd rest)
    | _ => .error (.malformed "unknown statement")

/-- A condition and its branches, after the keyword. -/
private def readBranch : Nat → List Token → Except Fault (Parsed Statement)
  | 0, _ => tooDeep
  | fuel + 1, tokens => do
    let (condition, rest) ← readChoice fuel tokens
    let rest ← expectTagEnd rest
    let ((yes, ending), rest) ← readStatements fuel ["elif", "else", "endif"] rest
    match ending with
    | "elif" => do
      let (statement, rest) ← readBranch fuel rest
      return (.branch condition yes [statement], rest)
    | "else" => do
      let rest ← expectTagEnd rest
      let (no, rest) ← readBody fuel "endif" rest
      return (.branch condition yes no, rest)
    | _ => return (.branch condition yes [], ← expectTagEnd rest)

private def readLoop : Nat → List Token → Except Fault (Parsed Statement)
  | 0, _ => tooDeep
  | fuel + 1, tokens => do
    let (target, rest) ← readTarget fuel tokens
    let rest ← expect (.name "in") "in" rest
    let (items, rest) ← readLevel fuel 0 rest
    let (condition, rest) ← match rest with
      | .name "if" :: rest => readChoice fuel rest
      | _ => .ok (.bool true, rest)
    let (recursive, rest) := match rest with
      | .name "recursive" :: rest => (true, rest)
      | _ => (false, rest)
    let rest ← expectTagEnd rest
    let ((body, ending), rest) ← readStatements fuel ["else", "endfor"] rest
    let rest ← expectTagEnd rest
    if ending == "else" then
      let (otherwise, rest) ← readBody fuel "endfor" rest
      return (.loop target items condition body otherwise recursive, rest)
    else return (.loop target items condition body [] recursive, rest)

/-- An assignment of a value or of the output of a block. -/
private def readSet : Nat → List Token → Except Fault (Parsed Statement)
  | 0, _ => tooDeep
  | fuel + 1, tokens => do
    let (target, rest) ← readTarget fuel tokens
    match rest, target with
    | .mark "=" :: rest, _ => do
      let (value, rest) ← readChoice fuel rest
      return (.assign target value, ← expectTagEnd rest)
    | _, .one name => do
      let (value, rest) ← match rest with
        | .mark "|" :: _ => readFilters fuel .captured rest
        | _ => .ok (.captured, rest)
      let rest ← expectTagEnd rest
      let (body, rest) ← readBody fuel "endset" rest
      return (.capture name value body, rest)
    | _, .many _ => unexpected "assignment operator" rest

end

/-- The statements of a template. No two of its blocks have the same name. -/
def parse (template : String) : Except Fault (List Statement) := do
  let tokens ← Token.tokens template
  let ((statements, _), _) ← readStatements (24 * (tokens.length + 1)) [] tokens
  if ((Statement.blocksAll statements).map (·.1)).Nodup then return statements
  else .error (.malformed "block defined twice")

end DocComment.Template
