import DocComment.Template.Dialogue
import DocComment.Template.Filter
import DocComment.Template.Parse

namespace DocComment.Template

abbrev Scope := List (String × Value)

/-- What a template is rendered against. -/
structure Inputs where
  root : Value
  /-- Makes text inert. -/
  escape : String → String
  /-- The named blocks of the template. -/
  blocks : List (String × List Statement) := []

/-- A block with parameters. -/
structure Macro where
  parameters : List String
  /-- The values of the last parameters if they are left out. -/
  defaults : List Expr
  /-- Whether the body asks for the block of a call. -/
  asks : Bool
  body : List Statement
  /-- The number of the variables that the body sees. -/
  closure : Nat

/-- A loop that is running. -/
structure Running where
  loop : Statement
  recursive : Bool
  /-- How many recursive loops it is in. -/
  depth : Nat

/-- The variables set in one place. -/
structure Frame where
  bindings : Scope := []
  running : Option Running := none
  /-- The number of the variables that blocks with parameters see, if any are named here. -/
  closure : Option Nat := none

structure Progress where
  /-- Variables set by the template, innermost first. -/
  frames : List Frame := [{}]
  /-- What the statement at hand hands on. -/
  captured : Value := .undefined
  /-- Whether the output of blocks counts as safe. -/
  safe : Bool := false
  macros : List Macro := []
  closures : List Scope := []

abbrev Evaluate := StateT Progress Dialogue

/-- Statements that are run from inside an expression. -/
inductive Routine where
  | defined (number : Nat)
  /-- A loop for other members. -/
  | again (running : Running)
  | block (name : String)

/-- What runs statements from inside an expression, with positional and keyword arguments. -/
abbrev Invoke := Routine → List Value → Named → Evaluate Value

def fail (problem : String) : Evaluate α :=
  (.error (.failed problem) : Except Fault α)

def lookupFrames (name : String) : List Frame → Option Value
  | [] => none
  | frame :: rest => (frame.bindings.lookup name).or (lookupFrames name rest)

/-- The functions that every template can call. -/
def globals : List (String × Value) :=
  [("section", .callable (.part .fetch)), ("drop", .callable (.part .drop)),
   ("range", .callable .range), ("dict", .callable .dict)]

/-- A variable of the template, or else a member of the value, or else a function. -/
def lookup? (inputs : Inputs) (name : String) : Evaluate (Option Value) := do
  return ((lookupFrames name (← get).frames).or (inputs.root.attribute? name)).or (globals.lookup name)

/-- Sets a variable; blocks with parameters that are named in the same place see the change. -/
def setVariable (name : String) (value : Value) : Evaluate Unit :=
  modify fun progress => match progress.frames with
    | [] => { progress with frames := [{ bindings := [(name, value)] }] }
    | frame :: rest =>
      { progress with
        frames := { frame with bindings := (name, value) :: frame.bindings } :: rest
        closures := match frame.closure with
          | some number => progress.closures.modify number ((name, value) :: ·)
          | none => progress.closures }

def assign (target : Target) (value : Value) : Evaluate Unit :=
  match target, value with
  | .one name, value => setVariable name value
  | .many names, .list items =>
    if names.length == items.length then
      (names.zip items).forM fun (name, item) => setVariable name item
    else fail "cannot unpack: sequence of wrong length"
  | .many _, _ => fail "cannot unpack: not a sequence"

/-- Runs something with a frame of its own. -/
def inFrame (frame : Frame) (run : Evaluate α) : Evaluate α := do
  modify fun progress => { progress with frames := frame :: progress.frames }
  let result ← run
  modify fun progress => { progress with frames := progress.frames.drop 1 }
  return result

/-- Runs something that is handed a value. -/
def capturing (value : Value) (run : Evaluate α) : Evaluate α := do
  let outer := (← get).captured
  modify fun progress => { progress with captured := value }
  let result ← run
  modify fun progress => { progress with captured := outer }
  return result

/-- The output of a block as a value. -/
def outputValue (output : String) : Evaluate Value := do
  return .text output (← get).safe

/-- The variables that a block with parameters sees if it is named here. -/
def enclose : Evaluate Nat := do
  let progress ← get
  let visible := progress.frames.flatMap Frame.bindings
  match progress.frames with
  | { closure := some number, .. } :: _ =>
    set { progress with closures := progress.closures.modify number (· ++ visible) }
    return number
  | frames =>
    let number := progress.closures.length
    set { progress with
      closures := progress.closures ++ [visible]
      frames := match frames with
        | frame :: rest => { frame with closure := some number } :: rest
        | [] => [{ closure := some number }] }
    return number

/-- A block with parameters as a value. -/
def defineBlock (name : String) (parameters : List String) (defaults : List Expr) (asks : Bool)
    (body : List Statement) : Evaluate Value := do
  let closure ← enclose
  let number := (← get).macros.length
  modify fun progress =>
    { progress with macros := progress.macros ++ [⟨parameters, defaults, asks, body, closure⟩] }
  return .callable (.block name number)

/-- Only what is defined has members that may be missing. -/
def memberOf (container : Value) (found : Option Value) : Evaluate Value :=
  match found with
  | some value => return value
  | none => if container.isUndefined then fail "undefined value" else return .undefined

/-- Calls a function for sections. -/
def ask (function : PartFunction) (argument : String) : Evaluate Value :=
  (Dialogue.call function argument .ended : Dialogue Value)

private def bounds? (arguments : List Value) : Option (Int × Int × Int) :=
  match arguments.map Value.asInt? with
  | [some stop] => some (0, stop, 1)
  | [some start, some stop] => some (start, stop, 1)
  | [some start, some stop, some step] => some (start, stop, step)
  | _ => none

def rangeOf (arguments : List Value) : Evaluate Value :=
  match bounds? arguments with
  | none => fail "range needs numbers"
  | some (start, stop, step) =>
    if step ≤ 0 then fail "cannot create range with step of 0"
    else
      let count := ((stop - start + step - 1) / step).toNat
      if 100000 < count then fail "range has too many elements"
      else return .list ((List.range count).map fun (i : Nat) => .integer (start + step * (i : Int)))

/-- Calls a value. -/
def callValue (invoke : Invoke) (function : Value) (arguments : List Value) (named : Named) :
    Evaluate Value :=
  match function with
  | .callable (.block _ number) => invoke (.defined number) arguments named
  | .callable (.part function) =>
    match arguments, named with
    | [kind], [] => ask function kind.display
    | _, _ => fail "section functions take the name of a section"
  | .callable .range => if named.isEmpty then rangeOf arguments else fail "too many arguments"
  | .callable .dict => do
    let start ← match arguments with
      | [] => pure []
      | [.map entries] => pure entries
      | _ => fail "dict needs a map"
    return .ofEntries (start ++ named.map fun (name, value) => (.ofString name, value))
  | _ => fail "value is not callable"

/-- One of the arguments for each round of a loop, over and over. -/
def cycled (loop : Value) (arguments : List Value) : Evaluate Value :=
  match (loop.attribute? "index0").bind Value.asInt? with
  | some round =>
    match arguments[round.toNat % arguments.length]? with
    | some value => return value
    | none => fail "cycle needs arguments"
  | none => fail "unknown method"

/-- Calls what a name stands for once the arguments are there. A loop is called to run again. -/
def callName (inputs : Inputs) (invoke : Invoke) (name : String) (arguments : List Value)
    (named : Named) : Evaluate Value := do
  if name == "loop" then
    match (← get).frames.findSome? Frame.running with
    | some running =>
      if running.recursive then invoke (.again running) arguments named
      else fail "cannot recurse outside of recursive loop"
    | none => fail "cannot recurse outside of loop"
  else
    match ← lookup? inputs name with
    | some function => callValue invoke function arguments named
    | none => fail "unknown function"

def callMember (invoke : Invoke) (container : Value) (name : String) (arguments : List Value)
    (named : Named) : Evaluate Value :=
  match container.attribute? name with
  | some function => callValue invoke function arguments named
  | none => if name == "cycle" then cycled container arguments else fail "unknown method"

mutual

def evaluate (inputs : Inputs) (invoke : Invoke) : Expr → Evaluate Value
  | .undefined => return .undefined
  | .null => return .null
  | .bool value => return .bool value
  | .integer value => return .integer value
  | .decimal written => return .decimal (Text.decimalNumber written.toList)
  | .string written => return .ofString written
  | .captured => return (← get).captured
  | .variable_ name => return (← lookup? inputs name).getD .undefined
  | .list items => return .list (← evaluateAll inputs invoke items)
  | .map keys values => do
    let keys ← evaluateAll inputs invoke keys
    let values ← evaluateAll inputs invoke values
    return .ofEntries (keys.zip values)
  | .negate operand => do
    let value ← evaluate inputs invoke operand
    value.negate
  | .not operand => return .bool !(← evaluate inputs invoke operand).isTrue
  | .binary operator left right => do
    let left ← evaluate inputs invoke left
    if operator == .or && left.isTrue then return left
    else if operator == .and && !left.isTrue then return left
    else
      let right ← evaluate inputs invoke right
      Value.apply operator left right
  | .choice condition yes no => do
    if (← evaluate inputs invoke condition).isTrue then evaluate inputs invoke yes else evaluate inputs invoke no
  | .attribute container name => do
    let container ← evaluate inputs invoke container
    memberOf container (container.attribute? name)
  | .item container index => do
    let container ← evaluate inputs invoke container
    let index ← evaluate inputs invoke index
    memberOf container (container.member? index)
  | .slice container start stop step => do
    let container ← evaluate inputs invoke container
    let start ← evaluate inputs invoke start
    let stop ← evaluate inputs invoke stop
    let step ← evaluate inputs invoke step
    container.slice start stop step
  | .callNamed name arguments names named => do
    let arguments ← evaluateAll inputs invoke arguments
    let named := names.zip (← evaluateAll inputs invoke named)
    callName inputs invoke name arguments named
  | .callMember container name arguments names named => do
    let container ← evaluate inputs invoke container
    let arguments ← evaluateAll inputs invoke arguments
    let named := names.zip (← evaluateAll inputs invoke named)
    callMember invoke container name arguments named
  | .callValue function arguments names named => do
    let function ← evaluate inputs invoke function
    let arguments ← evaluateAll inputs invoke arguments
    let named := names.zip (← evaluateAll inputs invoke named)
    callValue invoke function arguments named
  | .blockOutput name => invoke (.block name) [] []
  | .filter name subject arguments names named => do
    let subject ← evaluate inputs invoke subject
    let arguments ← evaluateAll inputs invoke arguments
    let named := names.zip (← evaluateAll inputs invoke named)
    Filter.run name subject arguments named
  | .test name subject arguments => do
    let subject ← evaluate inputs invoke subject
    let arguments ← evaluateAll inputs invoke arguments
    return .bool (← Test.run name subject arguments)

def evaluateAll (inputs : Inputs) (invoke : Invoke) : List Expr → Evaluate (List Value)
  | [] => return []
  | expr :: rest => do
    let value ← evaluate inputs invoke expr
    return value :: (← evaluateAll inputs invoke rest)

end

/-- What a template writes for a value: text that is not safe is made inert. -/
def shown (escape : String → String) : Value → String
  | .undefined | .null => ""
  | .text written true => written
  | other => escape other.display

/-- Whether the output of statements that an expression runs is written as it is. -/
def writesDirectly : Expr → Bool
  | .callNamed "loop" [_] [] [] | .blockOutput _ => true
  | _ => false

/-- The variable that describes a round of a loop. -/
private def loopValue (items : List Value) (round depth : Nat) : Value :=
  let item (found : Option Value) : Value := found.getD .undefined
  .ofEntries (([("index0", .ofNat round), ("index", .ofNat (round + 1)),
    ("revindex", .ofNat (items.length - round)), ("revindex0", .ofNat (items.length - round - 1)),
    ("first", .bool (round == 0)), ("last", .bool (round + 1 == items.length)),
    ("length", .ofNat items.length), ("depth", .ofNat (depth + 1)), ("depth0", .ofNat depth),
    ("previtem", if round == 0 then .undefined else item items[round - 1]?),
    ("nextitem", item items[round + 1]?)] : List (String × Value)).map fun (name, value) =>
      (.ofString name, value))

/-- How many recursive loops a loop is in that starts here. -/
def loopDepth : Evaluate Nat := do
  match (← get).frames.findSome? Frame.running with
  | some running => return if running.recursive then running.depth + 1 else 0
  | none => return 0

/-- Whether output counts as safe in a block with this mode. -/
def safeIn (mode : Value) : Evaluate Bool :=
  match mode with
  | .text "html" _ => return true
  | .text "none" _ => return false
  | .text .. => fail "invalid value to autoescape tag"
  | mode => return mode.equal (.bool true)

/-- There is no other template, so that including is for nothing or fails. -/
def including (name : Value) (optional : Bool) : Evaluate Unit :=
  let choices := match name with
    | .list items => items
    | .map entries => entries.map Prod.fst
    | .callable _ => []
    | other => [other]
  if !choices.all Value.isText then fail "template name was not a string"
  else if choices.isEmpty || optional then return ()
  else fail "template not found"

mutual

def run (inputs : Inputs) (invoke : Invoke) : Statement → Evaluate String
  | .data written => return written
  | .value expr => do
    let value ← evaluate inputs invoke expr
    return if writesDirectly expr then value.display else shown inputs.escape value
  | .branch condition yes no => do
    if (← evaluate inputs invoke condition).isTrue then runAll inputs invoke yes else runAll inputs invoke no
  | .loop target items condition body otherwise recursive => do
    match (← evaluate inputs invoke items).items? with
    | none => fail "value is not iterable"
    | some items =>
      let kept ← items.filterM fun item => inFrame {} do
        assign target item
        return (← evaluate inputs invoke condition).isTrue
      if kept.isEmpty then runAll inputs invoke otherwise
      else
        let depth ← loopDepth
        let running : Running :=
          ⟨.loop target .captured condition body otherwise recursive, recursive, depth⟩
        inFrame { running := some running } do
          let rounds ← kept.zipIdx.mapM fun (item, round) => do
            setVariable "loop" (loopValue kept round depth)
            assign target item
            runAll inputs invoke body
          return String.join rounds
  | .assign target expr => do
    assign target (← evaluate inputs invoke expr)
    return ""
  | .capture name expr body => do
    let output ← outputValue (← runAll inputs invoke body)
    setVariable name (← capturing output (evaluate inputs invoke expr))
    return ""
  | .scope targets values body => inFrame {} do
    assignAll inputs invoke targets values
    runAll inputs invoke body
  | .filtered expr body => do
    let output ← outputValue (← runAll inputs invoke body)
    return shown inputs.escape (← capturing output (evaluate inputs invoke expr))
  | .autoescape mode body => do
    let safe ← safeIn (← evaluate inputs invoke mode)
    let outer := (← get).safe
    modify fun progress => { progress with safe }
    let output ← runAll inputs invoke body
    modify fun progress => { progress with safe := outer }
    return output
  | .block _ body => inFrame {} (runAll inputs invoke body)
  | .perform call => do
    let _ ← evaluate inputs invoke call
    return ""
  | .define name parameters defaults asks body => do
    setVariable name (← defineBlock name parameters defaults asks body)
    return ""
  | .callWith parameters defaults asks call body => do
    let block ← defineBlock "caller" parameters defaults asks body
    return shown inputs.escape (← capturing block (evaluate inputs invoke call))
  | .inclusion name optional => do
    including (← evaluate inputs invoke name) optional
    return ""
  | .imported name target value => do
    including (← evaluate inputs invoke name) false
    assign target (← evaluate inputs invoke value)
    return ""
  | .extension name => do
    let _ ← evaluate inputs invoke name
    fail "template not found"

def runAll (inputs : Inputs) (invoke : Invoke) : List Statement → Evaluate String
  | [] => return ""
  | statement :: rest => do
    let output ← run inputs invoke statement
    return output ++ (← runAll inputs invoke rest)

def assignAll (inputs : Inputs) (invoke : Invoke) : List Target → List Expr → Evaluate Unit
  | target :: targets, expr :: rest => do
    assign target (← evaluate inputs invoke expr)
    assignAll inputs invoke targets rest
  | _, _ => return ()

end

/-- The parameters with their arguments, by position and then by name. The block of a call is one more
argument for bodies that ask for it. -/
def bindArguments (block : Macro) (arguments : List Value) (named : Named) : Evaluate Scope := do
  let (caller, named) := if block.asks then named.partition fun (name, _) => name == "caller"
    else ([], named)
  if block.parameters.length < arguments.length then fail "too many arguments"
  else
    let open_ := block.parameters.drop arguments.length
    if named.all fun (name, _) => open_.contains name then
      let given := block.parameters.zip arguments ++ named
      return caller ++ block.parameters.map fun name => (name, (given.lookup name).getD .undefined)
    else fail "unknown or duplicate argument"

/-- Sets the parameters that have no argument to their default values. -/
def setDefaults (inputs : Inputs) (invoke : Invoke) (block : Macro) : Evaluate Unit :=
  let optional := block.parameters.drop (block.parameters.length - block.defaults.length)
  (optional.zip block.defaults).forM fun (name, expr) => do
    if ((lookupFrames name (← get).frames).getD .undefined).isUndefined then
      setVariable name (← evaluate inputs invoke expr)

/-- How deep statements can be run from inside each other. -/
def maxCallDepth : Nat := 125

/-- Runs statements from inside an expression. A block with parameters sees these and what was there when it
was named. -/
def invokeAt (inputs : Inputs) : Nat → Invoke
  | 0, _, _, _ => fail "recursion limit exceeded"
  | depth + 1, routine, arguments, named => do
    let invoke := invokeAt inputs depth
    match routine with
    | .defined number =>
      match (← get).macros[number]? with
      | none => fail "value is not callable"
      | some block =>
        let scope ← bindArguments block arguments named
        let progress ← get
        let outer := progress.frames
        let seen := progress.closures[block.closure]?.getD []
        set { progress with frames := [{ bindings := scope }, { bindings := seen }] }
        setDefaults inputs invoke block
        let output ← runAll inputs invoke block.body
        modify fun progress => { progress with frames := outer }
        outputValue output
    | .again running =>
      match arguments, named with
      | [items], [] => outputValue (← capturing items (run inputs invoke running.loop))
      | _, _ => fail "loop takes one argument"
    | .block name =>
      match inputs.blocks.lookup name with
      | some body => outputValue (← inFrame {} (runAll inputs invoke body))
      | none => fail "block not found"

/-- Renders a template. -/
def interpret (root : Value) (escape : String → String) (template : String) : Dialogue String := do
  let statements ← parse template
  let inputs : Inputs := ⟨root, escape, Statement.blocksAll statements⟩
  let (output, _) ← (runAll inputs (invokeAt inputs maxCallDepth) statements).run {}
  return output

end DocComment.Template
