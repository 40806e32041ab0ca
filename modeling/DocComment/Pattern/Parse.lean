import DocComment.Pattern.Basic
import DocComment.Text.Basic

namespace DocComment.Pattern

/-- Why a text is no pattern. -/
inductive Fault where
  | unclosedGroup
  | unopenedGroup
  | unclosedClass
  | missingOperand
  | badRepetition
  | badEscape
  | badRange
  | badClass
  | badFlag
  | badGroupName
  | duplicateGroupName (name : String)
  | lookaround
  | tooDeep
  deriving Repr, DecidableEq

/-- A property of characters: its name, and one of its values if it has several. -/
structure PropertyName where
  name : String
  value : Option String := none
  deriving Repr, DecidableEq

/-- The characters with each property that there is, as ranges. -/
abbrev Properties := PropertyName → Option (List (Char × Char))

/-- How a pattern is read. -/
structure Flags where
  properties : Properties
  caseless : Bool := false
  multiLine : Bool := false
  dotAll : Bool := false
  swapGreed : Bool := false
  unicode : Bool := true
  verbose : Bool := false

/-- What is left to read and the groups seen so far. -/
structure Progress where
  rest : List Char
  groups : Nat := 0
  /-- Named groups with their indices. -/
  names : List (String × Nat) := []
  deriving Repr, DecidableEq

def charSet (flags : Flags) (first last : Char) : CharSet :=
  if flags.caseless then .caseless (.range first last) else .range first last

def rangeSet (ranges : List (Char × Char)) : CharSet :=
  ranges.foldr (fun (first, last) set => .union (.range first last) set) .none

def wordSet (flags : Flags) : CharSet :=
  if flags.unicode then .word else rangeSet [('a', 'z'), ('A', 'Z'), ('0', '9'), ('_', '_')]

def digitSet (flags : Flags) : CharSet :=
  if flags.unicode then .digit else rangeSet [('0', '9')]

def blankSet (flags : Flags) : CharSet :=
  if flags.unicode then .blank else rangeSet [('\t', '\r'), (' ', ' ')]

/-- The named classes of ASCII characters. -/
def asciiClass? (name : String) : Option CharSet :=
  match name with
  | "alnum" => some (rangeSet [('0', '9'), ('A', 'Z'), ('a', 'z')])
  | "alpha" => some (rangeSet [('A', 'Z'), ('a', 'z')])
  | "ascii" => some (rangeSet [('\x00', '\x7f')])
  | "blank" => some (rangeSet [('\t', '\t'), (' ', ' ')])
  | "cntrl" => some (rangeSet [('\x00', '\x1f'), ('\x7f', '\x7f')])
  | "digit" => some (rangeSet [('0', '9')])
  | "graph" => some (rangeSet [('!', '~')])
  | "lower" => some (rangeSet [('a', 'z')])
  | "print" => some (rangeSet [(' ', '~')])
  | "punct" => some (rangeSet [('!', '/'), (':', '@'), ('[', '`'), ('\x7b', '~')])
  | "space" => some (rangeSet [('\t', '\r'), (' ', ' ')])
  | "upper" => some (rangeSet [('A', 'Z')])
  | "word" => some (rangeSet [('0', '9'), ('A', 'Z'), ('_', '_'), ('a', 'z')])
  | "xdigit" => some (rangeSet [('0', '9'), ('A', 'F'), ('a', 'f')])
  | _ => none

/-- What one escape or character stands for. -/
inductive Atom where
  | char (c : Char)
  | set (set : CharSet)
  | anchor (anchor : Anchor)
  deriving Repr, DecidableEq

def hexNumber? (digits : List Char) : Option Char :=
  if digits.isEmpty then none
  else (digits.mapM Text.hexDigit?).bind fun values =>
    let code := values.foldl (fun n d => 16 * n + d) 0
    if code < 0xD800 || (0xE000 ≤ code && code ≤ 0x10FFFF) then some (Char.ofNat code) else none

/-- Blanks and comments do not count in verbose patterns. -/
def skipVerbose (flags : Flags) : Nat → List Char → List Char
  | 0, text => text
  | _, [] => []
  | fuel + 1, c :: rest =>
    if !flags.verbose then c :: rest
    else if Unicode.isWhite c then skipVerbose flags fuel rest
    else if c == '#' then skipVerbose flags fuel ((rest.dropWhile (· != '\n')).drop 1)
    else c :: rest

def skipSpace (flags : Flags) (text : List Char) : List Char :=
  skipVerbose flags text.length text

/-- What is written in braces, after the opening one. -/
def braced (flags : Flags) : Nat → List Char → Option (List Char × List Char)
  | 0, _ => none
  | fuel + 1, text =>
    match skipSpace flags text with
    | [] => none
    | c :: rest =>
      if c == '\x7d' then some ([], rest)
      else (braced flags fuel rest).map fun (written, after) => (c :: written, after)

/-- The next `count` characters. -/
def counted (flags : Flags) : Nat → List Char → Option (List Char × List Char)
  | 0, text => some ([], text)
  | count + 1, text =>
    match skipSpace flags text with
    | [] => none
    | c :: rest => (counted flags count rest).map fun (written, after) => (c :: written, after)

/-- The digits of a code point: in braces, or `width` of them. -/
def codeDigits (flags : Flags) (width : Nat) (text : List Char) : Option (List Char × List Char) :=
  match skipSpace flags text with
  | '\x7b' :: rest => braced flags (rest.length + 1) rest
  | _ => counted flags width text

/-- A code point in hexadecimal. -/
def hexAtom (flags : Flags) (width : Nat) (text : List Char) : Except Fault (Atom × List Char) :=
  match codeDigits flags width text with
  | some (digits, after) =>
    match hexNumber? digits with
    | some c => .ok (.char c, after)
    | none => .error .badEscape
  | none => .error .badEscape

/-- A text around the first place where a separator stands. -/
def cutAt (separator : List Char) : List Char → Option (List Char × List Char)
  | [] => none
  | c :: rest =>
    match Text.stripStart separator (c :: rest) with
    | some after => some ([], after)
    | none => (cutAt separator rest).map fun (before, after) => (c :: before, after)

/-- The property that is written in braces, and whether it is asked for the characters without it. -/
def propertyName (written : List Char) : PropertyName × Bool :=
  let valued (parts : List Char × List Char) : PropertyName :=
    ⟨String.ofList parts.1, some (String.ofList parts.2)⟩
  match cutAt ['!', '='] written, (cutAt [':'] written).or (cutAt ['='] written) with
  | some parts, _ => (valued parts, true)
  | none, some parts => (valued parts, false)
  | none, none => (⟨String.ofList written, none⟩, false)

/-- The characters with a property, or those without it. -/
def propertySet (flags : Flags) (negated : Bool) (property : PropertyName) : Except Fault CharSet :=
  match if flags.unicode then flags.properties property else none with
  | some ranges =>
    let set := if flags.caseless then .caseless (rangeSet ranges) else rangeSet ranges
    .ok (if negated then .compl set else set)
  | none => .error .badClass

/-- The property after the letter of its escape: a name in braces, or one more letter. -/
def propertyAfter (flags : Flags) (text : List Char) : Option ((PropertyName × Bool) × List Char) :=
  match skipSpace flags text with
  | [] | '\\' :: _ => none
  | '\x7b' :: rest =>
    (braced flags (rest.length + 1) rest).map fun (written, after) => (propertyName written, after)
  | c :: rest => some ((⟨String.singleton c, none⟩, false), rest)

/-- A class by property, after the letter of its escape. -/
def propertyAtom (flags : Flags) (negated : Bool) (text : List Char) : Except Fault (Atom × List Char) :=
  match propertyAfter flags text with
  | some ((property, without), after) =>
    (propertySet flags (negated != without) property).map fun set => (.set set, after)
  | none => .error .badEscape

/-- The boundaries of words that have names. -/
def namedBoundaries : List (String × Anchor) :=
  [("start", .wordStart), ("end", .wordEnd), ("start-half", .wordStartHalf), ("end-half", .wordEndHalf)]

/-- A boundary of words with its name, after the opening brace. -/
def namedBoundary (flags : Flags) (text : List Char) : Except Fault (Atom × List Char) :=
  match braced flags (text.length + 1) text with
  | some (written, after) =>
    match namedBoundaries.lookup (String.ofList written) with
    | some anchor => .ok (.anchor anchor, after)
    | none => .error .badEscape
  | none => .error .badEscape

/-- A boundary of words. Braces hold its name if they start like one; otherwise they are bounds. -/
def boundaryAtom (flags : Flags) (text : List Char) : Except Fault (Atom × List Char) :=
  match text with
  | '\x7b' :: rest =>
    match skipSpace flags rest with
    | [] => .error .badEscape
    | c :: _ => if c.isAlpha || c == '-' then namedBoundary flags rest else .ok (.anchor .wordBoundary, text)
  | _ => .ok (.anchor .wordBoundary, text)

/-- An escape after its backslash. -/
def escapeAtom (flags : Flags) (text : List Char) : Except Fault (Atom × List Char) :=
  match text with
  | [] => .error .badEscape
  | c :: rest =>
    match c with
    | 'd' => .ok (.set (digitSet flags), rest)
    | 'D' => .ok (.set (.compl (digitSet flags)), rest)
    | 's' => .ok (.set (blankSet flags), rest)
    | 'S' => .ok (.set (.compl (blankSet flags)), rest)
    | 'w' => .ok (.set (wordSet flags), rest)
    | 'W' => .ok (.set (.compl (wordSet flags)), rest)
    | 'A' => .ok (.anchor .textStart, rest)
    | 'z' => .ok (.anchor .textEnd, rest)
    | 'b' => boundaryAtom flags rest
    | 'B' => .ok (.anchor .noWordBoundary, rest)
    | '<' => .ok (.anchor .wordStart, rest)
    | '>' => .ok (.anchor .wordEnd, rest)
    | 'a' => .ok (.char '\x07', rest)
    | 'f' => .ok (.char '\x0c', rest)
    | 't' => .ok (.char '\t', rest)
    | 'n' => .ok (.char '\n', rest)
    | 'r' => .ok (.char '\r', rest)
    | 'v' => .ok (.char '\x0b', rest)
    | 'x' => hexAtom flags 2 rest
    | 'u' => hexAtom flags 4 rest
    | 'U' => hexAtom flags 8 rest
    | 'p' => propertyAtom flags false rest
    | 'P' => propertyAtom flags true rest
    | _ => if c.toNat < 128 && !c.isAlphanum then .ok (.char c, rest) else .error .badEscape

def classAtom (flags : Flags) (text : List Char) : Except Fault (Atom × List Char) :=
  match text with
  | [] => .error .unclosedClass
  | '\\' :: rest => escapeAtom flags rest
  | c :: rest => .ok (.char c, rest)

def atomSet (flags : Flags) : Atom → Except Fault CharSet
  | .char c => .ok (charSet flags c c)
  | .set set => .ok set
  | .anchor _ => .error .badClass

/-- A character, a range or an escaped class inside brackets. -/
def classItem (flags : Flags) (text : List Char) : Except Fault (CharSet × List Char) := do
  let (first, afterFirst) ← classAtom flags text
  let next := skipSpace flags afterFirst
  match next with
  | [] => .error .unclosedClass
  | '-' :: tail =>
    match skipSpace flags tail with
    | [] => .error .unclosedClass
    | ']' :: _ => return (← atomSet flags first, next)
    | '-' :: _ => return (← atomSet flags first, next)
    | start => do
      let (last, after) ← classAtom flags start
      match first, last with
      | .char low, .char high =>
        if low ≤ high then return (charSet flags low high, after) else .error .badRange
      | _, _ => .error .badRange
  | _ => return (← atomSet flags first, next)

/-- A named class of ASCII characters after its opening bracket. -/
def namedClass? (flags : Flags) (text : List Char) : Option (CharSet × List Char) :=
  match text with
  | ':' :: rest =>
    let (negated, body) := match rest with
      | '^' :: body => (true, body)
      | body => (false, body)
    let name := body.takeWhile (· != ':')
    match body.drop name.length, asciiClass? (String.ofList name) with
    | ':' :: ']' :: after, some set =>
      let set := if flags.caseless then .caseless set else set
      some (if negated then .compl set else set, after)
    | _, _ => none
  | _ => none

inductive ClassOperator where
  | inter
  | diff
  | symmDiff
  deriving Repr, DecidableEq

/-- A class under construction: what an operator is waiting for, and the union after it. -/
structure ClassPart where
  pending : Option (CharSet × ClassOperator) := none
  set : CharSet := .none

namespace ClassPart

def add (part : ClassPart) (set : CharSet) : ClassPart :=
  { part with set := match part.set with
    | .none => set
    | earlier => .union earlier set }

/-- Operators apply from left to right. -/
def value (part : ClassPart) : CharSet :=
  match part.pending with
  | none => part.set
  | some (left, .inter) => .inter left part.set
  | some (left, .diff) => .diff left part.set
  | some (left, .symmDiff) => .symmDiff left part.set

def operator (part : ClassPart) (operator : ClassOperator) : ClassPart :=
  { pending := some (part.value, operator) }

end ClassPart

/-- The start of a class: a caret negates it, and hyphens and a bracket stand for themselves. -/
def classStart (flags : Flags) (text : List Char) : Bool × ClassPart × List Char :=
  let text := skipSpace flags text
  let (negated, text) := match text with
    | '^' :: rest => (true, skipSpace flags rest)
    | _ => (false, text)
  let hyphens := (text.takeWhile (· == '-')).length
  let rest := skipSpace flags (text.drop hyphens)
  let part : ClassPart := if hyphens == 0 then {} else { set := charSet flags '-' '-' }
  match if hyphens == 0 then rest else [] with
  | ']' :: after => (negated, part.add (charSet flags ']' ']'), after)
  | _ => (negated, part, rest)

/-- A class in brackets, after the opening one. -/
def classBody (flags : Flags) : Nat → Bool → ClassPart → List Char → Except Fault (CharSet × List Char)
  | 0, _, _, _ => .error .tooDeep
  | fuel + 1, negated, part, text =>
    match skipSpace flags text with
    | [] => .error .unclosedClass
    | ']' :: rest => .ok (if negated then .compl part.value else part.value, rest)
    | '&' :: '&' :: rest => classBody flags fuel negated (part.operator .inter) rest
    | '-' :: '-' :: rest => classBody flags fuel negated (part.operator .diff) rest
    | '~' :: '~' :: rest => classBody flags fuel negated (part.operator .symmDiff) rest
    | '[' :: rest =>
      match namedClass? flags rest with
      | some (set, after) => classBody flags fuel negated (part.add set) after
      | none =>
        let (innerNegated, inner, start) := classStart flags rest
        match classBody flags fuel innerNegated inner start with
        | .ok (set, after) => classBody flags fuel negated (part.add set) after
        | .error fault => .error fault
    | start =>
      match classItem flags start with
      | .ok (set, after) => classBody flags fuel negated (part.add set) after
      | .error fault => .error fault

def charClass (flags : Flags) (text : List Char) : Except Fault (CharSet × List Char) :=
  let (negated, part, start) := classStart flags text
  classBody flags (text.length + 1) negated part start

/-- Largest number in a repetition. -/
def maxRepetition : Nat := 4294967295

/-- Decimal digits, and what follows them. -/
def decimalDigits (flags : Flags) : Nat → List Char → List Char × List Char
  | 0, text => ([], text)
  | _, [] => ([], [])
  | fuel + 1, c :: rest =>
    if c.isDigit then
      let (more, after) := decimalDigits flags fuel (skipSpace flags rest)
      (c :: more, after)
    else ([], c :: rest)

def repetitionNumber (flags : Flags) (text : List Char) : Except Fault (Nat × List Char) :=
  let start := text.dropWhile Unicode.isWhite
  let (digits, rest) := decimalDigits flags start.length start
  let value := Text.decimalValue digits
  if digits.isEmpty || maxRepetition < value then .error .badRepetition
  else .ok (value, rest.dropWhile Unicode.isWhite)

/-- The upper one of two bounds, after the comma; without a number there is none. -/
def upperBound (flags : Flags) (least : Nat) (text : List Char) : Except Fault (Option Nat × List Char) := do
  match text with
  | '\x7d' :: rest => return (none, rest)
  | _ =>
    let (most, after) ← repetitionNumber flags text
    match after with
    | '\x7d' :: rest => if least ≤ most then return (some most, rest) else .error .badRepetition
    | _ => .error .badRepetition

/-- Bounds in braces, after the opening one. -/
def bounds (flags : Flags) (text : List Char) : Except Fault (Nat × Option Nat × List Char) := do
  let (least, after) ← repetitionNumber flags (skipSpace flags text)
  match after with
  | '\x7d' :: rest => return (least, some least, rest)
  | ',' :: rest =>
    let (most, last) ← upperBound flags least (skipSpace flags rest)
    return (least, most, last)
  | _ => .error .badRepetition

/-- Blanks may come before the mark that makes bounds lazy. -/
def afterBounds (flags : Flags) (text : List Char) : List Char :=
  match skipSpace flags text with
  | '?' :: rest => '?' :: rest
  | _ => text

def flagOf? (flags : Flags) (on : Bool) (c : Char) : Option Flags :=
  match c with
  | 'i' => some { flags with caseless := on }
  | 'm' => some { flags with multiLine := on }
  | 's' => some { flags with dotAll := on }
  | 'U' => some { flags with swapGreed := on }
  | 'u' => some { flags with unicode := on }
  | 'x' => some { flags with verbose := on }
  | 'R' => some flags
  | _ => none

/-- Flags up to a colon or a parenthesis: the new flags, whether a body follows, and the rest. Each
flag occurs once, and a hyphen comes before at least one. -/
def flagList (flags : Flags) (on : Bool) (seen : List Char) :
    List Char → Except Fault (Flags × Bool × List Char)
  | [] => .error .unclosedGroup
  | c :: rest =>
    if c == ':' || c == ')' then
      if seen.head? == some '-' then .error .badFlag
      else if c == ')' && seen.isEmpty then .error .missingOperand
      else .ok (flags, c == ':', rest)
    else if seen.contains c then .error .badFlag
    else if c == '-' then flagList flags false ('-' :: seen) rest
    else match flagOf? flags on c with
      | some changed => flagList changed on (c :: seen) rest
      | none => .error .badFlag

def isNameStart (c : Char) : Bool :=
  c == '_' || (Unicode.isWord c && !Unicode.isDecimalDigit c)

def isNameRest (c : Char) : Bool :=
  isNameStart c || Unicode.isDecimalDigit c || Unicode.isOtherNumber c || c == '.' || c == '[' || c == ']'

/-- A group name up to its closing angle bracket. -/
def groupName (names : List (String × Nat)) (text : List Char) :
    Except Fault (String × List Char) :=
  let name := text.takeWhile (· != '>')
  match text.drop name.length, name with
  | '>' :: rest, c :: tail =>
    let written := String.ofList name
    if !(isNameStart c && tail.all isNameRest) then .error .badGroupName
    else if (names.lookup written).isSome then .error (.duplicateGroupName written)
    else .ok (written, rest)
  | _, _ => .error .badGroupName

/-- How a group starts. -/
inductive GroupStart where
  | capture (name : Option String)
  | plain (flags : Flags)
  | setFlags (flags : Flags)

/-- Reads the marks of a group up to its body. -/
def groupMarks (flags : Flags) (names : List (String × Nat)) (text : List Char) :
    Except Fault (GroupStart × List Char) := do
  match text with
  | '?' :: 'P' :: '<' :: rest => let (name, after) ← groupName names rest; return (.capture (some name), after)
  | '?' :: '=' :: _ | '?' :: '!' :: _ | '?' :: '<' :: '=' :: _ | '?' :: '<' :: '!' :: _ => .error .lookaround
  | '?' :: '<' :: rest => let (name, after) ← groupName names rest; return (.capture (some name), after)
  | '?' :: rest =>
    let (changed, body, after) ← flagList flags true [] rest
    return (if body then .plain changed else .setFlags changed, after)
  | _ => return (.capture none, text)

/-- Reads what follows an opening parenthesis up to the body of the group. -/
def groupStart (flags : Flags) (names : List (String × Nat)) (text : List Char) :
    Except Fault (GroupStart × List Char) :=
  groupMarks flags names (skipSpace flags text)

/-- One branch of alternatives, last item first; flag settings leave a gap that nothing repeats. -/
abbrev Branch := List (Option Regex)

def Branch.regex (branch : Branch) : Regex :=
  match branch.filterMap id with
  | [] => .empty
  | last :: earlier => earlier.foldl (fun rest item => .cat item rest) last

def alternatives (branches : List Branch) (last : Branch) : Regex :=
  branches.foldl (fun rest branch => .alt (Branch.regex branch) rest) (Branch.regex last)

def atomRegex (flags : Flags) : Atom → Regex
  | .char c => .set (charSet flags c c)
  | .set set => .set set
  | .anchor anchor => .anchor anchor

/-- Repeats the last item of a branch. -/
def repeatLast (flags : Flags) (branch : Branch) (least : Nat) (most : Option Nat)
    (text : List Char) : Except Fault (Branch × List Char) :=
  match branch with
  | some item :: earlier =>
    let (lazy, after) := match text with
      | '?' :: rest => (true, rest)
      | _ => (false, text)
    .ok (some (.loop item least most (lazy == flags.swapGreed)) :: earlier, after)
  | _ => .error .missingOperand

/-- Reads alternatives up to a closing parenthesis or the end of the text. -/
def body : Nat → Flags → List Branch → Branch → Progress → Except Fault (Regex × Progress)
  | 0, _, _, _, _ => .error .tooDeep
  | fuel + 1, flags, branches, branch, progress =>
    let goOn (branch : Branch) (rest : List Char) :=
      body fuel flags branches branch { progress with rest }
    match skipSpace flags progress.rest with
    | [] => .ok (alternatives branches branch, { progress with rest := [] })
    | c :: rest =>
      match c with
      | ')' => .ok (alternatives branches branch, { progress with rest := c :: rest })
      | '|' => body fuel flags (branch :: branches) [] { progress with rest }
      | '(' =>
        match groupStart flags progress.names rest with
        | .error fault => .error fault
        | .ok (.setFlags changed, after) =>
          body fuel changed branches (none :: branch) { progress with rest := after }
        | .ok (start, after) =>
          let (inside, opened) : Flags × Progress := match start with
            | .capture name =>
              let index := progress.groups + 1
              (flags, { rest := after, groups := index
                        names := (name.toList.map fun name => (name, index)) ++ progress.names })
            | .plain changed | .setFlags changed => (changed, { progress with rest := after })
          match body fuel inside [] [] opened with
          | .error fault => .error fault
          | .ok (inner, closed) =>
            match closed.rest with
            | ')' :: next =>
              let group : Regex := match start with
                | .capture _ => .capture (progress.groups + 1) inner
                | _ => inner
              body fuel flags branches (some group :: branch) { closed with rest := next }
            | _ => .error .unclosedGroup
      | '[' =>
        match charClass flags rest with
        | .error fault => .error fault
        | .ok (set, after) => goOn (some (.set set) :: branch) after
      | '\\' =>
        match escapeAtom flags rest with
        | .error fault => .error fault
        | .ok (atom, after) => goOn (some (atomRegex flags atom) :: branch) after
      | '.' =>
        let set : CharSet := if flags.dotAll then .compl .none else .compl (.range '\n' '\n')
        goOn (some (.set set) :: branch) rest
      | '^' => goOn (some (.anchor (if flags.multiLine then .lineStart else .textStart)) :: branch) rest
      | '$' => goOn (some (.anchor (if flags.multiLine then .lineEnd else .textEnd)) :: branch) rest
      | '*' | '+' | '?' =>
        let least := if c == '+' then 1 else 0
        let most := if c == '?' then some 1 else none
        match repeatLast flags branch least most rest with
        | .error fault => .error fault
        | .ok (branch, after) => goOn branch after
      | '\x7b' =>
        if branch.head?.join.isNone then .error .missingOperand
        else match bounds flags rest with
          | .error fault => .error fault
          | .ok (least, most, next) =>
            match repeatLast flags branch least most (afterBounds flags next) with
            | .error fault => .error fault
            | .ok (branch, after) => goOn branch after
      | _ => goOn (some (.set (charSet flags c c)) :: branch) rest

/-- A pattern read from its text. -/
structure Compiled where
  regex : Regex
  /-- Named groups with their indices. -/
  names : List (String × Nat)
  deriving Repr, DecidableEq

def compile (text : List Char) (properties : Properties := fun _ => none) : Except Fault Compiled :=
  match body (text.length + 2) { properties } [] [] { rest := text } with
  | .error fault => .error fault
  | .ok (regex, progress) =>
    match progress.rest with
    | [] => .ok ⟨regex, progress.names⟩
    | _ => .error .unopenedGroup

/-- Whether the character has a meaning of its own in patterns. -/
def isMeta (c : Char) : Bool :=
  "\\.+*?()|[]\x7b\x7d^$#&-~".toList.contains c

/-- A pattern text that matches exactly the given text. -/
def quote (text : List Char) : List Char :=
  text.flatMap fun c => if isMeta c then ['\\', c] else [c]

end DocComment.Pattern
