import DocComment.Pattern.Parse

/-! How a pattern is read, as a relation: one rule for everything that can stand in a pattern. What holds of
every successful reading is then proved rule by rule. -/
namespace DocComment

variable {ε α β : Type}

/-- If two steps succeed, so does the first one, and the second one succeeds on its value. -/
theorem Except.exists_of_bind {first : Except ε α} {next : α → Except ε β} {result : β}
    (done : first.bind next = .ok result) : ∃ value, first = .ok value ∧ next value = .ok result := by
  cases first with
  | error fault => cases done
  | ok value => exact ⟨value, rfl, done⟩

theorem Except.exists_of_map {first : Except ε α} {change : α → β} {result : β}
    (done : first.map change = .ok result) : ∃ value, first = .ok value ∧ change value = result := by
  cases first with
  | error fault => cases done
  | ok value => exact ⟨value, rfl, Except.ok.inj done⟩

end DocComment

namespace DocComment.Pattern

/-- An item of a branch: everything but groups, bars and closing parentheses. -/
def readItem (flags : Flags) (branch : Branch) (c : Char) (rest : List Char) :
    Except Fault (Branch × List Char) :=
  match c with
  | '[' => (charClass flags rest).map fun (set, after) => (some (.set set) :: branch, after)
  | '\\' => (escapeAtom flags rest).map fun (atom, after) => (some (atomRegex flags atom) :: branch, after)
  | '.' =>
    .ok (some (.set (if flags.dotAll then .compl .none else .compl (.range '\n' '\n'))) :: branch, rest)
  | '^' => .ok (some (.anchor (if flags.multiLine then .lineStart else .textStart)) :: branch, rest)
  | '$' => .ok (some (.anchor (if flags.multiLine then .lineEnd else .textEnd)) :: branch, rest)
  | '*' | '+' | '?' =>
    repeatLast flags branch (if c == '+' then 1 else 0) (if c == '?' then some 1 else none) rest
  | '\x7b' =>
    if branch.head?.join.isNone then .error .missingOperand
    else (bounds flags rest).bind fun (least, most, next) =>
      repeatLast flags branch least most (afterBounds flags next)
  | _ => .ok (some (.set (charSet flags c c)) :: branch, rest)

/-- The flags and the progress inside a group. -/
def entered (flags : Flags) (progress : Progress) (after : List Char) : GroupStart → Flags × Progress
  | .capture name =>
    (flags, { rest := after, groups := progress.groups + 1
              names := (name.toList.map fun name => (name, progress.groups + 1)) ++ progress.names })
  | .plain changed | .setFlags changed => (changed, { progress with rest := after })

theorem entered_rest (flags : Flags) (progress : Progress) (after : List Char) (start : GroupStart) :
    (entered flags progress after start).2.rest = after := by
  cases start <;> rfl

/-- The flags inside a group do not depend on the groups before. -/
theorem entered_flags (flags : Flags) (progress other : Progress) (after rest : List Char)
    (start : GroupStart) : (entered flags progress after start).1 = (entered flags other rest start).1 := by
  cases start <;> rfl

/-- The item that a group becomes. -/
def grouped (progress : Progress) (inner : Regex) : GroupStart → Regex
  | .capture _ => .capture (progress.groups + 1) inner
  | _ => inner

/-- What a reading of alternatives gives back, and where it stops: at the end of the text or at a closing
parenthesis. -/
inductive Reads : Flags → List Branch → Branch → Progress → Regex → Progress → Prop where
  | ended {flags branches branch progress} (stop : skipSpace flags progress.rest = []) :
    Reads flags branches branch progress (alternatives branches branch) { progress with rest := [] }
  | closed {flags branches branch progress rest} (stop : skipSpace flags progress.rest = ')' :: rest) :
    Reads flags branches branch progress (alternatives branches branch) { progress with rest := ')' :: rest }
  | bar {flags branches branch progress rest regex last}
    (next : skipSpace flags progress.rest = '|' :: rest)
    (others : Reads flags (branch :: branches) [] { progress with rest } regex last) :
    Reads flags branches branch progress regex last
  | setFlags {flags branches branch progress rest changed after regex last}
    (next : skipSpace flags progress.rest = '(' :: rest)
    (start : groupStart flags progress.names rest = .ok (.setFlags changed, after))
    (others : Reads changed branches (none :: branch) { progress with rest := after } regex last) :
    Reads flags branches branch progress regex last
  | group {flags branches branch progress rest} {start : GroupStart} {after inner closing more regex last}
    (next : skipSpace flags progress.rest = '(' :: rest)
    (starts : groupStart flags progress.names rest = .ok (start, after))
    (holds : ∀ changed, start ≠ .setFlags changed)
    (inside : Reads (entered flags progress after start).1 [] [] (entered flags progress after start).2
      inner closing)
    (ends : closing.rest = ')' :: more)
    (others : Reads flags branches (some (grouped progress inner start) :: branch)
      { closing with rest := more } regex last) :
    Reads flags branches branch progress regex last
  | item {flags branches branch progress c rest longer after regex last}
    (next : skipSpace flags progress.rest = c :: rest) (plain : c ≠ ')' ∧ c ≠ '|' ∧ c ≠ '(')
    (read : readItem flags branch c rest = .ok (longer, after))
    (others : Reads flags branches longer { progress with rest := after } regex last) :
    Reads flags branches branch progress regex last

variable {flags : Flags} {branches : List Branch} {branch longer : Branch} {progress last : Progress}
  {regex : Regex} {c : Char} {rest after : List Char}

theorem body_item {fuel : Nat} (next : skipSpace flags progress.rest = c :: rest)
    (plain : c ≠ ')' ∧ c ≠ '|' ∧ c ≠ '(') :
    body (fuel + 1) flags branches branch progress =
      (readItem flags branch c rest).bind fun (longer, after) =>
        body fuel flags branches longer { progress with rest := after } := by
  obtain ⟨noClose, noBar, noOpen⟩ := plain
  rw [body, next]
  dsimp only
  split
  case h_1 => exact absurd rfl noClose
  case h_2 => exact absurd rfl noBar
  case h_3 => exact absurd rfl noOpen
  case h_4 =>
    simp only [readItem]
    cases charClass flags rest <;> rfl
  case h_5 =>
    simp only [readItem]
    cases escapeAtom flags rest <;> rfl
  case h_6 => rfl
  case h_7 => rfl
  case h_8 => rfl
  case h_9 | h_10 | h_11 =>
    simp only [readItem]
    cases repeatLast flags branch _ _ rest <;> rfl
  case h_12 =>
    simp only [readItem]
    split
    · rfl
    · cases bounds flags rest with
      | error fault => rfl
      | ok found =>
        obtain ⟨least, most, next⟩ := found
        simp only [Except.bind]
        cases repeatLast flags branch least most (afterBounds flags next) <;> rfl
  case h_13 => simp [readItem, Except.bind, *]

theorem body_group {fuel : Nat} (next : skipSpace flags progress.rest = c :: rest) (opens : c = '(')
    (read : body (fuel + 1) flags branches branch progress = .ok (regex, last)) :
    (∃ changed after, groupStart flags progress.names rest = .ok (.setFlags changed, after) ∧
      body fuel changed branches (none :: branch) { progress with rest := after } = .ok (regex, last)) ∨
    ∃ start after inner closing more, groupStart flags progress.names rest = .ok (start, after) ∧
      (∀ changed, start ≠ .setFlags changed) ∧
      body fuel (entered flags progress after start).1 [] [] (entered flags progress after start).2 =
        .ok (inner, closing) ∧
      closing.rest = ')' :: more ∧
      body fuel flags branches (some (grouped progress inner start) :: branch) { closing with rest := more } =
        .ok (regex, last) := by
  rw [body, next] at read
  dsimp only at read
  split at read
  case h_3 =>
    split at read
    case h_1 => cases read
    case h_2 changed after starts => exact .inl ⟨changed, after, starts, read⟩
    case h_3 start after holds starts =>
      refine .inr ⟨start, after, ?_⟩
      split at read
      case h_1 => cases read
      case h_2 inner closing inside =>
        split at read
        case h_2 => cases read
        case h_1 more ends =>
          refine ⟨inner, closing, more, starts, holds, ?_, ends, ?_⟩
          · rw [← inside]
            cases start <;> rfl
          · rw [← read]
            cases start <;> rfl
  case h_13 => contradiction
  all_goals exact absurd opens (by decide)

/-- A group is read, and then the rest of the branch that holds it. -/
theorem body_of_group {fuel : Nat} {start : GroupStart} {inner : Regex} {closing : Progress} {more : List Char}
    (next : skipSpace flags progress.rest = '(' :: rest)
    (starts : groupStart flags progress.names rest = .ok (start, after))
    (holds : ∀ changed, start ≠ .setFlags changed)
    (inside : body fuel (entered flags progress after start).1 [] [] (entered flags progress after start).2 =
      .ok (inner, closing)) (ends : closing.rest = ')' :: more) :
    body (fuel + 1) flags branches branch progress =
      body fuel flags branches (some (grouped progress inner start) :: branch) { closing with rest := more } := by
  rw [body, next]
  simp only [starts]
  cases start with
  | setFlags changed => exact absurd rfl (holds changed)
  | capture name =>
    simp only [entered] at inside
    simp only [inside, ends]
    rfl
  | plain changed =>
    simp only [entered] at inside
    simp only [inside, ends]
    rfl

theorem reads_of_body {fuel : Nat}
    (read : body fuel flags branches branch progress = .ok (regex, last)) :
    Reads flags branches branch progress regex last := by
  induction fuel generalizing flags branches branch progress regex last with
  | zero => cases read
  | succ fuel ih =>
    cases next : skipSpace flags progress.rest with
    | nil =>
      rw [body, next] at read
      cases read
      exact .ended next
    | cons c rest =>
      by_cases noClose : c = ')'
      · subst noClose
        rw [body, next] at read
        cases read
        exact .closed next
      by_cases noBar : c = '|'
      · subst noBar
        rw [body, next] at read
        exact .bar next (ih read)
      by_cases noOpen : c = '('
      · subst noOpen
        rcases body_group next rfl read with ⟨changed, after, starts, others⟩ |
          ⟨start, after, inner, closing, more, starts, holds, inside, ends, others⟩
        · exact .setFlags next starts (ih others)
        · exact .group next starts holds (ih inside) ends (ih others)
      · have plain : c ≠ ')' ∧ c ≠ '|' ∧ c ≠ '(' := ⟨noClose, noBar, noOpen⟩
        rw [body_item next plain] at read
        cases taken : readItem flags branch c rest with
        | error fault =>
          rw [taken] at read
          cases read
        | ok found =>
          rw [taken] at read
          exact .item next plain taken (ih read)

theorem reads_of_compile {text : List Char} {properties : Properties} {compiled : Compiled}
    (read : compile text properties = .ok compiled) :
    ∃ last, Reads { properties } [] [] { rest := text } compiled.regex last ∧ last.rest = [] ∧
      last.names = compiled.names := by
  rw [compile] at read
  split at read
  case h_1 => cases read
  case h_2 regex last found =>
    split at read
    case h_2 => cases read
    case h_1 whole =>
      cases read
      exact ⟨last, reads_of_body found, whole, rfl⟩

section Next

variable (reads : Reads flags branches branch progress regex last)
include reads

theorem Reads.of_end (stop : skipSpace flags progress.rest = []) :
    regex = alternatives branches branch ∧ last = { progress with rest := [] } := by
  cases reads with
  | ended => exact ⟨rfl, rfl⟩
  | closed next | bar next | setFlags next | group next | item next => cases stop.symm.trans next

theorem Reads.of_close (stop : skipSpace flags progress.rest = ')' :: rest) :
    regex = alternatives branches branch ∧ last = { progress with rest := ')' :: rest } := by
  cases reads with
  | ended next => cases stop.symm.trans next
  | closed next =>
    cases stop.symm.trans next
    exact ⟨rfl, rfl⟩
  | item next plain => exact absurd (List.cons.inj (stop.symm.trans next)).1.symm plain.1
  | bar next | setFlags next | group next =>
    exact absurd (List.cons.inj (stop.symm.trans next)).1 (by decide)

theorem Reads.of_bar (bar : skipSpace flags progress.rest = '|' :: rest) :
    Reads flags (branch :: branches) [] { progress with rest } regex last := by
  cases reads with
  | ended next => cases bar.symm.trans next
  | bar next others =>
    cases bar.symm.trans next
    exact others
  | item next plain => exact absurd (List.cons.inj (bar.symm.trans next)).1.symm plain.2.1
  | closed next | setFlags next | group next =>
    exact absurd (List.cons.inj (bar.symm.trans next)).1 (by decide)

theorem Reads.of_open (opens : skipSpace flags progress.rest = '(' :: rest) :
    (∃ changed after, groupStart flags progress.names rest = .ok (.setFlags changed, after) ∧
      Reads changed branches (none :: branch) { progress with rest := after } regex last) ∨
    ∃ start after inner closing more, groupStart flags progress.names rest = .ok (start, after) ∧
      (∀ changed, start ≠ .setFlags changed) ∧
      Reads (entered flags progress after start).1 [] [] (entered flags progress after start).2 inner closing ∧
      closing.rest = ')' :: more ∧
      Reads flags branches (some (grouped progress inner start) :: branch) { closing with rest := more }
        regex last := by
  cases reads with
  | ended next => cases opens.symm.trans next
  | setFlags next start others =>
    cases opens.symm.trans next
    exact .inl ⟨_, _, start, others⟩
  | group next starts holds inside ends others =>
    cases opens.symm.trans next
    exact .inr ⟨_, _, _, _, _, starts, holds, inside, ends, others⟩
  | item next plain => exact absurd (List.cons.inj (opens.symm.trans next)).1.symm plain.2.2
  | closed next | bar next => exact absurd (List.cons.inj (opens.symm.trans next)).1 (by decide)

theorem Reads.of_item (first : skipSpace flags progress.rest = c :: rest)
    (plain : c ≠ ')' ∧ c ≠ '|' ∧ c ≠ '(') (read : readItem flags branch c rest = .ok (longer, after)) :
    Reads flags branches longer { progress with rest := after } regex last := by
  cases reads with
  | ended next => cases first.symm.trans next
  | closed next => exact absurd (List.cons.inj (first.symm.trans next)).1 plain.1
  | bar next => exact absurd (List.cons.inj (first.symm.trans next)).1 plain.2.1
  | setFlags next | group next => exact absurd (List.cons.inj (first.symm.trans next)).1 plain.2.2
  | item next _ read' others =>
    cases first.symm.trans next
    cases read.symm.trans read'
    exact others

end Next

end DocComment.Pattern
