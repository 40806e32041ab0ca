import DocComment.Comment.Segment
import DocComment.Proofs.Text.Trim

/-! What becomes of each line of a comment. It is decided by the line and a few facts about the lines
before it, and neither by the reader of markup nor by what has been collected so far. -/
namespace DocComment.Comment

/-- What the lines before a line say about it. -/
structure Context where
  fence : Option Fence := none
  inList : Bool := false
  previousBlank : Bool := false
  deriving Repr, DecidableEq

inductive Role where
  /-- Content of its segment, kept as it is. -/
  | text
  /-- Ends an open command and stands for an empty line. -/
  | blank
  /-- An accepted end of a command. -/
  | ends
  | special (command : SpecialCommand) (arguments : List String)
  /-- Opens a section, with the first line of its content. -/
  | part (kind : SectionKind) (first : List Char)
  /-- Opens the documentation of a named part, with the first line of its content. -/
  | inline (command : InlineCommand) (name : List Char) (first : List Char)
  deriving Repr, DecidableEq

/-- The role of a line with a command, given the rest of the line; none if that does not fit. -/
def commandRole? (command : Command) (rest : List Char) : Option Role :=
  match command with
  | .special .endBlock => (SpecialCommand.endBlock.arguments? rest).map fun _ => .ends
  | .special special => (special.arguments? rest).map (.special special)
  | .part kind => some (.part kind (Text.trimStart rest))
  | .inline inline =>
    let rest := Text.trim rest
    let (name, content) := (Text.splitOnce Unicode.isWhite rest).getD (rest, [])
    if name.isEmpty then none else some (.inline inline name (Text.trimStart content))

namespace Context

/-- Follows lists: a marker opens one, text without indentation after a blank line ends it. -/
def track (context : Context) (line : Line) : Context :=
  if line.quoteDepth == 0 && line.indent ≤ maxBlockIndent && line.listMarker.isSome then
    { context with inList := true }
  else if context.inList && context.previousBlank && line.indent == 0 then
    { context with inList := false }
  else context

/-- The command that a line at the start of a block holds. -/
def command? (table : CommandTable) (context : Context) (line : Line) : Option Role :=
  if line.quoteDepth == 0 && line.indent ≤ maxBlockIndent && !(context.track line).inList then
    (table.recognize? line.content).bind fun (command, length) =>
      commandRole? command (line.content.drop length)
  else none

def role (table : CommandTable) (context : Context) (line : Line) : Role :=
  match context.fence with
  | some _ => .text
  | none => if line.isBlank then .blank else (context.command? table line).getD .text

/-- The fence that is open after a line. A fence is closed by its line, and opened by text. -/
def fenceAfter (context : Context) (line : Line) (role : Role) : Option Fence :=
  match context.fence with
  | some opened =>
    if line.quoteDepth == 0 && opened.closedBy line.fence then none else some opened
  | none =>
    if role = .text ∧ line.quoteDepth = 0 ∧
        (line.indent ≤ maxBlockIndent ∨ (context.track line).inList) then line.fence
    else none

/-- What a line of some role leaves for the next one. Lists are followed outside fences only. -/
def next (context : Context) (line : Line) (role : Role) : Context :=
  { fence := context.fenceAfter line role
    inList := if context.fence.isSome ∨ role = .blank then context.inList else (context.track line).inList
    previousBlank := role = .blank }

end Context

/-- A line, what precedes it, and its role. -/
structure Mark where
  line : Line
  context : Context
  role : Role
  deriving Repr, DecidableEq

def marksFrom (table : CommandTable) : Context → List Line → List Mark
  | _, [] => []
  | context, line :: rest =>
    let role := context.role table line
    ⟨line, context, role⟩ :: marksFrom table (context.next line role) rest

/-- The lines of a comment with their roles. -/
def marks (table : CommandTable) (text : String) : List Mark :=
  marksFrom table {} (linesOf text)

theorem marksFrom_lines (table : CommandTable) (context : Context) (lines : List Line) :
    (marksFrom table context lines).map Mark.line = lines := by
  induction lines generalizing context with
  | nil => rfl
  | cons line rest ih => simp [marksFrom, ih]

theorem marks_lines (table : CommandTable) (text : String) :
    (marks table text).map Mark.line = linesOf text :=
  marksFrom_lines table {} (linesOf text)

theorem role_of_mem_marksFrom {table : CommandTable} {context : Context} {lines : List Line}
    (member : mark ∈ marksFrom table context lines) :
    mark.role = mark.context.role table mark.line := by
  induction lines generalizing context with
  | nil => cases member
  | cons line rest ih =>
    rcases List.mem_cons.mp member with same | later
    · subst mark; rfl
    · exact ih later

theorem linesOf_numbers (text : String) :
    (linesOf text).map Line.number = List.range' 1 (linesOf text).length := by
  have numbered : (linesOf text).map Line.number =
      ((Text.rawLines text.toList).zipIdx 1).map Prod.snd := by
    simp only [linesOf, List.map_map]
    rfl
  rw [numbered, List.zipIdx_map_snd]
  simp [linesOf]

theorem indentation_content (columns : Nat) (text : List Char) :
    ∃ blanks, text = blanks ++ (indentation columns text).2 ∧ ∀ c ∈ blanks, c = ' ' ∨ c = '\t' := by
  fun_induction indentation columns text with
  | case1 columns rest ih =>
    obtain ⟨blanks, same, blank⟩ := ih
    refine ⟨' ' :: blanks, by rw [List.cons_append, ← same], ?_⟩
    simpa using blank
  | case2 columns rest ih =>
    obtain ⟨blanks, same, blank⟩ := ih
    refine ⟨'\t' :: blanks, by rw [List.cons_append, ← same], ?_⟩
    simpa using blank
  | case3 columns content => exact ⟨[], rfl, by simp⟩

/-- A blank line holds spaces and tabs only. -/
theorem blank_of_mem_linesOf {text : String} (member : line ∈ linesOf text)
    (blank : line.isBlank = true) : ∀ c ∈ line.text, c = ' ' ∨ c = '\t' := by
  obtain ⟨⟨raw, number⟩, _, same⟩ := List.mem_map.mp member
  subst line
  obtain ⟨blanks, split, only⟩ := indentation_content 0 (Text.dropEndWhile (· == '\r') raw)
  have empty : (indentation 0 (Text.dropEndWhile (· == '\r') raw)).2 = [] := by
    simpa [Line.isBlank, Line.classify] using blank
  rw [empty, List.append_nil] at split
  intro c present
  exact only c (split ▸ present)

theorem splitOnce_eq_some {isSeparator : Char → Bool} {text : List Char}
    (found : Text.splitOnce isSeparator text = some (before, after)) :
    (∃ separator, isSeparator separator = true ∧ text = before ++ separator :: after) ∧
      ∀ c ∈ before, isSeparator c = false := by
  induction text generalizing before with
  | nil => cases found
  | cons c rest ih =>
    by_cases separates : isSeparator c = true
    · simp only [Text.splitOnce, separates, ↓reduceIte, Option.some.injEq, Prod.mk.injEq] at found
      obtain ⟨rfl, rfl⟩ := found
      exact ⟨⟨c, separates, rfl⟩, by simp⟩
    · simp only [Text.splitOnce, separates, Bool.false_eq_true, ↓reduceIte, Option.map_eq_some_iff,
        Prod.mk.injEq] at found
      obtain ⟨⟨start, last⟩, deeper, rfl, rfl⟩ := found
      obtain ⟨⟨separator, found, same⟩, free⟩ := ih deeper
      refine ⟨⟨separator, found, by rw [same]; rfl⟩, ?_⟩
      intro d member
      rcases List.mem_cons.mp member with same | later
      · subst d; simpa using separates
      · exact free d later

theorem splitOnce_eq_none {isSeparator : Char → Bool} {text : List Char}
    (missing : Text.splitOnce isSeparator text = none) : ∀ c ∈ text, isSeparator c = false := by
  induction text with
  | nil => simp
  | cons c rest ih =>
    by_cases separates : isSeparator c = true
    · simp [Text.splitOnce, separates] at missing
    · simp only [Text.splitOnce, separates, Bool.false_eq_true, ↓reduceIte,
        Option.map_eq_none_iff] at missing
      intro d member
      rcases List.mem_cons.mp member with same | later
      · subst d; simpa using separates
      · exact ih missing d later

/-- The name of a part is the first word of what follows an inline command. -/
theorem commandRole?_inline {command : InlineCommand} {rest : List Char}
    (applied : commandRole? (.inline command) rest = some role) :
    ∃ name first, role = .inline command name first ∧ name ≠ [] ∧
      (∀ c ∈ name, Unicode.isWhite c = false) ∧
      ∃ gap, Text.trim rest = name ++ gap ++ first ∧ ∀ c ∈ gap, Unicode.isWhite c = true := by
  simp only [commandRole?] at applied
  split at applied
  · cases applied
  · rename_i nonempty
    cases found : Text.splitOnce Unicode.isWhite (Text.trim rest) with
    | none =>
      simp only [found, Option.getD_none, Option.some.injEq] at applied nonempty
      refine ⟨_, _, applied.symm, by simpa using nonempty, splitOnce_eq_none found, [], ?_, by simp⟩
      simp [Text.trimStart]
    | some parts =>
      obtain ⟨name, content⟩ := parts
      simp only [found, Option.getD_some, Option.some.injEq] at applied nonempty
      obtain ⟨⟨separator, white, same⟩, free⟩ := splitOnce_eq_some found
      obtain ⟨gap, split, blank⟩ := Text.trimStart_split content
      refine ⟨_, _, applied.symm, by simpa using nonempty, free, separator :: gap, ?_, ?_⟩
      · rw [same, List.append_assoc, List.cons_append, ← split]
      · simpa [white] using blank

/-- What the role of a line says about the line. A line of text is inside a fence, or neither blank
nor an accepted command. -/
def Mark.Fits (table : CommandTable) (mark : Mark) : Prop :=
  match mark.role with
  | .text => mark.context.fence.isSome = true ∨
      mark.line.isBlank = false ∧ mark.context.command? table mark.line = none
  | .blank => mark.context.fence = none ∧ ∀ c ∈ mark.line.text, c = ' ' ∨ c = '\t'
  | .ends => ∃ length, table.recognize? mark.line.content = some (.special .endBlock, length) ∧
      Text.trim (mark.line.content.drop length) = []
  | .special command arguments => command ≠ .endBlock ∧
      ∃ length, table.recognize? mark.line.content = some (.special command, length) ∧
        command.arguments? (mark.line.content.drop length) = some arguments
  | .part kind first => ∃ length, table.recognize? mark.line.content = some (.part kind, length) ∧
      first = Text.trimStart (mark.line.content.drop length)
  | .inline command name first =>
      ∃ length, table.recognize? mark.line.content = some (.inline command, length) ∧
        name ≠ [] ∧ (∀ c ∈ name, Unicode.isWhite c = false) ∧
        ∃ gap, Text.trim (mark.line.content.drop length) = name ++ gap ++ first ∧
          ∀ c ∈ gap, Unicode.isWhite c = true

theorem Mark.fits_of_command {table : CommandTable} {context : Context} {line : Line} {role : Role}
    (accepted : context.command? table line = some role) : Mark.Fits table ⟨line, context, role⟩ := by
  simp only [Context.command?] at accepted
  split at accepted
  · obtain ⟨⟨command, length⟩, recognized, applied⟩ := Option.bind_eq_some_iff.mp accepted
    cases command with
    | special special =>
      by_cases isEnd : special = .endBlock
      · subst special
        obtain ⟨_, parsed, rfl⟩ := Option.map_eq_some_iff.mp applied
        refine ⟨length, recognized, ?_⟩
        cases rest : Text.trim (line.content.drop length) with
        | nil => rfl
        | cons _ _ => simp [SpecialCommand.arguments?, rest] at parsed
      · have arguments : (special.arguments? (line.content.drop length)).map (.special special) =
            some role := by
          cases special <;> first | exact absurd rfl isEnd | exact applied
        obtain ⟨found, parsed, rfl⟩ := Option.map_eq_some_iff.mp arguments
        exact ⟨isEnd, length, recognized, parsed⟩
    | part kind =>
      cases applied
      exact ⟨length, recognized, rfl⟩
    | inline inline =>
      obtain ⟨name, first, rfl, nonempty, word, gap, split, blank⟩ := commandRole?_inline applied
      exact ⟨length, recognized, nonempty, word, gap, split, blank⟩
  · cases accepted

theorem mark_fits {text : String} (member : mark ∈ marks table text) : mark.Fits table := by
  have decided := role_of_mem_marksFrom member
  have present : mark.line ∈ linesOf text := by
    rw [← marks_lines table text]
    exact List.mem_map.mpr ⟨mark, member, rfl⟩
  obtain ⟨line, context, role⟩ := mark
  simp only at decided present
  subst decided
  cases fence : context.fence with
  | some opened => simp [Mark.Fits, Context.role, fence]
  | none =>
    by_cases blank : line.isBlank = true
    · simp only [Mark.Fits, Context.role, fence, blank, ↓reduceIte, true_and]
      exact blank_of_mem_linesOf present blank
    · cases command : context.command? table line with
      | none => simp [Mark.Fits, Context.role, fence, blank, command]
      | some role =>
        have fits := Mark.fits_of_command command
        simpa [Context.role, fence, blank, command] using fits

end DocComment.Comment
