import Mathlib.Data.List.Defs
import DocComment.Proofs.Comment.LineRole

/-! A comment is cut into stretches of consecutive lines: markup under no command, metadata commands,
and sections and documentation of parts with their content. The nodes of a comment are those of its
stretches, so no line is lost, used twice or moved. -/
namespace DocComment.Comment

inductive Stretch where
  /-- Lines under no command. -/
  | markup (marks : List Mark)
  | special (mark : Mark) (command : SpecialCommand) (arguments : List String)
  | part (mark : Mark) (kind : SectionKind) (first : List Char) (content : List Mark)
  | inline (mark : Mark) (command : InlineCommand) (name first : List Char) (content : List Mark)

/-- What a mark outside commands adds to the markup: its text, or an empty line. -/
def Mark.markupLine? (mark : Mark) : Option (List Char) :=
  match mark.role with
  | .text => some mark.line.text
  | .blank => some []
  | _ => none

def joined (lines : List (List Char)) : String :=
  String.ofList (Text.joinLines lines)

namespace Stretch

def marks : Stretch → List Mark
  | .markup marks => marks
  | .special mark _ _ => [mark]
  | .part mark _ _ content | .inline mark _ _ _ content => mark :: content

def isMarkup : Stretch → Bool
  | .markup _ => true
  | _ => false

/-- The node of markup; there is none without a character that shows and none without a block. -/
def markupNodes (read : String → List Entity) (lines : List (List Char)) : List Node :=
  if lines.all fun line => (Text.trim line).isEmpty then []
  else match read (joined lines) with
    | [] => []
    | blocks => [.markup blocks]

def nodes (read : String → List Entity) : Stretch → List Node
  | .markup marks => markupNodes read (marks.filterMap Mark.markupLine?)
  | .special mark command arguments => [.special command arguments mark.line.number]
  | .part _ kind first content =>
    [.part kind (read (joined (first :: content.map (·.line.text))))]
  | .inline mark command name first content =>
    [.inline command (String.ofList name)
      (read (joined (first :: content.map (·.line.text)))) mark.line.number]

/-- The lines of a stretch have the roles that it stands for. -/
def WellFormed : Stretch → Prop
  | .markup marks => ∀ mark ∈ marks, mark.role = .text ∨ mark.role = .blank ∨ mark.role = .ends
  | .special mark command arguments => mark.role = .special command arguments
  | .part mark kind first content =>
    mark.role = .part kind first ∧ ∀ mark ∈ content, mark.role = .text
  | .inline mark command name first content =>
    mark.role = .inline command name first ∧ ∀ mark ∈ content, mark.role = .text

/-- A stretch with one more line. Metadata commands take none. -/
def extend (mark : Mark) : Stretch → Stretch
  | .markup marks => .markup (marks ++ [mark])
  | .special own command arguments => .special own command arguments
  | .part own kind first content => .part own kind first (content ++ [mark])
  | .inline own command name first content => .inline own command name first (content ++ [mark])

/-- A line either joins the current stretch, or ends it and starts others, of which the last is
the current one from then on. -/
def advance (current : Stretch) (mark : Mark) : List Stretch × Stretch :=
  match mark.role with
  | .text => ([], current.extend mark)
  | .blank | .ends =>
    if current.isMarkup then ([], current.extend mark) else ([current], .markup [mark])
  | .special command arguments => ([current, .special mark command arguments], .markup [])
  | .part kind first => ([current], .part mark kind first [])
  | .inline command name first => ([current], .inline mark command name first [])

def cut : Stretch → List Mark → List Stretch
  | current, [] => [current]
  | current, mark :: rest => (current.advance mark).1 ++ cut (current.advance mark).2 rest

/-- The current stretch is never a metadata command. -/
def IsOpen : Stretch → Prop
  | .special .. => False
  | _ => True

theorem marks_extend {current : Stretch} (isOpen : current.IsOpen) (mark : Mark) :
    (current.extend mark).marks = current.marks ++ [mark] := by
  cases current <;> first | exact False.elim isOpen | rfl

theorem advance_isOpen {current : Stretch} (isOpen : current.IsOpen) (mark : Mark) :
    (current.advance mark).2.IsOpen := by
  unfold advance
  split
  · cases current <;> first | exact False.elim isOpen | trivial
  · split
    · cases current <;> first | exact False.elim isOpen | trivial
    · trivial
  · split
    · cases current <;> first | exact False.elim isOpen | trivial
    · trivial
  all_goals trivial

theorem advance_marks {current : Stretch} (isOpen : current.IsOpen) (mark : Mark) :
    (current.advance mark).1.flatMap marks ++ (current.advance mark).2.marks =
      current.marks ++ [mark] := by
  have extended := marks_extend isOpen mark
  unfold advance
  split
  · simpa using extended
  · split
    · simpa using extended
    · simp [marks]
  · split
    · simpa using extended
    · simp [marks]
  all_goals simp [marks]

/-- Cutting keeps every line, each in one stretch. -/
theorem cut_marks {current : Stretch} (isOpen : current.IsOpen) (rest : List Mark) :
    (cut current rest).flatMap marks = current.marks ++ rest := by
  induction rest generalizing current with
  | nil => simp [cut]
  | cons mark rest ih =>
    rw [cut, List.flatMap_append, ih (advance_isOpen isOpen mark), ← List.append_assoc,
      advance_marks isOpen mark, List.append_assoc, List.singleton_append]

/-- Text can be added to every stretch, and a blank line or an end to markup. -/
theorem extend_wellFormed {current : Stretch} (formed : current.WellFormed) {mark : Mark}
    (role : mark.role = .text ∨ current.isMarkup = true ∧ (mark.role = .blank ∨ mark.role = .ends)) :
    (current.extend mark).WellFormed := by
  have added {content : List Mark} {kept : Mark → Prop} (before : ∀ other ∈ content, kept other)
      (last : kept mark) : ∀ other ∈ content ++ [mark], kept other :=
    List.forall_mem_append.mpr ⟨before, List.forall_mem_singleton.mpr last⟩
  cases current with
  | markup marks =>
    refine added formed ?_
    rcases role with text | ⟨_, blank | ends⟩
    · exact .inl text
    · exact .inr (.inl blank)
    · exact .inr (.inr ends)
  | special own command arguments => exact formed
  | part | inline =>
    exact ⟨formed.1, added formed.2 (role.resolve_right (by simp [isMarkup]))⟩

theorem advance_wellFormed {current : Stretch} (formed : current.WellFormed) (mark : Mark) :
    (∀ stretch ∈ (current.advance mark).1, stretch.WellFormed) ∧
      (current.advance mark).2.WellFormed := by
  unfold advance
  split
  · rename_i text
    exact ⟨by simp, extend_wellFormed formed (.inl text)⟩
  · rename_i blank
    split
    · rename_i markup
      exact ⟨by simp, extend_wellFormed formed (.inr ⟨markup, .inl blank⟩)⟩
    · exact ⟨by simpa using formed, by simp [WellFormed, blank]⟩
  · rename_i ends
    split
    · rename_i markup
      exact ⟨by simp, extend_wellFormed formed (.inr ⟨markup, .inr ends⟩)⟩
    · exact ⟨by simpa using formed, by simp [WellFormed, ends]⟩
  · rename_i command arguments special
    refine ⟨?_, by simp [WellFormed]⟩
    intro stretch member
    simp only [List.mem_cons, List.not_mem_nil, or_false] at member
    rcases member with same | same
    · subst stretch; exact formed
    · subst stretch; exact special
  · rename_i kind first part
    exact ⟨by simpa using formed, part, by simp⟩
  · rename_i command name first inline
    exact ⟨by simpa using formed, inline, by simp⟩

theorem cut_wellFormed {current : Stretch} (formed : current.WellFormed) (rest : List Mark) :
    ∀ stretch ∈ cut current rest, stretch.WellFormed := by
  induction rest generalizing current with
  | nil => simpa [cut] using formed
  | cons mark rest ih =>
    obtain ⟨ended, next⟩ := advance_wellFormed formed mark
    intro stretch member
    rcases List.mem_append.mp member with before | later
    · exact ended stretch before
    · exact ih next stretch later

/-- Markup that follows markup is one stretch. -/
def Separate (first second : Stretch) : Prop :=
  ¬ (first.isMarkup = true ∧ second.isMarkup = true)

theorem isMarkup_extend (current : Stretch) (mark : Mark) :
    (current.extend mark).isMarkup = current.isMarkup := by
  cases current <;> rfl

theorem cut_head (current : Stretch) (rest : List Mark) :
    ∃ first later, cut current rest = first :: later ∧ first.isMarkup = current.isMarkup := by
  induction rest generalizing current with
  | nil => exact ⟨current, [], rfl, rfl⟩
  | cons mark rest ih =>
    have extended : ∃ first later, cut (current.extend mark) rest = first :: later ∧
        first.isMarkup = current.isMarkup := by
      obtain ⟨first, later, same, kind⟩ := ih (current.extend mark)
      exact ⟨first, later, same, kind.trans (isMarkup_extend current mark)⟩
    rw [cut]
    unfold advance
    split
    · exact extended
    · split
      · exact extended
      · exact ⟨current, _, rfl, rfl⟩
    · split
      · exact extended
      · exact ⟨current, _, rfl, rfl⟩
    all_goals exact ⟨current, _, rfl, rfl⟩

theorem cons_cut_chain {current : Stretch} (chain : (cut current rest).IsChain Separate)
    (separate : Separate before current) : (before :: cut current rest).IsChain Separate := by
  obtain ⟨first, later, same, kind⟩ := cut_head current rest
  rw [same] at chain ⊢
  refine .cons_cons ?_ chain
  simpa [Separate, kind] using separate

/-- Stretches of markup are as long as can be. -/
theorem cut_chain (current : Stretch) (rest : List Mark) : (cut current rest).IsChain Separate := by
  induction rest generalizing current with
  | nil => exact .singleton current
  | cons mark rest ih =>
    rw [cut]
    unfold advance
    split
    · exact ih _
    · split
      · exact ih _
      · rename_i command
        exact cons_cut_chain (ih _) (by simp [Separate, command])
    · split
      · exact ih _
      · rename_i command
        exact cons_cut_chain (ih _) (by simp [Separate, command])
    · rename_i command arguments _
      have last : (.special mark command arguments :: cut (.markup []) rest).IsChain Separate :=
        cons_cut_chain (ih _) (by simp [Separate, isMarkup])
      exact .cons_cons (by simp [Separate, isMarkup]) last
    · exact cons_cut_chain (ih _) (by simp [Separate, isMarkup])
    · exact cons_cut_chain (ih _) (by simp [Separate, isMarkup])

end Stretch

namespace SegmentState

def context (state : SegmentState) : Context :=
  ⟨state.fence, state.inList, state.previousBlank⟩

/-- What a state has collected of the current stretch. While a command is open, no markup is
pending. -/
def Collects (state : SegmentState) : Stretch → Prop
  | .markup marks =>
    state.openCommand = none ∧ state.markup.reverse = marks.filterMap Mark.markupLine?
  | .special .. => False
  | .part _ kind first content => state.markup = [] ∧
    state.openCommand = some (.part kind (first :: content.map (·.line.text)).reverse)
  | .inline mark command name first content => state.markup = [] ∧
    state.openCommand = some (.inline command (String.ofList name) mark.line.number
      (first :: content.map (·.line.text)).reverse)

/-- Only the pending markup and the open command matter. -/
theorem Collects.congr {state other : SegmentState} (collects : state.Collects current)
    (markup : other.markup = state.markup) (opened : other.openCommand = state.openCommand) :
    other.Collects current := by
  cases current with
  | special => exact collects
  | _ => simpa only [Collects, markup, opened] using collects

theorem Collects.append {state : SegmentState} (collects : state.Collects current) (mark : Mark)
    (text : mark.role = .text) : (state.append mark.line.text).Collects (current.extend mark) := by
  cases current with
  | markup marks =>
    obtain ⟨closed, pending⟩ := collects
    simp [SegmentState.append, closed, Collects, Stretch.extend, pending, Mark.markupLine?, text]
  | special => exact False.elim collects
  | part own kind first content =>
    obtain ⟨empty, opened⟩ := collects
    simp [SegmentState.append, opened, Collects, Stretch.extend, empty, OpenCommand.addLine]
  | inline own command name first content =>
    obtain ⟨empty, opened⟩ := collects
    simp [SegmentState.append, opened, Collects, Stretch.extend, empty, OpenCommand.addLine]

theorem append_nodes (state : SegmentState) (text : List Char) :
    (state.append text).nodes = state.nodes := by
  unfold SegmentState.append
  split <;> rfl

theorem append_context (state : SegmentState) (text : List Char) :
    (state.append text).context = state.context := by
  unfold SegmentState.append
  split <;> rfl

/-- Closing a command turns its stretch into a node. -/
theorem Collects.closeCommand {state : SegmentState} (collects : state.Collects current)
    (command : current.isMarkup = false) (read : String → List Entity) :
    (state.closeCommand read).openCommand = none ∧ (state.closeCommand read).markup = [] ∧
      (state.closeCommand read).nodes.reverse = state.nodes.reverse ++ current.nodes read ∧
      (state.closeCommand read).context = state.context := by
  cases current with
  | markup => cases command
  | special => exact False.elim collects
  | part own kind first content =>
    obtain ⟨empty, opened⟩ := collects
    simp [SegmentState.closeCommand, opened, empty, OpenCommand.close, Stretch.nodes, joined,
      SegmentState.context]
  | inline own command name first content =>
    obtain ⟨empty, opened⟩ := collects
    simp [SegmentState.closeCommand, opened, empty, OpenCommand.close, Stretch.nodes, joined,
      SegmentState.context]

theorem closeCommand_of_closed {state : SegmentState} (closed : state.openCommand = none)
    (read : String → List Entity) : state.closeCommand read = state := by
  simp [SegmentState.closeCommand, closed]

theorem flushMarkup_spec (state : SegmentState) (read : String → List Entity) :
    (state.flushMarkup read).openCommand = state.openCommand ∧
      (state.flushMarkup read).markup = [] ∧
      (state.flushMarkup read).nodes.reverse =
        state.nodes.reverse ++ Stretch.markupNodes read state.markup.reverse ∧
      (state.flushMarkup read).context = state.context := by
  simp only [SegmentState.flushMarkup, Stretch.markupNodes, List.all_reverse, joined]
  split
  · simp [SegmentState.context]
  · cases read (String.ofList (Text.joinLines state.markup.reverse)) with
    | nil => simp [SegmentState.context]
    | cons => simp [SegmentState.context]

/-- Ending a segment turns what was collected into the nodes of the stretch. -/
theorem Collects.endSegment {state : SegmentState} (collects : state.Collects current)
    (read : String → List Entity) :
    (state.endSegment read).openCommand = none ∧ (state.endSegment read).markup = [] ∧
      (state.endSegment read).nodes.reverse = state.nodes.reverse ++ current.nodes read ∧
      (state.endSegment read).context = state.context := by
  cases kind : current.isMarkup with
  | true =>
    cases current with
    | markup marks =>
      obtain ⟨closed, pending⟩ := collects
      have flushed := flushMarkup_spec state read
      rw [closed, pending] at flushed
      simpa only [SegmentState.endSegment, closeCommand_of_closed closed, Stretch.nodes] using flushed
    | _ => cases kind
  | false =>
    obtain ⟨closed, empty, nodes, context⟩ := collects.closeCommand kind read
    have flushed := flushMarkup_spec (state.closeCommand read) read
    rw [closed, empty, nodes, context] at flushed
    simpa [SegmentState.endSegment, Stretch.markupNodes] using flushed

/-- What a command line does to the state. -/
def applyRole (read : String → List Entity) (state : SegmentState) (number : Nat) : Role → SegmentState
  | .text | .blank => state
  | .ends => state.closeCommand read
  | .special command arguments =>
    { state.endSegment read with
      nodes := .special command arguments number :: (state.endSegment read).nodes }
  | .part kind first => { state.endSegment read with openCommand := some (.part kind [first]) }
  | .inline command name first =>
    { state.endSegment read with
      openCommand := some (.inline command (String.ofList name) number [first]) }

theorem afterCommand?_eq (read : String → List Entity) (state : SegmentState) (command : Command)
    (rest : List Char) (number : Nat) :
    state.afterCommand? read command rest number =
      (commandRole? command rest).map (state.applyRole read number) := by
  cases command with
  | special special =>
    cases special <;> simp only [afterCommand?, commandRole?, Option.map_map] <;> rfl
  | part kind => rfl
  | inline inline =>
    simp only [afterCommand?, commandRole?]
    split <;> rfl

theorem commandRole?_isCommand (applied : commandRole? command rest = some role) :
    role ≠ .text ∧ role ≠ .blank := by
  cases command with
  | special special =>
    cases special <;> simp only [commandRole?, Option.map_eq_some_iff] at applied <;>
      obtain ⟨_, _, rfl⟩ := applied <;> simp
  | part kind => cases applied; simp
  | inline inline =>
    obtain ⟨name, first, rfl, _⟩ := commandRole?_inline applied
    simp

theorem command?_isCommand {context : Context} (applied : context.command? table line = some role) :
    role ≠ .text ∧ role ≠ .blank := by
  simp only [Context.command?] at applied
  split at applied
  · obtain ⟨_, _, applied⟩ := Option.bind_eq_some_iff.mp applied
    exact commandRole?_isCommand applied
  · cases applied

theorem Collects.applyRole {state : SegmentState} (collects : state.Collects current) (mark : Mark)
    (read : String → List Entity) (command : mark.role ≠ .text ∧ mark.role ≠ .blank) :
    (state.applyRole read mark.line.number mark.role).Collects (current.advance mark).2 ∧
      (state.applyRole read mark.line.number mark.role).nodes.reverse =
        state.nodes.reverse ++ (current.advance mark).1.flatMap (Stretch.nodes read) ∧
      (state.applyRole read mark.line.number mark.role).context = state.context := by
  obtain ⟨line, context, role⟩ := mark
  obtain ⟨closed, empty, nodes, kept⟩ := collects.endSegment read
  cases role with
  | text => exact absurd rfl command.1
  | blank => exact absurd rfl command.2
  | ends =>
    cases kind : current.isMarkup with
    | true =>
      cases current with
      | markup marks =>
        obtain ⟨unopened, pending⟩ := collects
        simp [SegmentState.applyRole, closeCommand_of_closed unopened, Stretch.advance,
          Stretch.isMarkup, Stretch.extend, Collects, unopened, pending, Mark.markupLine?]
      | _ => cases kind
    | false =>
      obtain ⟨closed, empty, nodes, kept⟩ := collects.closeCommand kind read
      simp [SegmentState.applyRole, Stretch.advance, kind, Collects, closed, empty, nodes, kept,
        Mark.markupLine?]
  | special special arguments =>
    refine ⟨⟨closed, by simp [SegmentState.applyRole, empty]⟩, ?_, kept⟩
    simp [SegmentState.applyRole, nodes, Stretch.advance, Stretch.nodes]
  | part part first =>
    refine ⟨⟨empty, rfl⟩, ?_, kept⟩
    simp [SegmentState.applyRole, nodes, Stretch.advance]
  | inline inline name first =>
    refine ⟨⟨empty, rfl⟩, ?_, kept⟩
    simp [SegmentState.applyRole, nodes, Stretch.advance]

theorem trackList_eq (state : SegmentState) (line : Line) :
    state.trackList line = { state with inList := (state.context.track line).inList } := by
  simp only [SegmentState.trackList, Context.track, SegmentState.context]
  split
  · rfl
  · split <;> rename_i ends <;> simp [ends]

/-- Following lists changes nothing that was collected. -/
theorem Collects.trackList {state : SegmentState} (collects : state.Collects current) (line : Line) :
    (state.trackList line).Collects current := by
  rw [trackList_eq]
  exact collects.congr rfl rfl

/-- A line outside fences that is not blank applies its command, or else is text. -/
theorem push_of_shown {state : SegmentState} {line : Line} (read : String → List Entity)
    (table : CommandTable) (outside : state.fence = none) (shown : line.isBlank = false) :
    state.push read table line =
      (state.context.command? table line).elim ((state.trackList line).addText line) fun role =>
        { (state.trackList line).applyRole read line.number role with previousBlank := false } := by
  have start : (state.trackList line).atBlockStart line =
      (line.quoteDepth == 0 && line.indent ≤ maxBlockIndent &&
        !(state.context.track line).inList) := by
    rw [trackList_eq]
    rfl
  simp only [SegmentState.push, outside, shown, Bool.false_eq_true, ↓reduceIte, start, Context.command?]
  by_cases starts : (line.quoteDepth == 0 && line.indent ≤ maxBlockIndent &&
      !(state.context.track line).inList) = true
  · simp only [starts, ↓reduceIte]
    cases table.recognize? line.content with
    | none => rfl
    | some found =>
      simp only [Option.bind_some, afterCommand?_eq]
      cases commandRole? found.1 (line.content.drop found.2) <;> rfl
  · simp only [starts, Bool.false_eq_true, ↓reduceIte, Option.elim_none]

/-- A line of text grows its stretch, and may open a fence. -/
theorem Collects.addText {state : SegmentState} (collects : state.Collects current) (mark : Mark)
    (text : mark.role = .text) :
    (state.addText mark.line).Collects (current.extend mark) ∧
      (state.addText mark.line).nodes = state.nodes ∧
      (state.addText mark.line).context =
        { fence := if mark.line.quoteDepth = 0 ∧
              (mark.line.indent ≤ maxBlockIndent ∨ state.inList = true) then mark.line.fence
            else state.fence
          inList := state.inList
          previousBlank := false } := by
  have fenced : state.addText mark.line =
      { { state with
          fence := if mark.line.quoteDepth = 0 ∧
              (mark.line.indent ≤ maxBlockIndent ∨ state.inList = true) then mark.line.fence
            else state.fence }.append mark.line.text with
        previousBlank := false } := by
    simp only [SegmentState.addText, Bool.and_eq_true, Bool.or_eq_true, beq_iff_eq, decide_eq_true_eq]
    split <;> rfl
  rw [fenced]
  generalize (if mark.line.quoteDepth = 0 ∧ (mark.line.indent ≤ maxBlockIndent ∨ state.inList = true)
    then mark.line.fence else state.fence) = opened
  have same : { state with fence := opened }.Collects current := collects.congr rfl rfl
  have context := append_context { state with fence := opened } mark.line.text
  simp only [SegmentState.context, Context.mk.injEq] at context
  refine ⟨(same.append mark text).congr rfl rfl, ?_, ?_⟩
  · exact append_nodes { state with fence := opened } mark.line.text
  · simp [SegmentState.context, context]

/-- What one line does: its stretch grows, or stretches end and their nodes are added. -/
structure Advances (read : String → List Entity) (state : SegmentState) (current : Stretch) (mark : Mark)
    (next : SegmentState) : Prop where
  collects : next.Collects (current.advance mark).2
  nodes : next.nodes.reverse =
    state.nodes.reverse ++ (current.advance mark).1.flatMap (Stretch.nodes read)
  context : next.context = state.context.next mark.line mark.role

/-- A line inside a fence is text. -/
theorem Collects.pushFenced {state : SegmentState} {opened : Fence} (collects : state.Collects current)
    (read : String → List Entity) (table : CommandTable) (line : Line) (inside : state.fence = some opened) :
    Advances read state current ⟨line, state.context, .text⟩ (state.push read table line) := by
  have grown := collects.append ⟨line, state.context, .text⟩ rfl
  have context := append_context state line.text
  simp only [SegmentState.context, Context.mk.injEq] at context
  simp only [SegmentState.push, inside]
  refine ⟨grown.congr rfl rfl, by simp [append_nodes, Stretch.advance], ?_⟩
  simp [SegmentState.context, context, Context.next, Context.fenceAfter, inside]

/-- A blank line ends an open command, and stands for an empty line of markup. -/
theorem Collects.pushBlank {state : SegmentState} {line : Line} (collects : state.Collects current)
    (read : String → List Entity) (table : CommandTable) (outside : state.fence = none)
    (blank : line.isBlank = true) :
    Advances read state current ⟨line, state.context, .blank⟩ (state.push read table line) := by
  cases kind : current.isMarkup with
  | true =>
    cases current with
    | markup marks =>
      obtain ⟨unopened, pending⟩ := collects
      constructor <;> simp [SegmentState.push, outside, blank, closeCommand_of_closed unopened,
        Stretch.advance, Stretch.isMarkup, Stretch.extend, Collects, unopened, pending,
        Mark.markupLine?, SegmentState.context, Context.next, Context.fenceAfter]
    | _ => cases kind
  | false =>
    obtain ⟨closed, empty, nodes, kept⟩ := collects.closeCommand kind read
    simp only [SegmentState.context, Context.mk.injEq] at kept
    constructor <;> simp [SegmentState.push, outside, blank, Stretch.advance, kind, Collects, closed,
      empty, nodes, kept, Mark.markupLine?, SegmentState.context, Context.next, Context.fenceAfter]

/-- A line outside fences that is not blank is a command, or else text. -/
theorem Collects.pushShown {state : SegmentState} {line : Line} (collects : state.Collects current)
    (read : String → List Entity) (table : CommandTable) (outside : state.fence = none)
    (shown : line.isBlank = false) :
    Advances read state current ⟨line, state.context, (state.context.command? table line).getD .text⟩
      (state.push read table line) := by
  have tracked := collects.trackList line
  have context : (state.trackList line).context =
      { state.context with inList := (state.context.track line).inList } := by
    rw [trackList_eq]
    rfl
  have nodes : (state.trackList line).nodes = state.nodes := by rw [trackList_eq]
  rw [push_of_shown read table outside shown]
  cases command : state.context.command? table line with
  | some role =>
    have accepted := command?_isCommand command
    obtain ⟨collected, added, kept⟩ := tracked.applyRole ⟨line, state.context, role⟩ read accepted
    rw [nodes] at added
    rw [context] at kept
    simp only [SegmentState.context, Context.mk.injEq] at kept
    refine ⟨collected.congr rfl rfl, added, ?_⟩
    simp [SegmentState.context, kept, Context.next, Context.fenceAfter, outside, accepted.1, accepted.2]
  | none =>
    obtain ⟨collected, kept, after⟩ := tracked.addText ⟨line, state.context, .text⟩ rfl
    refine ⟨collected, by simp [kept, nodes, Stretch.advance], ?_⟩
    obtain ⟨sameFence, sameList, _⟩ := Context.mk.injEq .. ▸ context
    rw [Option.elim_none, after]
    simp [sameFence, sameList, SegmentState.context, Context.next, Context.fenceAfter, outside]

theorem Collects.push {state : SegmentState} (collects : state.Collects current)
    (read : String → List Entity) (table : CommandTable) (line : Line) :
    Advances read state current ⟨line, state.context, state.context.role table line⟩
      (state.push read table line) := by
  cases fence : state.fence with
  | some opened =>
    have role : state.context.role table line = .text := by
      simp [Context.role, SegmentState.context, fence]
    exact role ▸ collects.pushFenced read table line fence
  | none =>
    cases blank : line.isBlank with
    | true =>
      have role : state.context.role table line = .blank := by
        simp [Context.role, SegmentState.context, fence, blank]
      exact role ▸ collects.pushBlank read table fence blank
    | false =>
      have role : state.context.role table line = (state.context.command? table line).getD .text := by
        simp [Context.role, SegmentState.context, fence, blank]
      exact role ▸ collects.pushShown read table fence blank

/-- The nodes after a run of lines are those of the stretches that the lines are cut into. -/
theorem Collects.pushAll {state : SegmentState} (collects : state.Collects current)
    (read : String → List Entity) (table : CommandTable) (lines : List Line) :
    ((lines.foldl (SegmentState.push read table) state).endSegment read).nodes.reverse =
      state.nodes.reverse ++
        (Stretch.cut current (marksFrom table state.context lines)).flatMap (Stretch.nodes read) := by
  induction lines generalizing state current with
  | nil =>
    obtain ⟨_, _, nodes, _⟩ := collects.endSegment read
    simpa [marksFrom, Stretch.cut] using nodes
  | cons line rest ih =>
    obtain ⟨collected, added, context⟩ := collects.push read table line
    rw [List.foldl_cons, ih collected, added, context, marksFrom, Stretch.cut, List.flatMap_append,
      List.append_assoc]

end SegmentState

/-- The stretches of a comment in the order of its lines. -/
def stretches (table : CommandTable) (text : String) : List Stretch :=
  Stretch.cut (.markup []) (marks table text)

theorem segment_eq (read : String → List Entity) (table : CommandTable) (text : String) :
    segment read table text = (stretches table text).flatMap (Stretch.nodes read) := by
  have collects : ({} : SegmentState).Collects (.markup []) := ⟨rfl, rfl⟩
  exact collects.pushAll read table (linesOf text)

/-- The line that a node tells. -/
def Node.line? : Node → Option Nat
  | .special _ _ line | .inline _ _ _ line => some line
  | .markup _ | .part _ _ => none

theorem Stretch.node_lines (read : String → List Entity) (stretch : Stretch) :
    ((stretch.nodes read).filterMap Node.line?).Sublist (stretch.marks.map (·.line.number)) := by
  cases stretch with
  | markup marks =>
    have unnumbered : (markupNodes read (marks.filterMap Mark.markupLine?)).filterMap Node.line? = [] := by
      unfold markupNodes
      split
      · rfl
      · split <;> rfl
    simp [nodes, unnumbered]
  | special mark => exact .refl _
  | part mark kind first content => exact List.nil_sublist _
  | inline mark command name first content => exact .cons_cons _ (List.nil_sublist _)

theorem node_lines (read : String → List Entity) (stretches : List Stretch) :
    ((stretches.flatMap (Stretch.nodes read)).filterMap Node.line?).Sublist
      ((stretches.flatMap Stretch.marks).map (·.line.number)) := by
  induction stretches with
  | nil => exact .slnil
  | cons stretch rest ih =>
    simp only [List.flatMap_cons, List.filterMap_append, List.map_append]
    exact (stretch.node_lines read).append ih

/-- The stretches of a comment hold its lines, each once and in order. -/
theorem stretches_marks (table : CommandTable) (text : String) :
    (stretches table text).flatMap Stretch.marks = marks table text :=
  have start : Stretch.IsOpen (.markup []) := trivial
  Stretch.cut_marks start (marks table text)

theorem segment_lines (read : String → List Entity) (table : CommandTable) (text : String) :
    ((segment read table text).filterMap Node.line?).Pairwise (· < ·) := by
  have numbers : (marks table text).map (·.line.number) = List.range' 1 (linesOf text).length := by
    rw [← linesOf_numbers, ← marks_lines table text, List.map_map]
    rfl
  have sublist := node_lines read (stretches table text)
  rw [stretches_marks, numbers, ← segment_eq] at sublist
  exact (List.pairwise_lt_range' ..).sublist sublist

/-- Segmentation loses and reorders nothing. Each line of a comment is in one stretch, in a role that
fits what the line holds, stretches of markup are as long as can be, and the nodes are those of the
stretches. -/
theorem segment_lossless (read : String → List Entity) (table : CommandTable) (text : String) :
    ∃ stretches : List Stretch,
      stretches.flatMap Stretch.marks = marks table text ∧
      (marks table text).map Mark.line = linesOf text ∧
      (linesOf text).map Line.number = List.range' 1 (linesOf text).length ∧
      (∀ mark ∈ marks table text, mark.Fits table) ∧
      (∀ stretch ∈ stretches, stretch.WellFormed) ∧
      stretches.IsChain Stretch.Separate ∧
      segment read table text = stretches.flatMap (Stretch.nodes read) ∧
      ((segment read table text).filterMap Node.line?).Pairwise (· < ·) := by
  refine ⟨stretches table text, stretches_marks table text, marks_lines table text,
    linesOf_numbers text, fun mark member => mark_fits member, ?_, ?_, segment_eq read table text,
    segment_lines read table text⟩
  · exact Stretch.cut_wellFormed (by simp [Stretch.WellFormed]) (marks table text)
  · exact Stretch.cut_chain (.markup []) (marks table text)

/-- The table of some commands, each written with a backslash. -/
def CommandTable.ofCommands (commands : List Command) : CommandTable :=
  ⟨commands.filterMap fun command =>
    (Pattern.compile (lineSource (defaultSource command)).toList).toOption.map fun compiled =>
      ⟨command, defaultSource command, compiled⟩⟩

set_option maxRecDepth 4000 in
/-- A blank line is empty in markup only outside of fences, and an end without a command to end does
not cut the markup around it. -/
theorem segment_keeps_fenced_blanks_and_joins_at_end :
    segment (fun text => [.text text]) ⟨[]⟩ "```\n   \n```" ≠ [.markup [.text "```\n\n```"]] ∧
      segment (fun text => [.text text]) ⟨[]⟩ "```\n   \n```" = [.markup [.text "```\n   \n```"]] ∧
      segment (fun text => [.text text]) (.ofCommands [.special .endBlock]) "a\n\\end\nb" ≠
        [.markup [.text "a"], .markup [.text "b"]] ∧
      segment (fun text => [.text text]) (.ofCommands [.special .endBlock]) "a\n\\end\nb" =
        [.markup [.text "a\nb"]] := by
  decide

end DocComment.Comment
