import DocComment.Markup.Block
import DocComment.Proofs.Text.Trim
import Mathlib.Data.Bool.AllAny
import Mathlib.Data.List.Basic

namespace DocComment.Markup

/-- The lines of a text without their endings. -/
def contents (text : List Char) : List (List Char) :=
  (linesOf text).map (·.content)

theorem contents_nil : contents [] = [] := rfl

theorem contents_lineEnd (rest : List Char) : contents ('\n' :: rest) = [] :: contents rest := rfl

theorem linesOf_cons {c : Char} (rest : List Char) (inLine : c ≠ '\n' ∧ c ≠ '\r') :
    linesOf (c :: rest) = Line.cons c (linesOf rest) := by
  rw [linesOf]
  · exact inLine.1
  · exact fun _ same => absurd same inLine.2
  · exact inLine.2

theorem contents_cons {c : Char} (rest : List Char) (inLine : c ≠ '\n' ∧ c ≠ '\r') :
    contents (c :: rest) = (c :: (contents rest).headD []) :: (contents rest).tail := by
  rw [contents, contents, linesOf_cons rest inLine]
  cases linesOf rest <;> rfl

/-- All lines but the last end in a line feed. -/
def Fed (lines : List Line) : Prop :=
  ∀ line ∈ lines.dropLast, line.ending = .lineFeed

namespace Fed

theorem cons {line : Line} {lines : List Line} (ends : lines ≠ [] → line.ending = .lineFeed)
    (more : Fed lines) : Fed (line :: lines) := by
  intro other member
  cases lines with
  | nil => cases member
  | cons next rest =>
    rcases List.mem_cons.mp member with rfl | later
    · exact ends (List.cons_ne_nil next rest)
    · exact more other later

theorem tail {line : Line} {lines : List Line} (fed : Fed (line :: lines)) : Fed lines := by
  intro other member
  cases lines with
  | nil => cases member
  | cons => exact fed other (List.mem_cons_of_mem line member)

theorem append_left {lines more : List Line} (fed : Fed (lines ++ more)) : Fed lines := by
  intro line member
  refine fed line ?_
  cases more with
  | nil => rwa [List.append_nil]
  | cons next rest =>
    rw [List.dropLast_append_of_ne_nil (List.cons_ne_nil next rest)]
    exact List.mem_append_left _ (List.dropLast_subset _ member)

theorem append_right {lines more : List Line} (fed : Fed (lines ++ more)) : Fed more := by
  intro line member
  refine fed line ?_
  cases more with
  | nil => cases member
  | cons next rest =>
    rw [List.dropLast_append_of_ne_nil (List.cons_ne_nil next rest)]
    exact List.mem_append_right _ member

end Fed

theorem linesOf_fed (text : List Char) (plain : ∀ c ∈ text, c ≠ '\r') : Fed (linesOf text) := by
  induction text with
  | nil => nofun
  | cons c rest ih =>
    have later := ih fun d member => plain d (List.mem_cons_of_mem c member)
    by_cases ends : c = '\n'
    · subst ends
      exact .cons (fun _ => rfl) later
    · rw [linesOf_cons rest ⟨ends, plain c List.mem_cons_self⟩]
      cases lines : linesOf rest with
      | nil => nofun
      | cons line more =>
        rw [lines] at later
        refine .cons (fun nonempty => ?_) later.tail
        obtain ⟨next, others, rfl⟩ := List.exists_cons_of_ne_nil nonempty
        exact later line List.mem_cons_self

theorem contents_ne_nil {text : List Char} (plain : ∀ c ∈ text, c ≠ '\r') (nonempty : text ≠ []) :
    contents text ≠ [] := by
  obtain ⟨c, rest, rfl⟩ := List.exists_cons_of_ne_nil nonempty
  by_cases ends : c = '\n'
  · subst ends
    simp [contents_lineEnd]
  · simp [contents_cons rest ⟨ends, plain c List.mem_cons_self⟩]

/-- The first line of a text. -/
def firstLine (text : List Char) : List Char :=
  text.takeWhile (· != '\n')

theorem firstLine_append {line : List Char} (rest : List Char) (oneLine : ∀ c ∈ line, c ≠ '\n') :
    firstLine (line ++ rest) = line ++ firstLine rest := by
  rw [firstLine, List.takeWhile_append_of_pos fun c member => by simp [oneLine c member]]
  rfl

theorem contents_head (text : List Char) (plain : ∀ c ∈ text, c ≠ '\r') :
    (contents text).headD [] = firstLine text := by
  induction text with
  | nil => rfl
  | cons c rest ih =>
    by_cases ends : c = '\n'
    · subst ends
      rfl
    · rw [contents_cons rest ⟨ends, plain c List.mem_cons_self⟩, List.headD_cons,
        ih fun d member => plain d (List.mem_cons_of_mem c member)]
      simp [firstLine, ends]

/-- Every line but the first comes after a line end. -/
theorem contents_tail (text : List Char) (plain : ∀ c ∈ text, c ≠ '\r') :
    ∀ line ∈ (contents text).tail, ∃ before after, text = before ++ '\n' :: after ∧
      after ≠ [] ∧ line = firstLine after := by
  induction text with
  | nil => simp [contents_nil]
  | cons c rest ih =>
    have plainRest : ∀ d ∈ rest, d ≠ '\r' := fun d member => plain d (List.mem_cons_of_mem c member)
    intro line member
    by_cases ends : c = '\n'
    · subst ends
      rw [contents_lineEnd, List.tail_cons] at member
      cases lines : contents rest with
      | nil => simp [lines] at member
      | cons first others =>
        rw [lines] at member
        rcases List.mem_cons.mp member with same | later
        · have head := contents_head rest plainRest
          rw [lines, List.headD_cons] at head
          refine ⟨[], rest, rfl, ?_, same.trans head⟩
          rintro rfl
          simp [contents_nil] at lines
        · obtain ⟨before, after, apart, inked, line⟩ := ih plainRest line (by rw [lines]; exact later)
          exact ⟨'\n' :: before, after, by rw [apart]; rfl, inked, line⟩
    · rw [contents_cons rest ⟨ends, plain c List.mem_cons_self⟩, List.tail_cons] at member
      obtain ⟨before, after, apart, inked, line⟩ := ih plainRest line member
      exact ⟨c :: before, after, by rw [apart]; rfl, inked, line⟩

/-- A line end at the very end of a text starts no line. -/
theorem contents_lastEnd (text : List Char) (plain : ∀ c ∈ text, c ≠ '\r') (nonempty : text ≠ [])
    (open_ : text.getLast? ≠ some '\n') : contents (text ++ ['\n']) = contents text := by
  induction text with
  | nil => exact absurd rfl nonempty
  | cons c rest ih =>
    have plainRest : ∀ d ∈ rest, d ≠ '\r' := fun d member => plain d (List.mem_cons_of_mem c member)
    have inLine := plain c List.mem_cons_self
    cases rest with
    | nil =>
      have notEnd : c ≠ '\n' := by simpa using open_
      rw [List.cons_append, contents_cons _ ⟨notEnd, inLine⟩, contents_cons _ ⟨notEnd, inLine⟩]
      rfl
    | cons d others =>
      have same := ih plainRest (List.cons_ne_nil d others) (by simpa using open_)
      by_cases ends : c = '\n'
      · subst ends
        rw [List.cons_append, contents_lineEnd, contents_lineEnd, same]
      · rw [List.cons_append, contents_cons _ ⟨ends, inLine⟩, contents_cons _ ⟨ends, inLine⟩, same]

theorem joinLines_cons {line : List Char} {others : List (List Char)} (nonempty : others ≠ []) :
    Text.joinLines (line :: others) = line ++ '\n' :: Text.joinLines others := by
  obtain ⟨next, rest, rfl⟩ := List.exists_cons_of_ne_nil nonempty
  simp [Text.joinLines, List.intercalate]

theorem joinLines_longer (c : Char) (line : List Char) (others : List (List Char)) :
    Text.joinLines ((c :: line) :: others) = c :: Text.joinLines (line :: others) := by
  cases others <;> simp [Text.joinLines, List.intercalate]

theorem joinLines_contents (text : List Char) (plain : ∀ c ∈ text, c ≠ '\r')
    (open_ : text.getLast? ≠ some '\n') : Text.joinLines (contents text) = text := by
  induction text with
  | nil => rfl
  | cons c rest ih =>
    have plainRest : ∀ d ∈ rest, d ≠ '\r' := fun d member => plain d (List.mem_cons_of_mem c member)
    have inLine := plain c List.mem_cons_self
    cases rest with
    | nil =>
      have notEnd : c ≠ '\n' := by simpa using open_
      rw [contents_cons _ ⟨notEnd, inLine⟩]
      simp [contents_nil, Text.joinLines, List.intercalate]
    | cons d others =>
      have same := ih plainRest (by simpa using open_)
      have lines := contents_ne_nil plainRest (List.cons_ne_nil d others)
      by_cases ends : c = '\n'
      · subst ends
        rw [contents_lineEnd, joinLines_cons lines, same]
        rfl
      · rw [contents_cons _ ⟨ends, inLine⟩, joinLines_longer]
        obtain ⟨first, more, apart⟩ := List.exists_cons_of_ne_nil lines
        rw [apart] at same ⊢
        rw [List.headD_cons, List.tail_cons, same]

/-- A line that starts no block, whether or not a paragraph comes before it. -/
structure Inert (line : List Char) : Prop where
  first : ∃ c rest, line = c :: rest ∧ isLineBlank c = false ∧ c ≠ '>' ∧ c ≠ '<'
  item : ∀ found, ListMark.read? line = some found →
    ∃ d rest, line.drop found.width = d :: rest ∧ d ≠ ' ' ∧ d ≠ '\t'
  rule : isRule line = false
  heading : headingLevel? line = none
  fence : codeFence? line = none
  underline : underlineLevel? line = none

theorem not_blank {c : Char} (inked : isLineBlank c = false) : c ≠ ' ' ∧ c ≠ '\t' := by
  simp only [isLineBlank, Bool.or_eq_false_iff, beq_eq_false_iff_ne] at inked
  exact inked.1.1

theorem skipBlanks_inked {c : Char} (column wanted : Nat) (rest : List Char) (positive : 0 < wanted)
    (inked : c ≠ ' ' ∧ c ≠ '\t') :
    Cursor.skipBlanks wanted { column, rest := c :: rest } = (wanted, { column, rest := c :: rest }) := by
  have room : wanted ≠ 0 := by omega
  simp [Cursor.skipBlanks, Cursor.skipBlanksFrom, room, inked]

namespace Inert

variable {line : List Char}

theorem itemInterrupts (inert : Inert line) : itemInterrupts true line = false := by
  unfold Markup.itemInterrupts
  cases read : ListMark.read? line with
  | none => rfl
  | some found =>
    obtain ⟨d, rest, after, blank⟩ := inert.item found read
    simp [after, blank]

theorem itemStart? (inert : Inert line) (indent column : Nat) :
    itemStart? indent { column, rest := line } = none := by
  unfold Markup.itemStart?
  cases read : ListMark.read? line with
  | none => rfl
  | some found =>
    obtain ⟨d, rest, after, blank⟩ := inert.item found read
    have apart := skipBlanks_inked (column + found.width) 1 rest (by omega) blank
    simp [inert.rule, Cursor.skipExactly, after, apart]

theorem interruptsParagraph (inert : Inert line) : interruptsParagraph true line = false := by
  obtain ⟨c, rest, same, _, notQuote, notTag⟩ := inert.first
  have item := inert.itemInterrupts
  have rule := inert.rule
  have heading := inert.heading
  have fence := inert.fence
  subst same
  simp [Markup.interruptsParagraph, rule, heading, fence, item, notQuote]
  split <;> simp_all

theorem skipBlanks (inert : Inert line) (column : Nat) :
    Cursor.skipBlanks 4 { column, rest := line } = (4, { column, rest := line }) := by
  obtain ⟨c, rest, rfl, inked, _⟩ := inert.first
  exact skipBlanks_inked column 4 rest (by omega) (not_blank inked)

theorem skipUpTo (inert : Inert line) (column : Nat) :
    Cursor.skipUpTo 4 { column, rest := line } = (0, { column, rest := line }) := by
  rw [Cursor.skipUpTo, inert.skipBlanks]

theorem not_all_blank (inert : Inert line) (blank : Char → Bool)
    (kind : ∀ c, blank c = true → isLineBlank c = true) : line.all blank = false := by
  obtain ⟨c, rest, rfl, inked, _⟩ := inert.first
  have apart : blank c = false := by
    by_contra isBlank
    rw [kind c (by simpa using isBlank)] at inked
    contradiction
  simp [apart]

end Inert

theorem drop_digits (text : List Char) :
    text.drop (text.takeWhile Char.isDigit).length = text.dropWhile Char.isDigit := by
  conv_lhs => arg 2; rw [← List.takeWhile_append_dropWhile (p := Char.isDigit) (l := text)]
  exact List.drop_left

theorem dropWhile_firstLine {text : List Char} {d : Char}
    (first : ((firstLine text).dropWhile Char.isDigit).head? = some d) :
    (text.dropWhile Char.isDigit).head? = some d := by
  induction text with
  | nil => exact first
  | cons c rest ih =>
    by_cases ends : c = '\n'
    · subst ends
      simp [firstLine] at first
    · have line : firstLine (c :: rest) = c :: firstLine rest := by simp [firstLine, ends]
      rw [line] at first
      by_cases digit : c.isDigit = true
      · rw [List.dropWhile_cons_of_pos digit] at first ⊢
        exact ih first
      · rw [List.dropWhile_cons_of_neg digit] at first ⊢
        exact first

/-- Characters that can start a block, blanks apart. -/
def blockStarts : List Char := ['>', '<', '-', '+', '*', '_', '=', '#', '~']

theorem not_blockStart {c : Char} (quiet : c ∉ blockStarts) : ∀ d ∈ blockStarts, (c == d) = false := by
  intro d member
  refine beq_false_of_ne ?_
  rintro rfl
  exact quiet member

theorem itemMark_eq_none {c : Char} {rest : List Char} (quiet : c ∉ blockStarts)
    (number : ∀ d, ((c :: rest).dropWhile Char.isDigit).head? = some d → d ≠ '.' ∧ d ≠ ')') :
    ListMark.read? (c :: rest) = none := by
  have apart := not_blockStart quiet
  simp only [ListMark.read?, drop_digits, apart '-' (by decide), apart '+' (by decide),
    apart '*' (by decide), Bool.or_self, Bool.false_eq_true, if_false]
  cases after : (c :: rest).dropWhile Char.isDigit with
  | nil => rfl
  | cons d others =>
    have delimiter := number d (by rw [after]; rfl)
    simp [delimiter]

/-- A line is inert if nothing that marks a block stands at its start. -/
theorem inert_of_quiet {c : Char} {rest : List Char} (inked : isLineBlank c = false)
    (quiet : c ∉ blockStarts) (notEnd : c ≠ '\n')
    (fence : codeFence? (firstLine (c :: rest)) = none)
    (number : ∀ d, ((c :: rest).dropWhile Char.isDigit).head? = some d → d ≠ '.' ∧ d ≠ ')') :
    Inert (firstLine (c :: rest)) := by
  have line : firstLine (c :: rest) = c :: firstLine rest := by simp [firstLine, notEnd]
  have mark : ListMark.read? (c :: firstLine rest) = none := itemMark_eq_none quiet
    fun d first => number d (dropWhile_firstLine (line ▸ first))
  have apart := not_blockStart quiet
  rw [line] at fence ⊢
  refine ⟨⟨c, _, rfl, inked, ?_, ?_⟩, ?_, ?_, ?_, fence, ?_⟩
  · exact ne_of_beq_false (apart '>' (by decide))
  · exact ne_of_beq_false (apart '<' (by decide))
  · rw [mark]
    simp
  · simp [isRule, apart '*' (by decide), apart '-' (by decide), apart '_' (by decide)]
  · simp [headingLevel?, runLength, apart '#' (by decide)]
  · simp [underlineLevel?, apart '=' (by decide), apart '-' (by decide)]

theorem codeFence?_eq_none {c : Char} (rest : List Char) (quiet : c ∉ blockStarts) (notTick : c ≠ '`') :
    codeFence? (firstLine (c :: rest)) = none := by
  have notTilde := not_blockStart quiet '~' (by decide)
  by_cases ends : c = '\n'
  · subst ends
    rfl
  · simp [firstLine, ends, codeFence?, notTick, notTilde]

/-- Marks that start no block, whatever comes after them. -/
theorem inert_of_mark {c : Char} (rest : List Char) (mark : c ∈ ['\\', '&', '[', '!']) :
    Inert (firstLine (c :: rest)) := by
  obtain ⟨inked, quiet, notEnd, notTick, notDigit, number⟩ :=
    (List.all_iff_forall_prop.mp (by decide) : ∀ c ∈ ['\\', '&', '[', '!'],
      isLineBlank c = false ∧ c ∉ blockStarts ∧ c ≠ '\n' ∧ c ≠ '`' ∧ ¬ c.isDigit = true ∧
        c ≠ '.' ∧ c ≠ ')') c mark
  refine inert_of_quiet inked quiet notEnd (codeFence?_eq_none rest quiet notTick) fun d first => ?_
  rw [List.dropWhile_cons_of_neg notDigit] at first
  exact Option.some.inj first ▸ number

/-- No line of the text but perhaps the first starts a block. -/
def InertBreaks (text : List Char) : Prop :=
  ∀ before after, text = before ++ '\n' :: after → Inert (firstLine after)

namespace InertBreaks

theorem nil : InertBreaks [] := fun before after same => by simp at same

theorem cons {c : Char} {rest : List Char} (more : InertBreaks rest)
    (starts : c = '\n' → Inert (firstLine rest)) : InertBreaks (c :: rest) := by
  intro before after same
  cases before with
  | nil =>
    obtain ⟨ends, rfl⟩ := List.cons.inj same
    exact starts ends
  | cons d others => exact more others after (List.cons.inj same).2

theorem append_oneLine {line rest : List Char} (oneLine : ∀ c ∈ line, c ≠ '\n')
    (more : InertBreaks rest) : InertBreaks (line ++ rest) := by
  induction line with
  | nil => exact more
  | cons c others ih =>
    exact cons (ih fun d member => oneLine d (List.mem_cons_of_mem c member))
      fun ends => absurd ends (oneLine c List.mem_cons_self)

end InertBreaks

/-- A text whose lines start no blocks. -/
structure InertText (text : List Char) : Prop where
  plain : ∀ c ∈ text, c ≠ '\r'
  start : Inert (firstLine text)
  breaks : InertBreaks text

namespace InertText

variable {text : List Char}

/-- A single line is inert if it starts no block. -/
theorem of_oneLine (oneLine : ∀ c ∈ text, c ≠ '\n' ∧ c ≠ '\r') (start : Inert (firstLine text)) :
    InertText text := by
  refine ⟨fun c member => (oneLine c member).2, start, fun before after apart => ?_⟩
  have breaks : '\n' ∈ text := by
    rw [apart]
    exact List.mem_append_right before List.mem_cons_self
  exact absurd rfl (oneLine '\n' breaks).1

theorem ne_nil (inert : InertText text) : text ≠ [] := by
  rintro rfl
  obtain ⟨c, rest, same, _⟩ := inert.start.first
  simp [firstLine] at same

theorem open_ (inert : InertText text) : text.getLast? ≠ some '\n' := by
  intro last
  obtain ⟨before, same⟩ := List.getLast?_eq_some_iff.mp last
  obtain ⟨c, rest, empty, _⟩ := (inert.breaks before [] same).first
  simp [firstLine] at empty

theorem contents (inert : InertText text) : ∀ line ∈ contents text, Inert line := by
  intro line member
  cases lines : Markup.contents text with
  | nil => simp [lines] at member
  | cons first others =>
    rw [lines] at member
    rcases List.mem_cons.mp member with same | later
    · have head := contents_head text inert.plain
      rw [lines, List.headD_cons] at head
      exact same ▸ head ▸ inert.start
    · obtain ⟨before, after, apart, _, line⟩ := contents_tail text inert.plain line
        (by rw [lines]; exact later)
      exact line ▸ inert.breaks before after apart

end InertText

/-- Spaces after a heading and a closing run of number signs are no part of it, but an escaped number
sign is. -/
theorem headingText_spaced (text : List Char) (count : Nat)
    (first : ∀ c, text.head? = some c → isLineBlank c = false) (last : text.getLast? ≠ some ' ')
    (escaped : ∀ before, text = before ++ ['#'] → before.getLast? = some '\\') :
    headingText (' ' :: (text ++ List.replicate count ' ')) = text := by
  have start : (' ' :: (text ++ List.replicate count ' ')).dropWhile isLineBlank =
      if text = [] then [] else text ++ List.replicate count ' ' := by
    have blank : isLineBlank ' ' = true := rfl
    rw [List.dropWhile_cons_of_pos blank]
    cases text with
    | nil => simp [isLineBlank]
    | cons c rest => simp [first c rfl]
  rcases List.eq_nil_or_concat' text with empty | ⟨before, c, rfl⟩
  · subst empty
    simp only [headingText, start]
    rfl
  · have notBlank : c ≠ ' ' := by simpa using last
    have body : Text.dropEndWhile (· == ' ') (before ++ [c] ++ List.replicate count ' ') =
        before ++ [c] := by
      rw [Text.dropEndWhile_append_replicate _ _ (by decide)]
      simp [Text.dropEndWhile_concat, notBlank]
    have unclosed : ∃ d, (Text.dropEndWhile (· == '#') (before ++ [c])).getLast? = some d ∧ d ≠ ' ' := by
      by_cases mark : c = '#'
      · obtain ⟨start, same⟩ := List.getLast?_eq_some_iff.mp (escaped before (by rw [mark]))
        refine ⟨'\\', ?_, by decide⟩
        rw [mark, Text.dropEndWhile_concat, same, Text.dropEndWhile_concat]
        exact List.getLast?_concat
      · exact ⟨c, by simp [Text.dropEndWhile_concat, mark], notBlank⟩
    obtain ⟨d, ends, visible⟩ := unclosed
    rw [if_neg (by simp)] at start
    simp only [headingText, start, body, ends]

/-- A line without line ends in it, and a line feed. -/
theorem linesOf_whole {line : List Char} (rest : List Char) (oneLine : ∀ c ∈ line, c ≠ '\n' ∧ c ≠ '\r') :
    linesOf (line ++ '\n' :: rest) = ⟨line, .lineFeed⟩ :: linesOf rest := by
  induction line with
  | nil => rfl
  | cons c others ih =>
    obtain ⟨first, later⟩ := List.forall_mem_cons.mp oneLine
    rw [List.cons_append, linesOf_cons _ first, ih later]
    rfl

theorem linesOf_single (text : List Char) (nonempty : text ≠ [])
    (oneLine : ∀ c ∈ text, c ≠ '\n' ∧ c ≠ '\r') : linesOf text = [⟨text, .endOfText⟩] := by
  induction text with
  | nil => exact absurd rfl nonempty
  | cons c rest ih =>
    rw [linesOf_cons rest (oneLine c List.mem_cons_self)]
    cases rest with
    | nil => rfl
    | cons d others =>
      rw [ih (List.cons_ne_nil d others) fun e member => oneLine e (List.mem_cons_of_mem c member)]
      rfl

end DocComment.Markup
