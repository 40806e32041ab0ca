import DocComment.Markup.Inline
import DocComment.Markup.Write
import DocComment.Proofs.Text.Trim

namespace DocComment.Markup

open Unicode (isAsciiPunctuation)

/-- What `\n` is written as: itself, or a blank where everything stands on one line. -/
def writtenEnd (lineEnd c : Char) : Char :=
  if c == '\n' then lineEnd else c

theorem map_writtenEnd {lineEnd : Char} {text : List Char}
    (oneLine : ∀ c ∈ text, (c == '\n') = false) : text.map (writtenEnd lineEnd) = text := by
  rw [List.map_congr_left fun c member => ?_, List.map_id]
  simp [writtenEnd, oneLine c member]

theorem map_writtenEnd_self (text : List Char) : text.map (writtenEnd '\n') = text := by
  rw [List.map_congr_left fun c _ => ?_, List.map_id]
  by_cases ends : c = '\n' <;> simp [writtenEnd, ends]

namespace InlineState

/-- The state after more pieces, the last of them read up to `before`. -/
def past (state : InlineState) (pieces : List Piece) (before : Option Char) : InlineState :=
  { state.pushAll pieces with before }

theorem push_before (state : InlineState) (piece : Piece) (before : Option Char) :
    ({ state with before } : InlineState).push piece = { state.push piece with before } := by
  unfold push
  split <;> simp_all

theorem pushAll_before (state : InlineState) (pieces : List Piece) (before : Option Char) :
    ({ state with before } : InlineState).pushAll pieces = { state.pushAll pieces with before } := by
  induction pieces generalizing state with
  | nil => rfl
  | cons piece rest ih =>
    simp only [pushAll, List.foldl_cons]
    rw [push_before]
    exact ih _

theorem past_past (state : InlineState) (pieces more : List Piece) (before last : Option Char) :
    (state.past pieces before).past more last = state.past (pieces ++ more) last := by
  simp only [past, pushAll_before]
  simp [pushAll, List.foldl_append]

@[simp] theorem past_before (state : InlineState) (pieces : List Piece) (before : Option Char) :
    (state.past pieces before).before = before := rfl

end InlineState

/-- Whole elements are read from the start of a text, which leaves the rest of it. -/
inductive Reads (definitions : List Definition) :
    InlineState → List Char → InlineState → List Char → Prop where
  | none (state : InlineState) (text : List Char) : Reads definitions state text state text
  | step {state next last : InlineState} {c : Char} {text after rest : List Char}
      (read : inlineStep definitions state c text = (next, after))
      (shorter : after.length ≤ text.length) (more : Reads definitions next after last rest) :
      Reads definitions state (c :: text) last rest

namespace Reads

variable {definitions : List Definition}

theorem one {state next : InlineState} {c : Char} {text after : List Char}
    (read : inlineStep definitions state c text = (next, after))
    (shorter : after.length ≤ text.length) : Reads definitions state (c :: text) next after :=
  .step read shorter (.none next after)

theorem trans {state middle last : InlineState} {text between rest : List Char}
    (first : Reads definitions state text middle between)
    (second : Reads definitions middle between last rest) :
    Reads definitions state text last rest := by
  induction first with
  | none => exact second
  | step read shorter _ ih => exact .step read shorter (ih second)

/-- What reads to the end of a text is what a run over it gives. -/
theorem run {state last : InlineState} {text : List Char} {fuel : Nat}
    (reads : Reads definitions state text last []) (enough : text.length ≤ fuel) :
    runInline definitions fuel state text = last := by
  generalize ended : ([] : List Char) = rest at reads
  induction reads generalizing fuel with
  | none state text =>
    subst ended
    cases fuel <;> rfl
  | step read shorter _ ih =>
    cases fuel with
    | zero => simp at enough
    | succ fuel =>
      simp only [runInline, read]
      apply ih _ ended
      simp at enough
      omega

end Reads

/-- Two characters that make no difference to a run of marks after them. -/
def Beside (first second : Option Char) : Prop :=
  ∀ mark run next, Delimiters.ofRun mark run first next = Delimiters.ofRun mark run second next

namespace Beside

theorem refl (before : Option Char) : Beside before before := fun _ _ _ => rfl

theorem trans {first second third : Option Char} (left : Beside first second)
    (right : Beside second third) : Beside first third := fun mark run next =>
  (left mark run next).trans (right mark run next)

/-- The start of a line is like the end of the line before it. -/
theorem lineStart : Beside none (some '\n') := by
  have white : Unicode.isWhite '\n' = true := rfl
  have letter : Unicode.isPunctuation '\n' = false := rfl
  intro mark run next
  simp [Delimiters.ofRun, white, letter]

end Beside

/-- What is written before `rest` is read as these pieces. -/
def ReadAs (definitions : List Definition) (written rest : List Char) (state : InlineState)
    (pieces : List Piece) : Prop :=
  ∃ before, Reads definitions state (written ++ rest) (state.past pieces before) rest ∧
    Beside before (written.getLast?.or state.before)

namespace ReadAs

variable {definitions : List Definition} {rest : List Char} {state : InlineState}

theorem nil : ReadAs definitions [] rest state [] :=
  ⟨state.before, .none state rest, .refl _⟩

theorem one {c : Char} {others : List Char} {pieces : List Piece} {before : Option Char}
    (read : inlineStep definitions state c (others ++ rest) = (state.past pieces before, rest))
    (beside : Beside before (c :: others).getLast?) :
    ReadAs definitions (c :: others) rest state pieces := by
  refine ⟨before, .one read (by simp), ?_⟩
  rw [List.getLast?_cons] at beside ⊢
  exact beside

/-- Elements in a row are read one after the other. -/
theorem append {first second : List Char} {pieces more : List Piece}
    (reads : ReadAs definitions first (second ++ rest) state pieces)
    (next : ∀ before, Beside before (first.getLast?.or state.before) →
      ReadAs definitions second rest (state.past pieces before) more) :
    ReadAs definitions (first ++ second) rest state (pieces ++ more) := by
  obtain ⟨before, one, beside⟩ := reads
  obtain ⟨last, two, near⟩ := next before beside
  refine ⟨last, ?_, ?_⟩
  · rw [List.append_assoc, ← InlineState.past_past]
    exact one.trans two
  · rw [List.getLast?_append, Option.or_assoc]
    refine near.trans ?_
    cases second.getLast? with
    | none => exact beside
    | some c => exact .refl _

/-- An element that is read as one piece, and what is read after it in any state. -/
theorem cons {first second : List Char} {piece : Piece} {more : List Piece}
    (reads : ReadAs definitions first (second ++ rest) state [piece])
    (next : ∀ state, ReadAs definitions second rest state more) :
    ReadAs definitions (first ++ second) rest state (piece :: more) :=
  reads.append fun _ _ => next _

end ReadAs

theorem InlineState.pushAll_outside (before : Option Char) (earlier pieces : List Piece) :
    pushAll ⟨earlier, [], before⟩ pieces = ⟨pieces.reverse ++ earlier, [], before⟩ := by
  induction pieces generalizing earlier with
  | nil => rfl
  | cons piece rest ih =>
    rw [List.reverse_cons, List.append_assoc]
    exact ih (piece :: earlier)

/-- The events of a text that is read as these pieces. -/
theorem ReadAs.inlineEvents {definitions : List Definition} {text : List Char} {pieces : List Piece}
    (reads : ReadAs definitions text [] {} pieces) :
    inlineEvents definitions text = resolveEmphasis pieces := by
  obtain ⟨before, run, _⟩ := reads
  rw [List.append_nil] at run
  have pushed : InlineState.pushAll {} pieces = ⟨pieces.reverse ++ [], [], none⟩ :=
    InlineState.pushAll_outside none [] pieces
  rw [Markup.inlineEvents, run.run (Nat.le_refl _), InlineState.past, pushed]
  simp [InlineState.dropBrackets]

theorem inlineStep_escape (definitions : List Definition) (state : InlineState) {c : Char}
    (rest : List Char) (punctuation : isAsciiPunctuation c = true) :
    inlineStep definitions state '\\' (c :: rest) =
      (state.past [.events [.text (String.ofList [c])]] (some c), rest) := by
  have inLine : c ≠ '\n' := by rintro rfl; simp [isAsciiPunctuation] at punctuation
  simp [inlineStep, isLineBlank, punctuation]
  rfl

theorem inlineStep_blankReference (definitions : List Definition) (state : InlineState)
    (rest : List Char) :
    inlineStep definitions state '&' ('#' :: '3' :: '2' :: ';' :: rest) =
      (state.past [.events [.text (String.ofList [' '])]] (some ';'), rest) := by
  rfl

theorem inlineStep_tabReference (definitions : List Definition) (state : InlineState)
    (rest : List Char) :
    inlineStep definitions state '&' ('#' :: '9' :: ';' :: rest) =
      (state.past [.events [.text (String.ofList ['\t'])]] (some ';'), rest) := by
  rfl

/-- A run of plain characters, up to one that is not. -/
theorem inlineStep_plain (definitions : List Definition) (state : InlineState) {c : Char}
    {run rest : List Char} (plain : ∀ d ∈ c :: run, isPlain d = true)
    (ends : ∀ d, rest.head? = some d → isPlain d = false) :
    inlineStep definitions state c (run ++ rest) =
      (state.past [.events [.text (String.ofList (c :: run))]] (c :: run).getLast?, rest) := by
  have all : ∀ d ∈ run, isPlain d = true := fun d member => plain d (List.mem_cons_of_mem c member)
  have taken : (run ++ rest).takeWhile isPlain = run := Text.takeWhile_run all ends
  have left : (run ++ rest).dropWhile isPlain = rest := Text.dropWhile_run all ends
  have first := plain c List.mem_cons_self
  simp only [isPlain, Bool.not_eq_true', Bool.or_eq_false_iff] at first
  show _ = (state.addText (c :: run) _, rest)
  simp [inlineStep, first, taken, left]

/-- A run of blanks before something on the same line. -/
theorem inlineStep_blanks (definitions : List Definition) (state : InlineState) {c d : Char}
    {run rest : List Char} (blank : ∀ b ∈ c :: run, isLineBlank b = true)
    (inked : isLineBlank d = false) (inLine : d ≠ '\n') :
    inlineStep definitions state c (run ++ d :: rest) =
      (state.past [.events [.text (String.ofList (c :: run))]] (c :: run).getLast?, d :: rest) := by
  have all : ∀ b ∈ run, isLineBlank b = true := fun b member =>
    blank b (List.mem_cons_of_mem c member)
  have ends : ∀ b, (d :: rest).head? = some b → isLineBlank b = false := by
    rintro b ⟨⟩
    exact inked
  have taken : (run ++ d :: rest).takeWhile isLineBlank = run := Text.takeWhile_run all ends
  have left : (run ++ d :: rest).dropWhile isLineBlank = d :: rest := Text.dropWhile_run all ends
  have first := blank c List.mem_cons_self
  have notEnd : (c == '\n') = false := beq_false_of_ne (by rintro rfl; simp [isLineBlank] at first)
  show _ = (state.addText (c :: run) _, d :: rest)
  simp only [inlineStep, notEnd, first, taken, left, Bool.false_eq_true, if_false, if_true]
  split
  case h_1 empty => contradiction
  case h_2 next ends => exact absurd (List.cons.inj ends).1 inLine
  case h_3 => rfl

theorem inlineStep_blank (definitions : List Definition) (state : InlineState) {d : Char}
    {rest : List Char} (inked : isLineBlank d = false) (inLine : d ≠ '\n') :
    inlineStep definitions state ' ' (d :: rest) =
      (state.past [.events [.text " "]] (some ' '), d :: rest) :=
  @inlineStep_blanks definitions state ' ' d [] rest (by simp [isLineBlank]) inked inLine

theorem dropWhile_inked {rest : List Char} (inked : ∀ d, rest.head? = some d → isLineBlank d = false) :
    rest.dropWhile (fun d => d == ' ' || d == '\t') = rest := by
  refine @Text.dropWhile_run (fun d => d == ' ' || d == '\t') [] rest (by simp) fun d first => ?_
  have unlike := inked d first
  simp only [isLineBlank, Bool.or_eq_false_iff] at unlike
  simp [unlike]

/-- A line end before something that is no blank. -/
theorem inlineStep_lineEnd (definitions : List Definition) (state : InlineState) {rest : List Char}
    (inked : ∀ d, rest.head? = some d → isLineBlank d = false) :
    inlineStep definitions state '\n' rest = (state.past [.events [.softBreak]] none, rest) := by
  simp only [inlineStep, dropWhile_inked inked]
  rfl

/-- A backslash before a line end. -/
theorem inlineStep_hardBreak (definitions : List Definition) (state : InlineState)
    {rest : List Char} (inked : ∀ d, rest.head? = some d → isLineBlank d = false) :
    inlineStep definitions state '\\' ('\n' :: rest) =
      (state.past [.events [.hardBreak]] none, rest) := by
  simp only [inlineStep, isLineBlank, dropWhile_inked inked]
  rfl

/-- A run of asterisks that can open or close emphasis, up to something else. -/
theorem ReadAs.marks (definitions : List Definition) (state : InlineState) {count : Nat}
    {rest : List Char} (positive : 0 < count) (apart : rest.head? ≠ some '*')
    (flanks : (Delimiters.ofRun '*' count state.before rest.head?).canOpen = true ∨
      (Delimiters.ofRun '*' count state.before rest.head?).canClose = true) :
    ReadAs definitions (List.replicate count '*') rest state
      [.delimiters (Delimiters.ofRun '*' count state.before rest.head?)] := by
  obtain ⟨more, rfl⟩ := Nat.exists_eq_add_one.mpr positive
  have run : runLength '*' (List.replicate more '*' ++ rest) = more := by
    rw [runLength, Text.takeWhile_replicate_append more apart, List.length_replicate]
  have left : (List.replicate more '*' ++ rest).drop more = rest :=
    List.drop_left' List.length_replicate
  have read : inlineStep definitions state '*' (List.replicate more '*' ++ rest) =
      (state.past [.delimiters (Delimiters.ofRun '*' (more + 1) state.before rest.head?)] (some '*'),
        rest) := by
    have either : ((Delimiters.ofRun '*' (more + 1) state.before rest.head?).canOpen ||
        (Delimiters.ofRun '*' (more + 1) state.before rest.head?).canClose) = true := by
      simpa using flanks
    simp only [inlineStep, isLineBlank, run, Nat.add_sub_cancel, left, either]
    rfl
  have last : ('*' :: List.replicate more '*').getLast? = some '*' := by
    rw [← List.replicate_succ, List.replicate_succ', List.getLast?_concat]
  rw [List.replicate_succ]
  exact .one read (last ▸ .refl _)

end DocComment.Markup
