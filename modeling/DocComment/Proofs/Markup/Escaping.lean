import DocComment.Markup.Read
import DocComment.Proofs.Markup.Building
import DocComment.Proofs.Markup.LeafBlocks
import DocComment.Proofs.Markup.Marks
import DocComment.Proofs.Markup.Scanning

namespace DocComment.Markup

open Unicode (isAsciiPunctuation)

/-- Blanks and line ends: what can be lost or turn into a break at the edge of a line. -/
def isEdge (c : Char) : Bool :=
  c == ' ' || c == '\t' || c == '\n'

/-- After every blank and every line end of the text the line goes on; `next` follows the text. -/
def goesOn (next : Option Char) : List Char → Bool
  | [] => true
  | c :: rest => (!isEdge c || (rest.head?.or next).any (· != '\n')) && goesOn next rest

theorem goesOn_append {next : Option Char} (first second : List Char) :
    goesOn next (first ++ second) = (goesOn (second.head?.or next) first && goesOn next second) := by
  induction first with
  | nil => rfl
  | cons c rest ih =>
    cases rest with
    | nil => simp [goesOn]
    | cons d others => simp_all [goesOn, Bool.and_assoc]

theorem goesOn_append_right {next : Option Char} {first second : List Char}
    (settled : goesOn next (first ++ second) = true) : goesOn next second = true := by
  rw [goesOn_append, Bool.and_eq_true] at settled
  exact settled.2

theorem goesOn_tail {next : Option Char} {c : Char} {rest : List Char}
    (settled : goesOn next (c :: rest) = true) : goesOn next rest = true := by
  rw [goesOn, Bool.and_eq_true] at settled
  exact settled.2

/-- After a text that ends in a blank or a line end the line goes on. -/
theorem goesOn_last {next : Option Char} {text : List Char} {c : Char}
    (settled : goesOn next text = true) (last : text.getLast? = some c) (edge : isEdge c = true) :
    next.any (· != '\n') = true := by
  obtain ⟨start, rfl⟩ := List.getLast?_eq_some_iff.mp last
  have final := goesOn_append_right settled
  simpa [goesOn, edge] using final

theorem goesOn_of_oneLine {text : List Char} (oneLine : '\n' ∉ text)
    (ends : text.getLast? ≠ some ' ' ∧ text.getLast? ≠ some '\t') : goesOn none text = true := by
  induction text with
  | nil => rfl
  | cons c rest ih =>
    rw [List.mem_cons, not_or] at oneLine
    cases rest with
    | nil =>
      have edge : isEdge c = false := by
        simp only [List.getLast?_singleton, ne_eq, Option.some.injEq] at ends
        simp [isEdge, ends, Ne.symm oneLine.1]
      simp [goesOn, edge]
    | cons d others =>
      have more := ih oneLine.2 (by simpa using ends)
      have inLine : d ≠ '\n' := fun same => oneLine.2 (same ▸ List.mem_cons_self)
      rw [goesOn, more]
      simp [inLine]

/-- Characters that stand for themselves in escaped text and begin nothing. -/
def isInked (c : Char) : Bool :=
  !(isLineBlank c || c == '\n' || isAsciiPunctuation c)

theorem inked_parts {c : Char} (inked : isInked c = true) :
    isLineBlank c = false ∧ (c == '\n') = false ∧ isAsciiPunctuation c = false := by
  simp only [isInked, Bool.not_eq_true', Bool.or_eq_false_iff] at inked
  exact ⟨inked.1.1, inked.1.2, inked.2⟩

theorem isPlain_of_isInked {c : Char} (inked : isInked c = true) : isPlain c = true := by
  obtain ⟨notBlank, notEnd, letter⟩ := inked_parts inked
  have differs : ∀ d, isAsciiPunctuation d = true → (c == d) = false := by
    intro d mark
    refine beq_false_of_ne ?_
    rintro rfl
    simp [mark] at letter
  simp [isPlain, notBlank, notEnd, differs '\\' rfl, differs '`' rfl, differs '*' rfl,
    differs '_' rfl, differs '[' rfl, differs ']' rfl, differs '!' rfl, differs '<' rfl,
    differs '&' rfl]

/-- How text falls into the elements that its escaped form is read as. -/
inductive Elements : (lineStart : Bool) → List Char → Prop where
  | nil (lineStart : Bool) : Elements lineStart []
  | firstBlank {c : Char} {rest : List Char} (blank : c = ' ' ∨ c = '\t') (more : Elements true rest) :
      Elements true (c :: rest)
  | mark {lineStart : Bool} {c : Char} {rest : List Char} (mark : isAsciiPunctuation c = true)
      (more : Elements false rest) : Elements lineStart (c :: rest)
  | lineEnd {lineStart : Bool} {rest : List Char} (more : Elements true rest) :
      Elements lineStart ('\n' :: rest)
  | blanks {c : Char} {run rest : List Char} (blank : ∀ b ∈ c :: run, b = ' ' ∨ b = '\t')
      (ends : ∀ d, rest.head? = some d → isLineBlank d = false) (more : Elements false rest) :
      Elements false (c :: run ++ rest)
  | letters {lineStart : Bool} {c : Char} {run rest : List Char}
      (inked : ∀ b ∈ c :: run, isInked b = true)
      (ends : ∀ d, rest.head? = some d → isInked d = false) (more : Elements false rest) :
      Elements lineStart (c :: run ++ rest)

theorem head?_dropWhile_false {keep : Char → Bool} {text : List Char} {c : Char}
    (first : (text.dropWhile keep).head? = some c) : keep c = false := by
  have stops := List.head?_dropWhile_not keep text
  rw [first] at stops
  simpa using stops

theorem elements (lineStart : Bool) (text : List Char)
    (known : ∀ c ∈ text, c ≠ '\x0b' ∧ c ≠ '\x0c') : Elements lineStart text := by
  induction length : text.length using Nat.strong_induction_on generalizing lineStart text with
  | _ count ih =>
    subst length
    cases text with
    | nil => exact .nil lineStart
    | cons c rest =>
      have later (start : Bool) (shorter : List Char) (suffix : shorter <:+ rest) :
          Elements start shorter :=
        ih shorter.length (by simpa [Nat.lt_succ_iff] using suffix.length_le) start shorter
          (fun d member => known d (List.mem_cons_of_mem c (suffix.subset member))) rfl
      have blankIff : ∀ d ∈ c :: rest, isLineBlank d = true → d = ' ' ∨ d = '\t' := by
        intro d member blank
        simpa [isLineBlank, known d member] using blank
      by_cases mark : isAsciiPunctuation c = true
      · exact .mark mark (later false rest (List.suffix_refl rest))
      by_cases ends : c = '\n'
      · subst ends
        exact .lineEnd (later true rest (List.suffix_refl rest))
      by_cases blank : isLineBlank c = true
      · cases lineStart with
        | true =>
          exact .firstBlank (blankIff c List.mem_cons_self blank)
            (later true rest (List.suffix_refl rest))
        | false =>
          have apart : c :: rest = c :: rest.takeWhile isLineBlank ++ rest.dropWhile isLineBlank := by
            simp
          rw [apart]
          refine .blanks ?_ (fun d => head?_dropWhile_false)
            (later false _ (List.dropWhile_suffix isLineBlank))
          intro b member
          rcases List.mem_cons.mp member with rfl | taken
          · exact blankIff b List.mem_cons_self blank
          · exact blankIff b (List.mem_cons_of_mem c ((List.takeWhile_prefix _).subset taken))
              (List.mem_takeWhile_imp taken)
      · have inked : isInked c = true := by simp [isInked, mark, ends, blank]
        have apart : c :: rest = c :: rest.takeWhile isInked ++ rest.dropWhile isInked := by
          simp
        rw [apart]
        refine .letters ?_ (fun d => head?_dropWhile_false)
          (later false _ (List.dropWhile_suffix isInked))
        intro b member
        rcases List.mem_cons.mp member with rfl | taken
        · exact inked
        · exact List.mem_takeWhile_imp taken

/-- Events that give a text back. A line end comes back as a soft break, or as a blank. -/
inductive Spells : List Event → List Char → Prop where
  | nil : Spells [] []
  | text {events : List Event} {rest : List Char} (chunk : List Char) (more : Spells events rest) :
      Spells (.text (String.ofList chunk) :: events) (chunk ++ rest)
  | softBreak {events : List Event} {rest : List Char} (more : Spells events rest) :
      Spells (.softBreak :: events) ('\n' :: rest)
  | blank {events : List Event} {rest : List Char} (more : Spells events rest) :
      Spells (.text " " :: events) ('\n' :: rest)

theorem not_edge_of_mark {c : Char} (mark : isAsciiPunctuation c = true) :
    isLineBlank c = false ∧ (c == '\n') = false := by
  have differs : ∀ d, isAsciiPunctuation d = false → (c == d) = false := by
    intro d letter
    refine beq_false_of_ne ?_
    rintro rfl
    simp [mark] at letter
  simp [isLineBlank, differs ' ' rfl, differs '\t' rfl, differs '\x0b' rfl, differs '\x0c' rfl,
    differs '\n' rfl]

/-- What a character is written as, and whether the next one is at the start of a line. -/
inductive Escape : (lineStart : Bool) → Char → (written : List Char) → (next : Bool) → Prop where
  | blank : Escape true ' ' "&#32;".toList true
  | tab : Escape true '\t' "&#9;".toList true
  | mark {lineStart : Bool} {c : Char} (mark : isAsciiPunctuation c = true) :
      Escape lineStart c ['\\', c] (c == '\n')
  | bare {lineStart : Bool} {c : Char} (letter : isAsciiPunctuation c = false) :
      Escape lineStart c [c] (c == '\n')

theorem escapeFrom_cons (lineStart : Bool) (c : Char) :
    ∃ written next, Escape lineStart c written next ∧
      ∀ rest, escapeFrom lineStart (c :: rest) = written ++ escapeFrom next rest := by
  simp only [escapeFrom]
  split
  case isTrue blank =>
    simp only [Bool.and_eq_true, beq_iff_eq] at blank
    obtain ⟨rfl, rfl⟩ := blank
    exact ⟨_, _, .blank, fun _ => rfl⟩
  split
  case isTrue tab =>
    simp only [Bool.and_eq_true, beq_iff_eq] at tab
    obtain ⟨rfl, rfl⟩ := tab
    exact ⟨_, _, .tab, fun _ => rfl⟩
  split
  case isTrue mark => exact ⟨_, _, .mark mark, fun _ => rfl⟩
  case isFalse letter => exact ⟨_, _, .bare (by simpa using letter), fun _ => rfl⟩

namespace Escape

variable {lineStart next : Bool} {c : Char} {written : List Char}

theorem mem (escape : Escape lineStart c written next) {d : Char} (member : d ∈ written) :
    d = c ∨ d ∈ "\\&#329;".toList := by
  cases escape with
  | blank => exact .inr ((by decide : "&#32;".toList ⊆ "\\&#329;".toList) member)
  | tab => exact .inr ((by decide : "&#9;".toList ⊆ "\\&#329;".toList) member)
  | mark =>
    rcases List.mem_cons.mp member with rfl | own
    · exact .inr (by decide)
    · exact .inl (List.mem_singleton.mp own)
  | bare => exact .inl (List.mem_singleton.mp member)

theorem oneLine (escape : Escape lineStart c written next) (inLine : c ≠ '\n') :
    ∀ d ∈ written, d ≠ '\n' := by
  intro d member
  rcases escape.mem member with same | mark
  · exact same ▸ inLine
  · exact (List.all_iff_forall_prop.mp (by decide) : ∀ d ∈ "\\&#329;".toList, d ≠ '\n') d mark

end Escape

theorem escapeFrom_append (lineStart : Bool) (text : List Char) :
    ∃ start, ∀ more, escapeFrom lineStart (text ++ more) =
      escapeFrom lineStart text ++ escapeFrom start more := by
  induction text generalizing lineStart with
  | nil => exact ⟨lineStart, fun _ => rfl⟩
  | cons c rest ih =>
    obtain ⟨written, next, _, same⟩ := escapeFrom_cons lineStart c
    obtain ⟨start, later⟩ := ih next
    exact ⟨start, fun more => by rw [List.cons_append, same, same, later, List.append_assoc]⟩

theorem escapeFrom_mark (lineStart : Bool) {c : Char} (rest : List Char)
    (mark : isAsciiPunctuation c = true) :
    escapeFrom lineStart (c :: rest) = '\\' :: c :: escapeFrom false rest := by
  obtain ⟨notBlank, notEnd⟩ := not_edge_of_mark mark
  simp only [isLineBlank, Bool.or_eq_false_iff] at notBlank
  simp [escapeFrom, mark, notBlank, notEnd]

theorem escapeFrom_lineEnd (lineStart : Bool) (rest : List Char) :
    escapeFrom lineStart ('\n' :: rest) = '\n' :: escapeFrom true rest := by
  simp [escapeFrom, isAsciiPunctuation]

theorem escapeFrom_run (run rest : List Char)
    (unmarked : ∀ c ∈ run, isAsciiPunctuation c = false ∧ (c == '\n') = false) :
    escapeFrom false (run ++ rest) = run ++ escapeFrom false rest := by
  induction run with
  | nil => rfl
  | cons c others ih =>
    have first := unmarked c List.mem_cons_self
    have more := ih fun d member => unmarked d (List.mem_cons_of_mem c member)
    simp [escapeFrom, first, more]

theorem escapeFrom_letters (lineStart : Bool) {c : Char} (run rest : List Char)
    (inked : ∀ b ∈ c :: run, isInked b = true) :
    escapeFrom lineStart (c :: run ++ rest) = c :: run ++ escapeFrom false rest := by
  obtain ⟨notBlank, notEnd, letter⟩ := inked_parts (inked c List.mem_cons_self)
  have more := escapeFrom_run run rest fun b member =>
    have ⟨_, ends, letter⟩ := inked_parts (inked b (List.mem_cons_of_mem c member))
    ⟨letter, ends⟩
  simp only [isLineBlank, Bool.or_eq_false_iff] at notBlank
  simp [escapeFrom, letter, notEnd, notBlank, more]

theorem escapeFrom_blanks {c : Char} (run rest : List Char)
    (blank : ∀ b ∈ c :: run, b = ' ' ∨ b = '\t') :
    escapeFrom false (c :: run ++ rest) = c :: run ++ escapeFrom false rest := by
  apply escapeFrom_run
  intro b member
  rcases blank b member with rfl | rfl <;> decide

/-- The first character of escaped text. -/
theorem escapeFrom_head? (lineStart : Bool) (c : Char) (rest : List Char) :
    (escapeFrom lineStart (c :: rest)).head? =
      some (if lineStart && (c == ' ' || c == '\t') then '&'
        else if isAsciiPunctuation c then '\\' else c) := by
  by_cases start : lineStart = true
  · by_cases blank : c = ' '
    · simp [escapeFrom, start, blank]
    by_cases tab : c = '\t'
    · simp [escapeFrom, start, tab]
    by_cases mark : isAsciiPunctuation c = true <;> simp [escapeFrom, blank, tab, mark]
  · by_cases mark : isAsciiPunctuation c = true <;> simp [escapeFrom, start, mark]

/-- What follows inline content: nothing, or a character that ends a text. -/
structure Follows (lineEnd : Char) (next : Option Char) (rest : List Char) : Prop where
  kind : lineEnd = '\n' ∨ lineEnd = ' '
  first : rest.head? = next.map (writtenEnd lineEnd)
  stops : ∀ d, next = some d → isPlain d = false ∧ isLineBlank d = false

section

variable {lineEnd : Char} {next : Option Char} {rest : List Char}

theorem Follows.isPlain_writtenEnd (follows : Follows lineEnd next rest) {c : Char}
    (special : isPlain c = false) : isPlain (writtenEnd lineEnd c) = false := by
  unfold writtenEnd
  split
  · rcases follows.kind with rfl | rfl <;> rfl
  · exact special

/-- After letters comes a character that is not plain. -/
theorem Follows.not_plain (follows : Follows lineEnd next rest) {text : List Char}
    (ends : ∀ d, text.head? = some d → isInked d = false) (d : Char)
    (first : ((escapeFrom false text).map (writtenEnd lineEnd) ++ rest).head? = some d) :
    isPlain d = false := by
  cases text with
  | nil =>
    obtain ⟨c, after, same⟩ := Option.map_eq_some_iff.mp (follows.first ▸ first)
    exact same ▸ follows.isPlain_writtenEnd (follows.stops c after).1
  | cons c others =>
    have unlike := ends c rfl
    have written := escapeFrom_head? false c others
    rw [List.head?_append, List.head?_map, written] at first
    have same := Option.some.inj first
    rw [← same]
    apply follows.isPlain_writtenEnd
    by_cases mark : isAsciiPunctuation c = true
    · simp [mark]
      rfl
    · by_cases blank : isLineBlank c = true
      · simp [mark, isPlain, blank]
      · have ends : c = '\n' := by simpa [isInked, mark, blank] using unlike
        subst ends
        rfl

/-- Where the line goes on, something other than a blank follows in what is written. -/
theorem Follows.goes_on (follows : Follows lineEnd next rest) (lineStart : Bool) {text : List Char}
    (more : (text.head?.or next).any (· != '\n') = true)
    (blank : ∀ c, text.head? = some c → isLineBlank c = true →
      lineStart = true ∧ (c = ' ' ∨ c = '\t')) :
    ∃ d others, (escapeFrom lineStart text).map (writtenEnd lineEnd) ++ rest = d :: others ∧
      isLineBlank d = false ∧ d ≠ '\n' := by
  cases text with
  | nil =>
    obtain ⟨c, after, inLine⟩ := (Option.any_eq_true _ _).mp more
    rw [List.head?_nil, Option.none_or] at after
    have first := follows.first
    have notEnd : (c == '\n') = false := by simpa using inLine
    rw [after, Option.map_some, writtenEnd, notEnd] at first
    obtain ⟨others, rest⟩ := List.head?_eq_some_iff.mp first
    exact ⟨c, others, by simpa [escapeFrom] using rest, (follows.stops c after).2,
      ne_of_beq_false notEnd⟩
  | cons c others =>
    have notEnd : (c == '\n') = false := by simpa using more
    obtain ⟨tail, written⟩ := List.head?_eq_some_iff.mp (escapeFrom_head? lineStart c others)
    rw [written, List.map_cons, List.cons_append]
    refine ⟨_, _, rfl, ?_⟩
    by_cases reference : (lineStart && (c == ' ' || c == '\t')) = true
    · rw [if_pos reference]
      exact ⟨rfl, by simp [writtenEnd]⟩
    rw [if_neg reference]
    by_cases mark : isAsciiPunctuation c = true
    · rw [if_pos mark]
      exact ⟨rfl, by simp [writtenEnd]⟩
    rw [if_neg mark]
    have inked : isLineBlank c = false := by
      by_contra isBlank
      obtain ⟨start, kind⟩ := blank c rfl (by simpa using isBlank)
      apply reference
      simpa [start] using kind
    simpa [writtenEnd, notEnd, inked] using ne_of_beq_false notEnd

theorem Elements.head_blank {text : List Char} (elements : Elements true text) (c : Char)
    (first : text.head? = some c) (blank : isLineBlank c = true) : c = ' ' ∨ c = '\t' := by
  cases elements with
  | nil => simp at first
  | firstBlank kind _ => exact Option.some.inj first ▸ kind
  | mark mark _ =>
    rw [← Option.some.inj first, (not_edge_of_mark mark).1] at blank
    contradiction
  | lineEnd _ => rw [← Option.some.inj first] at blank; simp [isLineBlank] at blank
  | letters inked _ _ =>
    have unlike := inked _ List.mem_cons_self
    rw [← Option.some.inj first] at blank
    simp [isInked, blank] at unlike

/-- What is written before `rest` is read as events that spell a text. -/
def ReadsSpelled (definitions : List Definition) (written rest text : List Char) : Prop :=
  ∃ events, Spells events text ∧ ∀ state,
    ReadAs definitions written rest state (events.map fun event => .events [event])

/-- Text that is read in one go, before more text. -/
theorem ReadsSpelled.cons {definitions : List Definition} {first written chunk text : List Char}
    (reads : ∀ state, ReadAs definitions first (written ++ rest) state
      [.events [.text (String.ofList chunk)]])
    (more : ReadsSpelled definitions written rest text) :
    ReadsSpelled definitions (first ++ written) rest (chunk ++ text) := by
  obtain ⟨events, spells, later⟩ := more
  exact ⟨_, .text chunk spells, fun state => .cons (reads state) later⟩

/-- A line end comes back as a soft break, or as a blank where everything stands on one line. -/
theorem ReadsSpelled.onNext (kind : lineEnd = '\n' ∨ lineEnd = ' ') {definitions : List Definition}
    {written text after : List Char} {d : Char} (starts : written ++ rest = d :: after)
    (inked : isLineBlank d = false) (inLine : d ≠ '\n')
    (more : ReadsSpelled definitions written rest text) :
    ReadsSpelled definitions (lineEnd :: written) rest ('\n' :: text) := by
  obtain ⟨events, spells, later⟩ := more
  rcases kind with rfl | rfl
  · refine ⟨_, .softBreak spells, fun state => @ReadAs.cons _ _ _ ['\n'] _ _ _ (.one ?_ .lineStart) later⟩
    rw [List.nil_append, starts]
    refine inlineStep_lineEnd definitions state ?_
    rintro e ⟨⟩
    exact inked
  · refine ⟨_, .blank spells, fun state => @ReadAs.cons _ _ _ [' '] _ _ _ (.one ?_ (.refl _)) later⟩
    rw [List.nil_append, starts]
    exact inlineStep_blank definitions state inked inLine

/-- Escaped text is read as the text. -/
theorem Elements.reads (follows : Follows lineEnd next rest) (definitions : List Definition)
    {lineStart : Bool} {text : List Char} (elements : Elements lineStart text)
    (settled : goesOn next text = true) :
    ReadsSpelled definitions ((escapeFrom lineStart text).map (writtenEnd lineEnd)) rest text := by
  induction elements with
  | nil lineStart =>
    exact ⟨[], .nil, fun _ => .nil⟩
  | @firstBlank c others blank more ih =>
    have later := ih (goesOn_tail settled)
    rcases blank with rfl | rfl
    · exact @ReadsSpelled.cons rest definitions ['&', '#', '3', '2', ';'] _ [' '] _
        (fun state => .one (inlineStep_blankReference definitions state _) (.refl _)) later
    · exact @ReadsSpelled.cons rest definitions ['&', '#', '9', ';'] _ ['\t'] _
        (fun state => .one (inlineStep_tabReference definitions state _) (.refl _)) later
  | @mark lineStart c others mark more ih =>
    have written : (escapeFrom lineStart (c :: others)).map (writtenEnd lineEnd) =
        ['\\', c] ++ (escapeFrom false others).map (writtenEnd lineEnd) := by
      rw [escapeFrom_mark lineStart others mark]
      simp [writtenEnd, (not_edge_of_mark mark).2]
    rw [written]
    exact @ReadsSpelled.cons rest definitions _ _ [c] _
      (fun state => .one (inlineStep_escape definitions state _ mark) (.refl _)) (ih (goesOn_tail settled))
  | @lineEnd lineStart others more ih =>
    have ahead : (others.head?.or next).any (· != '\n') = true := by
      simp only [goesOn, Bool.and_eq_true] at settled
      simpa [isEdge] using settled.1
    obtain ⟨d, after, written, inked, inLine⟩ := follows.goes_on true ahead
      fun c first blank => ⟨rfl, more.head_blank c first blank⟩
    rw [escapeFrom_lineEnd]
    exact .onNext follows.kind written inked inLine (ih (goesOn_tail settled))
  | @blanks c run others blank ends more ih =>
    have later := ih (goesOn_append_right settled)
    rw [goesOn_append, Bool.and_eq_true] at settled
    have last := List.getLast?_eq_some_getLast (List.cons_ne_nil c run)
    have ahead : (others.head?.or next).any (· != '\n') = true := by
      apply goesOn_last settled.1 last
      rcases blank _ (List.getLast_mem (List.cons_ne_nil c run)) with same | same <;>
        rw [same] <;> rfl
    obtain ⟨d, after, written, inked, inLine⟩ := follows.goes_on false ahead
      fun c first blank => by simp [ends c first] at blank
    have spelled : (escapeFrom false (c :: run ++ others)).map (writtenEnd lineEnd) =
        (c :: run) ++ (escapeFrom false others).map (writtenEnd lineEnd) := by
      rw [escapeFrom_blanks run others blank, List.map_append, map_writtenEnd]
      intro b member
      rcases blank b member with rfl | rfl <;> rfl
    rw [spelled]
    refine .cons (fun state => .one ?_ (.refl _)) later
    rw [written]
    refine inlineStep_blanks definitions state (fun b member => ?_) inked inLine
    rcases blank b member with rfl | rfl <;> rfl
  | @letters lineStart c run others inked ends more ih =>
    have written : (escapeFrom lineStart (c :: run ++ others)).map (writtenEnd lineEnd) =
        (c :: run) ++ (escapeFrom false others).map (writtenEnd lineEnd) := by
      rw [escapeFrom_letters lineStart run others inked, List.map_append, map_writtenEnd]
      exact fun b member => (inked_parts (inked b member)).2.1
    have plain : ∀ d ∈ c :: run, isPlain d = true := fun d member => isPlain_of_isInked (inked d member)
    rw [written]
    exact .cons
      (fun state => .one (inlineStep_plain definitions state plain (follows.not_plain ends)) (.refl _))
      (ih (goesOn_append_right settled))

end

/-- Text on one line comes back as texts. -/
theorem Spells.texts {events : List Event} {text : List Char} (spells : Spells events text)
    (oneLine : '\n' ∉ text) :
    ∃ chunks : List String, events = chunks.map Event.text ∧
      text = (chunks.map String.toList).flatten := by
  induction spells with
  | nil => exact ⟨[], rfl, rfl⟩
  | @text events rest chunk more ih =>
    obtain ⟨chunks, same, spelled⟩ := ih fun member => oneLine (List.mem_append_right chunk member)
    exact ⟨String.ofList chunk :: chunks, by rw [same]; rfl, by simp [spelled]⟩
  | softBreak => exact absurd List.mem_cons_self oneLine
  | blank => exact absurd List.mem_cons_self oneLine

theorem builds_texts (chunks : List String) :
    Builds (chunks.map Event.text) (chunks.map fun chunk => .leaf (.text chunk)) := by
  induction chunks with
  | nil => exact .nil
  | cons chunk rest ih => exact Builds.append (.text chunk) ih

theorem mem_escapeFrom {lineStart : Bool} {text : List Char} {c : Char}
    (member : c ∈ escapeFrom lineStart text) : c ∈ text ∨ c ∈ "\\&#329;".toList := by
  induction text generalizing lineStart with
  | nil => simp [escapeFrom] at member
  | cons d rest ih =>
    obtain ⟨written, next, escape, same⟩ := escapeFrom_cons lineStart d
    rw [same] at member
    rcases List.mem_append.mp member with mark | later
    · rcases escape.mem mark with rfl | added
      · exact .inl List.mem_cons_self
      · exact .inr added
    · exact (ih later).imp_left (List.mem_cons_of_mem d)

/-- A number in escaped text is not followed by what would make it a list marker. -/
theorem dropWhile_escapeFrom {lineStart : Bool} {text : List Char} {rest : List Char}
    (stops : ∀ d, (rest.dropWhile Char.isDigit).head? = some d → d ≠ '.' ∧ d ≠ ')') (d : Char)
    (first : ((escapeFrom lineStart text ++ rest).dropWhile Char.isDigit).head? = some d) :
    d ≠ '.' ∧ d ≠ ')' := by
  induction text generalizing lineStart with
  | nil => exact stops d first
  | cons c others ih =>
    obtain ⟨written, next, escape, same⟩ := escapeFrom_cons lineStart c
    rw [same, List.append_assoc] at first
    cases escape with
    | blank => exact Option.some.inj first ▸ by decide
    | tab => exact Option.some.inj first ▸ by decide
    | mark => exact Option.some.inj first ▸ by decide
    | bare letter =>
      by_cases digit : c.isDigit = true
      · rw [List.singleton_append, List.dropWhile_cons_of_pos digit] at first
        exact ih first
      · rw [List.singleton_append, List.dropWhile_cons_of_neg digit] at first
        obtain rfl := Option.some.inj first
        constructor
        · rintro rfl
          simp [isAsciiPunctuation] at letter
        · rintro rfl
          simp [isAsciiPunctuation] at letter

/-- Escaped text starts no block. -/
theorem inert_escapeFrom {c : Char} (text rest : List Char) (notEnd : c ≠ '\n')
    (blank : isLineBlank c = true → c = ' ' ∨ c = '\t')
    (stops : ∀ d, (rest.dropWhile Char.isDigit).head? = some d → d ≠ '.' ∧ d ≠ ')') :
    Inert (firstLine (escapeFrom true (c :: text) ++ rest)) := by
  have number : ∀ d, ((escapeFrom true (c :: text) ++ rest).dropWhile Char.isDigit).head? = some d →
      d ≠ '.' ∧ d ≠ ')' := dropWhile_escapeFrom stops
  obtain ⟨tail, written⟩ := List.head?_eq_some_iff.mp (escapeFrom_head? true c text)
  rw [written, List.cons_append] at number ⊢
  revert number
  split
  case isTrue => exact fun _ => inert_of_mark _ (by decide)
  split
  case isTrue => exact fun _ => inert_of_mark _ (by decide)
  case isFalse unreferenced letter =>
    have marks : ∀ d ∈ '`' :: blockStarts, isAsciiPunctuation d = true :=
      List.all_iff_forall_prop.mp (by decide)
    have quiet : c ∉ '`' :: blockStarts := fun member => letter (marks c member)
    have inked : isLineBlank c = false := by
      by_contra isBlank
      rcases blank (by simpa using isBlank) with rfl | rfl <;> simp at unreferenced
    rw [List.mem_cons, not_or] at quiet
    exact inert_of_quiet inked quiet.2 notEnd (codeFence?_eq_none _ quiet.2 quiet.1)

/-- A text that is one block is read as what this block opens, around its inline content. -/
theorem read_block {text written : List Char} {block : Block} {opening : Opening}
    (blocks : blocksOf written = ([block], []))
    (inner : blockEvents [] false block = .enter opening :: inlineEvents [] text ++ [.leave])
    {pieces : List Piece} (reads : ReadAs [] text [] {} pieces)
    {events : List Event} (resolves : Resolves [] pieces events)
    {entities : List Entity} (builds : Builds events entities) :
    read (String.ofList written) = gather (closeOpening opening (gather entities)) := by
  have content : inlineEvents [] text = events := reads.inlineEvents.trans resolves.resolveEmphasis
  have all : Markup.events written = .enter opening :: events ++ [.leave] := by
    simp [Markup.events, blocks, allBlockEvents, inner, content]
  rw [read, String.toList_ofList, all, (builds.enclosed opening).treeOf]

/-- Where the lines start no block, a text is read as one paragraph of its inline content. -/
theorem read_paragraph {text written : List Char} (inert : InertText text)
    (same : written = text ∨ written = text ++ ['\n'])
    (defines : text.head? = some '[' → definition? text = none) {pieces : List Piece}
    (reads : ReadAs [] text [] {} pieces) {events : List Event} (resolves : Resolves [] pieces events)
    {entities : List Entity} (builds : Builds events entities) :
    read (String.ofList written) = [.node .paragraph (gather entities)] :=
  read_block (inert.blocksOf written same defines) rfl reads resolves builds

/-- Escaped text on one line starts no block. -/
theorem inertText_escapeFrom {text : List Char} (nonempty : text ≠ [])
    (known : ∀ c ∈ text, c ≠ '\n' ∧ c ≠ '\r' ∧ c ≠ '\x0b' ∧ c ≠ '\x0c') :
    InertText (escapeFrom true text) := by
  obtain ⟨c, rest, rfl⟩ := List.exists_cons_of_ne_nil nonempty
  have plain : ∀ d ∈ escapeFrom true (c :: rest), d ≠ '\n' ∧ d ≠ '\r' := by
    intro d member
    rcases mem_escapeFrom member with own | mark
    · exact ⟨(known d own).1, (known d own).2.1⟩
    · constructor <;> (rintro rfl; simp at mark)
  have first := known c List.mem_cons_self
  have start := inert_escapeFrom rest [] first.1 (fun blank => by simpa [isLineBlank, first] using blank)
    (by simp)
  rw [List.append_nil] at start
  exact .of_oneLine plain start

theorem escapeFrom_head?_ne {lineStart : Bool} {text : List Char} {mark : Char}
    (punctuation : isAsciiPunctuation mark = true) (other : mark ≠ '\\' ∧ mark ≠ '&') :
    (escapeFrom lineStart text).head? ≠ some mark := by
  cases text with
  | nil => simp [escapeFrom]
  | cons c rest =>
    obtain ⟨written, next, escape, same⟩ := escapeFrom_cons lineStart c
    rw [same]
    cases escape with
    | blank | tab => exact fun first => other.2 (Option.some.inj first).symm
    | mark => exact fun first => other.1 (Option.some.inj first).symm
    | bare letter =>
      intro first
      rw [Option.some.inj first, punctuation] at letter
      contradiction

/-- Escaped text is inert: it is read as one paragraph that holds the text and nothing else. -/
theorem read_escape (text : String) (nonempty : text ≠ "")
    (visible : ∀ c ∈ text.toList, c.toNat < 0x20 → c = '\t')
    (ends : text.toList.getLast? ≠ some ' ' ∧ text.toList.getLast? ≠ some '\t') :
    read (escape text) = [.node .paragraph [.leaf (.text text)]] := by
  have known : ∀ c ∈ text.toList, c ≠ '\n' ∧ c ≠ '\r' ∧ c ≠ '\x0b' ∧ c ≠ '\x0c' := by
    intro c member
    refine ⟨?_, ?_, ?_, ?_⟩ <;> (rintro rfl; exact absurd (visible _ member (by decide)) (by decide))
  have oneLine : '\n' ∉ text.toList := fun member => (known _ member).1 rfl
  have chars : text.toList ≠ [] := mt String.toList_eq_nil_iff.mp nonempty
  have follows : Follows '\n' none [] := ⟨.inl rfl, rfl, by simp⟩
  obtain ⟨events, spells, reads⟩ := (elements true text.toList fun c member =>
    (known c member).2.2).reads follows [] (goesOn_of_oneLine oneLine ends)
  obtain ⟨chunks, same, spelled⟩ := spells.texts oneLine
  have pieces : chunks ≠ [] := by
    rintro rfl
    exact chars spelled
  have unbracketed := @escapeFrom_head?_ne true text.toList '[' rfl (by decide)
  have unescaped := reads {}
  rw [map_writtenEnd_self] at unescaped
  rw [escape, read_paragraph (inertText_escapeFrom chars known) (.inl rfl)
    (fun bracket => absurd bracket unbracketed) unescaped (.single events)
    (same ▸ builds_texts chunks), gather_texts chunks pieces, ← spelled, String.ofList_toList]

theorem read_escape_of_markup :
    read (escape "\t 1. # *a* [b]: <c> &lt;  `d` \\") =
      [.node .paragraph [.leaf (.text "\t 1. # *a* [b]: <c> &lt;  `d` \\")]] :=
  read_escape _ (by decide) (List.all_iff_forall_prop.mp (by decide)) (by decide)

end DocComment.Markup
