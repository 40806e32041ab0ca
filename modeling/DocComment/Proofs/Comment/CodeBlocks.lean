import DocComment.Proofs.Comment.DefaultTable
import DocComment.Proofs.Comment.Fences
import DocComment.Proofs.Comment.Segmentation
import DocComment.Proofs.Markup.WrittenBlocks
import DocComment.Proofs.Text.RawLines

/-! Code between fences is read as one code block, whatever line ends are in it. For a comment such code is
a raw zone: no line of it is taken for a command or for the end of the code, whatever it holds. -/
namespace DocComment.Markup

/-- The last of the lines, if there is one, ends with a line feed. -/
def EndsFed (lines : List Line) : Prop :=
  ∀ line, lines.getLast? = some line → line.ending = .lineFeed

theorem EndsFed.suffix {lines left : List Line} (fed : EndsFed lines) (ends : left <:+ lines) :
    EndsFed left := by
  intro line last
  obtain ⟨front, rfl⟩ := ends
  exact fed line (by rw [List.getLast?_append, last, Option.some_or])

theorem EndsFed.cons {line next : Line} {others : List Line} (fed : EndsFed (next :: others)) :
    EndsFed (line :: next :: others) := by
  intro last ends
  exact fed last (by rwa [List.getLast?_cons_cons] at ends)

/-- Carriage returns join lines, but not with what follows a line feed. -/
theorem rawLine_within {line : Line} {body : List Line} (fed : EndsFed (line :: body)) (rest : List Line)
    (content : List Char) :
    ∃ raw left, rawLine content line.ending (body ++ rest) = (raw, left ++ rest) ∧ left <:+ body := by
  induction body generalizing line content with
  | nil =>
    rw [fed line rfl, rawLine]
    exact ⟨_, [], rfl, List.suffix_rfl⟩
  | cons next others ih =>
    cases line.ending with
    | lineFeed => exact ⟨_, next :: others, rfl, List.suffix_rfl⟩
    | endOfText => exact ⟨_, next :: others, rfl, List.suffix_rfl⟩
    | carriageReturn =>
      obtain ⟨raw, left, same, ends⟩ := ih (fed.suffix (List.suffix_cons line _)) next.content
      rw [List.cons_append, rawLine, same]
      exact ⟨_, left, rfl, ends.trans (List.suffix_cons next others)⟩

/-- Lines that do not close the fence are code, up to the closing fence at the end. -/
theorem fencedLines_to_end {count : Nat} (positive : 0 < count) {body : List Line} {closing : Line}
    (short : ∀ line ∈ body, ∀ part, part <:+ line.content → runLength '`' part < count)
    (fed : EndsFed body) (closes : closing.content = List.replicate count '`') (fuel : Nat)
    (enough : body.length < fuel) :
    ∃ code, fencedLines [] ⟨'`', count⟩ 0 fuel (body ++ [closing]) = (code, []) := by
  induction fuel generalizing body with
  | zero => cases enough
  | succ fuel ih =>
    cases body with
    | nil =>
      exact ⟨_, @fencedLines_code [] count [] [] [] closing positive rfl (by simp) closes (by simp) _ enough⟩
    | cons line more =>
      have unclosed := short line List.mem_cons_self _
        (skipBlanks_suffix 4 { column := 0, rest := line.content })
      obtain ⟨raw, left, same, ends⟩ := rawLine_within fed [closing] line.content
      have shorter := ends.length_le
      rw [List.length_cons] at enough
      obtain ⟨code, read⟩ := ih
        (fun other member => short other (List.mem_cons_of_mem line (ends.subset member)))
        (fed.suffix (ends.trans (List.suffix_cons line more))) (by omega)
      rw [List.cons_append, fencedLines]
      simp [followSpine, skipBlanks_zero, CodeFence.closedBy, Nat.not_le.mpr unclosed, same, read]

/-- A line of text is split at its carriage returns. -/
theorem linesOf_line {line : List Char} (rest : List Char) (inLine : '\n' ∉ line) :
    ∃ first others, linesOf (line ++ '\n' :: rest) = first :: (others ++ linesOf rest) ∧
      EndsFed (first :: others) ∧ first.content <+: line ∧ ∀ part ∈ others, part.content <:+: line := by
  have alone : EndsFed [⟨[], .lineFeed⟩] := by
    rintro last ⟨⟩
    rfl
  induction line with
  | nil => exact ⟨_, [], rfl, alone, List.prefix_rfl, by simp⟩
  | cons c more ih =>
    rw [List.mem_cons, not_or] at inLine
    obtain ⟨first, others, same, fed, start, within⟩ := ih inLine.2
    have later : ∀ part ∈ others, part.content <:+: c :: more := fun part member =>
      (within part member).trans (List.suffix_cons c more).isInfix
    rw [List.cons_append]
    by_cases carriage : c = '\r'
    · subst carriage
      cases more with
      | nil => exact ⟨_, [], rfl, alone, List.nil_prefix, by simp⟩
      | cons d left =>
        have apart : linesOf ('\r' :: (d :: left ++ '\n' :: rest)) =
            ⟨[], .carriageReturn⟩ :: linesOf (d :: left ++ '\n' :: rest) := by
          rw [linesOf]
          intro more follows
          exact inLine.2 ((List.cons.inj follows).1 ▸ List.mem_cons_self)
        rw [apart, same]
        refine ⟨_, first :: others, rfl, fed.cons, List.nil_prefix, ?_⟩
        exact List.forall_mem_cons.mpr
          ⟨start.isInfix.trans (List.suffix_cons '\r' (d :: left)).isInfix, later⟩
    · rw [linesOf_cons _ ⟨Ne.symm inLine.1, carriage⟩, same]
      refine ⟨_, others, rfl, ?_, List.cons_prefix_cons.mpr ⟨rfl, start⟩, later⟩
      cases others with
      | nil =>
        rintro last ⟨⟩
        exact fed first rfl
      | cons next more => exact (fed.suffix (List.suffix_cons first _)).cons

/-- Lines of text before a last line. -/
theorem linesOf_flatMap {lines : List (List Char)} (last : List Char)
    (inLine : ∀ line ∈ lines, '\n' ∉ line) :
    ∃ body, linesOf (lines.flatMap (· ++ ['\n']) ++ last) = body ++ linesOf last ∧ EndsFed body ∧
      ∀ part ∈ body, ∃ line ∈ lines, part.content <:+: line := by
  induction lines with
  | nil => exact ⟨[], rfl, by rintro line ⟨⟩, by simp⟩
  | cons line more ih =>
    obtain ⟨own, later⟩ := List.forall_mem_cons.mp inLine
    obtain ⟨body, same, fed, within⟩ := ih later
    obtain ⟨first, others, split, ends, start, inside⟩ :=
      linesOf_line (more.flatMap (· ++ ['\n']) ++ last) own
    refine ⟨first :: others ++ body, ?_, ?_, ?_⟩
    · simp [split, same]
    · cases body with
      | nil => rwa [List.append_nil]
      | cons next rest =>
        intro final last
        rw [List.getLast?_append, List.getLast?_cons] at last
        exact fed final (by simpa [List.getLast?_cons] using last)
    · intro part member
      rcases List.mem_append.mp member with here | further
      · refine ⟨line, List.mem_cons_self, ?_⟩
        rcases List.mem_cons.mp here with rfl | other
        · exact start.isInfix
        · exact inside part other
      · obtain ⟨line, inLines, part⟩ := within part further
        exact ⟨line, List.mem_cons_of_mem _ inLines, part⟩

/-- Lines between fences that are longer than any run of backticks in them are read as one code block. -/
theorem read_fenced {count : Nat} {info : List Char} {lines : List (List Char)} (enough : 3 ≤ count)
    (plain : ∀ c ∈ info, c ≠ '`' ∧ c ≠ '\n' ∧ c ≠ '\r') (inLine : ∀ line ∈ lines, '\n' ∉ line)
    (short : ∀ line ∈ lines, ∀ part, part <:+: line → runLength '`' part < count) :
    ∃ shown code, read (String.ofList (Text.joinLines
      ((List.replicate count '`' ++ info) :: (lines ++ [List.replicate count '`'])))) =
        [.leaf (.codeBlock shown code)] := by
  obtain ⟨more, rfl⟩ := Nat.exists_eq_add_of_le' enough
  have fence : ∀ c ∈ List.replicate (more + 3) '`', c ≠ '\n' ∧ c ≠ '\r' :=
    List.forall_mem_replicate.mpr (.inr (by decide))
  have opening : ∀ c ∈ List.replicate (more + 3) '`' ++ info, c ≠ '\n' ∧ c ≠ '\r' :=
    List.forall_mem_append.mpr ⟨fence, fun c member => (plain c member).2⟩
  obtain ⟨body, same, fed, within⟩ := linesOf_flatMap (List.replicate (more + 3) '`') inLine
  rw [linesOf_single _ (by simp) fence] at same
  obtain ⟨closing, closes, closing_⟩ : ∃ closing : Line, closing.content = List.replicate (more + 3) '`' ∧
      closing = ⟨List.replicate (more + 3) '`', .endOfText⟩ := ⟨_, rfl, rfl⟩
  rw [← closing_] at same
  have unclosed : ∀ line ∈ body, ∀ part, part <:+ line.content → runLength '`' part < more + 3 := by
    intro line member part ends
    obtain ⟨own, inLines, inside⟩ := within line member
    exact short own inLines part (ends.isInfix.trans inside)
  obtain ⟨code, read⟩ := fencedLines_to_end (by omega) unclosed fed closes
    ((body ++ [closing]).length + 1) (by rw [List.length_append]; omega)
  have own := linesOf_whole (lines.flatMap (· ++ ['\n']) ++ List.replicate (more + 3) '`') opening
  rw [same] at own
  have item : itemStart? 0 { column := 0, rest := List.replicate (more + 3) '`' ++ info } = none := by
    simp [itemStart?, ListMark.read?, List.replicate_succ]
  have block := leafBlock_fence {} 0 .lineFeed enough (fun mark => (plain _ mark).1 rfl) read
  have blocks := blocksOf_single own (by rw [List.replicate_succ]; rfl) (by decide) (by decide) item block
  generalize unescape (Text.dropEndWhile isLineBlank (info.dropWhile isLineBlank)) = shown at blocks
  refine ⟨String.ofList shown, String.ofList code, ?_⟩
  have written : events (Text.joinLines
      ((List.replicate (more + 3) '`' ++ info) :: (lines ++ [List.replicate (more + 3) '`']))) =
        .enter (.codeBlock (String.ofList shown)) :: [.text (String.ofList code)] ++ [.leave] := by
    rw [joinLines_fenced, events, blocks]
    rfl
  have built := ((Builds.text (String.ofList code)).enclosed (.codeBlock (String.ofList shown))).treeOf
  rw [Markup.read, String.toList_ofList, written, built, gather_single, closeOpening, gather_single]
  simp [Entity.plainTextAll, Entity.plainText]

end DocComment.Markup

namespace DocComment.Comment

open Markup (runLength codeBlockMarkup)

/-- The lines of a text, without the carriage returns at their ends. -/
def shownLines (text : List Char) : List (List Char) :=
  (Text.rawLines text).map (Text.dropEndWhile (· == '\r'))

theorem linesOf_texts (text : String) : (linesOf text).map Line.text = shownLines text.toList := by
  have lines : ((Text.rawLines text.toList).zipIdx 1).map Prod.fst = Text.rawLines text.toList :=
    List.zipIdx_map_fst 1 _
  rw [shownLines, ← lines, linesOf, List.map_map, List.map_map]
  rfl

theorem mem_shownLines {text line : List Char} (member : line ∈ shownLines text) :
    line <:+: text ∧ '\n' ∉ line := by
  obtain ⟨raw, inText, rfl⟩ := List.mem_map.mp member
  obtain ⟨inside, oneLine⟩ := Text.mem_rawLines inText
  have start : Text.dropEndWhile (· == '\r') raw <+: raw := Text.dropEndWhile_starts raw
  exact ⟨start.isInfix.trans inside, fun lineEnd => oneLine (start.subset lineEnd)⟩

theorem classify_of_mem {text : String} (member : line ∈ linesOf text) :
    line = Line.classify line.number line.text := by
  obtain ⟨number, content, same⟩ := exists_classify member
  subst line
  rfl

theorem content_suffix {text : String} (member : line ∈ linesOf text) : line.content <:+ line.text := by
  obtain ⟨blanks, same, _⟩ := indentation_content 0 line.text
  have content : line.content = (indentation 0 line.text).2 :=
    congrArg Line.content (classify_of_mem member)
  exact ⟨blanks, by rw [content, ← same]⟩

namespace SegmentState

/-- All lines so far are markup under no command, and this fence is open after them. -/
structure AllMarkup (state : SegmentState) (fence : Option Fence) (shown : List (List Char)) : Prop where
  fence : state.fence = fence
  command : state.openCommand = none
  markup : state.markup = shown.reverse
  nodes : state.nodes = []

namespace AllMarkup

variable {state : SegmentState} {opened : Fence} {shown : List (List Char)}
variable (read : String → List Entity) (table : CommandTable)

/-- A line inside a fence is kept, and may close the fence. -/
theorem push (all : state.AllMarkup (some opened) shown) (line : Line) :
    (state.push read table line).AllMarkup
      (if line.quoteDepth = 0 ∧ opened.closedBy line.fence = true then none else some opened)
      (shown ++ [line.text]) := by
  have kept : state.append line.text = { state with markup := line.text :: state.markup } := by
    simp only [append, all.command]
  constructor <;> simp [SegmentState.push, all.fence, kept, all.command, all.markup, all.nodes]

/-- Lines that do not close the fence are all kept. -/
theorem pushAll (all : state.AllMarkup (some opened) shown) {lines : List Line}
    (unclosed : ∀ line ∈ lines, ¬ (line.quoteDepth = 0 ∧ opened.closedBy line.fence = true)) :
    (lines.foldl (SegmentState.push read table) state).AllMarkup (some opened)
      (shown ++ lines.map Line.text) := by
  induction lines generalizing state shown with
  | nil => simpa using all
  | cons line rest ih =>
    obtain ⟨first, later⟩ := List.forall_mem_cons.mp unclosed
    have next := all.push read table line
    rw [if_neg first] at next
    have last := ih next later
    rwa [List.append_assoc, List.singleton_append] at last

/-- A line that starts with a fence and is no command opens it. -/
theorem opening {line : Line} (unquoted : line.quoteDepth = 0) (flush : line.indent = 0)
    (unlisted : line.listMarker = none) (fence : line.fence = some opened) (inked : line.isBlank = false)
    (noCommand : table.recognize? line.content = none) :
    (({} : SegmentState).push read table line).AllMarkup (some opened) [line.text] := by
  have outside : ({} : SegmentState).trackList line = {} := by simp [trackList, unlisted]
  have text : ({} : SegmentState).push read table line = ({} : SegmentState).addText line := by
    simp [SegmentState.push, inked, outside, noCommand]
  rw [text]
  constructor <;> simp [addText, append, unquoted, flush, fence]

/-- The only node at the end is the markup of all lines. -/
theorem segmentEnd {fence : Option Fence} (all : state.AllMarkup fence shown) :
    (state.endSegment read).nodes.reverse = Stretch.markupNodes read shown := by
  obtain ⟨_, _, nodes, _⟩ := flushMarkup_spec state read
  rw [endSegment, closeCommand_of_closed all.command, nodes, all.nodes, all.markup]
  simp

end AllMarkup

end SegmentState

/-- What a comment has collected and follows after these lines of it, under the default patterns. -/
def SegmentState.after (lines : List Line) : SegmentState :=
  lines.foldl (SegmentState.push Markup.read .default) {}

section

variable {text : String} {count : Nat} {info : List Char}

theorem opening_content (enough : 3 ≤ count) (member : line ∈ linesOf text)
    (fence : line.text = List.replicate count '`' ++ info) :
    line.content = line.text ∧ line.content.head? = some '`' ∧ line.indent = 0 ∧ line.listMarker = none := by
  obtain ⟨more, rfl⟩ := Nat.exists_eq_add_of_le' enough
  rw [List.replicate_succ] at fence
  rw [classify_of_mem member, fence]
  exact ⟨rfl, rfl, rfl, rfl⟩

theorem opening_fence (enough : 3 ≤ count) (plain : '`' ∉ info) (member : line ∈ linesOf text)
    (opening : line.text = List.replicate count '`' ++ info) :
    ∃ bare, line.fence = some ⟨.backticks, count, bare⟩ := by
  have run : runLength FenceKind.backticks.mark line.content = count := by
    rw [(opening_content enough member opening).1, opening]
    exact Markup.runLength_replicate count fun first => plain (List.mem_of_head? first)
  refine ⟨(Text.trim (line.content.drop count)).isEmpty, ?_⟩
  rw [fence_of_mem member, detect?_eq_some_iff, run]
  exact ⟨enough, rfl⟩

/-- After the first line of written code its fence is open. -/
theorem allMarkup_opening (enough : 3 ≤ count) (plain : '`' ∉ info) (member : line ∈ linesOf text)
    (opening : line.text = List.replicate count '`' ++ info) :
    ∃ bare, (SegmentState.after [line]).AllMarkup (some ⟨.backticks, count, bare⟩) [line.text] := by
  obtain ⟨_, first, flush, unlisted⟩ := opening_content enough member opening
  obtain ⟨bare, fence⟩ := opening_fence enough plain member opening
  have unquoted : line.quoteDepth = 0 := quoteDepth_of_fence member (by rw [fence]; rfl)
  have inked : line.isBlank = false := by
    obtain ⟨rest, content⟩ := List.head?_eq_some_iff.mp first
    rw [Line.isBlank, content]
    rfl
  have noCommand : CommandTable.default.recognize? line.content = none :=
    CommandTable.recognize?_default (by rw [first]; decide)
  exact ⟨bare, .opening Markup.read .default unquoted flush unlisted fence inked noCommand⟩

/-- The fence alone closes it. -/
theorem closes_fence (enough : 3 ≤ count) (member : line ∈ linesOf text)
    (closing : line.text = List.replicate count '`') {opened : Fence} (kind : opened.kind = .backticks)
    (length : opened.length = count) : line.quoteDepth = 0 ∧ opened.closedBy line.fence = true := by
  have bare : line.text = List.replicate count '`' ++ [] := by rw [closing, List.append_nil]
  have content : line.content = List.replicate count '`' := by
    rw [(opening_content enough member bare).1, closing]
  have run : runLength FenceKind.backticks.mark (List.replicate count '`') = count := by
    simp [runLength, FenceKind.mark]
  rw [closedBy_iff member (length ▸ enough), kind, length, content, run]
  simp

end

theorem shownLine {line : List Char} (plain : ∀ c ∈ line, c ≠ '\n' ∧ c ≠ '\r') :
    Text.dropEndWhile (· == '\r') line = line :=
  (Text.dropEndWhile_eq_self_iff line).mpr fun c last =>
    beq_false_of_ne (plain c (List.mem_of_getLast? last)).2

/-- The lines of written code are those of the code between two fences. -/
theorem shownLines_codeBlock {language : String} (plain : ∀ c ∈ language.toList, c ≠ '\n' ∧ c ≠ '\r')
    (code : String) {count : Nat} (length : count = max (Text.longestRun '`' code.toList) 2 + 1) :
    shownLines (codeBlockMarkup language code) =
      (List.replicate count '`' ++ language.toList) ::
        (shownLines code.toList ++ [List.replicate count '`']) := by
  have fence : ∀ c ∈ List.replicate count '`', c ≠ '\n' ∧ c ≠ '\r' :=
    List.forall_mem_replicate.mpr (.inr (by decide))
  have opening : ∀ c ∈ List.replicate count '`' ++ language.toList, c ≠ '\n' ∧ c ≠ '\r' :=
    List.forall_mem_append.mpr ⟨fence, plain⟩
  have nonempty : List.replicate count '`' ≠ [] := by simp [length]
  have oneLine : '\n' ∉ List.replicate count '`' := fun lineEnd => (fence _ lineEnd).1 rfl
  have apart : '\n' ∉ List.replicate count '`' ++ language.toList := fun lineEnd => (opening _ lineEnd).1 rfl
  have inner := Text.rawLines_concat code.toList nonempty oneLine
  rw [codeBlockMarkup, ← length]
  generalize (if code.toList.isEmpty || code.toList.getLast? == some '\n' then [] else ['\n']) = lineEnd at *
  have markup : List.replicate count '`' ++ language.toList ++ '\n' :: code.toList ++ lineEnd ++
      List.replicate count '`' = List.replicate count '`' ++ language.toList ++
        '\n' :: (code.toList ++ lineEnd ++ List.replicate count '`') := by
    simp
  rw [shownLines, markup, Text.rawLines_cons apart, inner, List.map_cons, List.map_append, shownLine opening,
    List.map_singleton, shownLine fence, shownLines]

/-- Inside the fence that is around code no line closes it. -/
theorem unclosed_code {text : String} {code : List Char} (member : line ∈ linesOf text)
    (inCode : line.text ∈ shownLines code) {opened : Fence} (kind : opened.kind = .backticks)
    (length : opened.length = max (Text.longestRun '`' code) 2 + 1) :
    ¬ (line.quoteDepth = 0 ∧ opened.closedBy line.fence = true) := by
  have long : Fence.minLength ≤ opened.length := by
    rw [length, Fence.minLength]
    omega
  have short : runLength '`' line.content ≤ Text.longestRun '`' code :=
    Markup.runLength_le_longestRun ((content_suffix member).isInfix.trans (mem_shownLines inCode).1)
  rw [closedBy_iff member long, kind]
  rintro ⟨enough, _⟩
  have enough : opened.length ≤ runLength '`' line.content := enough
  omega

/-- The lines of written code are one block of code. -/
theorem markupNodes_code {count : Nat} {info code : List Char} (enough : 3 ≤ count)
    (plain : ∀ c ∈ info, c ≠ '`' ∧ c ≠ '\n' ∧ c ≠ '\r')
    (length : count = max (Text.longestRun '`' code) 2 + 1) :
    ∃ shown read, Stretch.markupNodes Markup.read
      ((List.replicate count '`' ++ info) :: (shownLines code ++ [List.replicate count '`'])) =
        [.markup [.leaf (.codeBlock shown read)]] := by
  have short : ∀ line ∈ shownLines code, ∀ part, part <:+: line → runLength '`' part < count := by
    intro line member part within
    have bound : runLength '`' part ≤ Text.longestRun '`' code :=
      Markup.runLength_le_longestRun (within.trans (mem_shownLines member).1)
    omega
  obtain ⟨shown, read, blocks⟩ :=
    Markup.read_fenced enough plain (fun line member => (mem_shownLines member).2) short
  have ink : ¬ (Text.trim (List.replicate count '`' ++ info)).isEmpty = true := by
    rw [List.isEmpty_iff, Text.trim_eq_nil_iff]
    intro white
    exact absurd (white '`' (List.mem_append_left _ (List.mem_replicate.mpr ⟨by omega, rfl⟩))) (by decide)
  refine ⟨shown, read, ?_⟩
  rw [Stretch.markupNodes, if_neg, joined, blocks]
  rw [List.all_cons, Bool.and_eq_true]
  exact fun all => ink all.1

/-- Written code is one node of markup, and its fence is open on every line of the code. -/
theorem code_block_raw {language : String} (info : ∀ c ∈ language.toList, c ≠ '`' ∧ c ≠ '\n' ∧ c ≠ '\r')
    (code : String) :
    ∃ opening body closing,
      linesOf (Markup.write [.leaf (.codeBlock language code)]) = opening :: (body ++ [closing]) ∧
      body.map Line.text = shownLines code.toList ∧
      (∀ earlier, earlier <+: body → (SegmentState.after (opening :: earlier)).fence.isSome = true) ∧
      (SegmentState.after (opening :: (body ++ [closing]))).fence = none ∧
      ∃ shown read, segment Markup.read .default (Markup.write [.leaf (.codeBlock language code)]) =
        [.markup [.leaf (.codeBlock shown read)]] := by
  obtain ⟨count, length⟩ : ∃ count, count = max (Text.longestRun '`' code.toList) 2 + 1 := ⟨_, rfl⟩
  have enough : 3 ≤ count := by omega
  have plain : '`' ∉ language.toList := fun mark => (info _ mark).1 rfl
  have oneLine : ∀ c ∈ language.toList, c ≠ '\n' ∧ c ≠ '\r' := fun c member => (info c member).2
  have written :
      (Markup.write [.leaf (.codeBlock language code)]).toList = codeBlockMarkup language code := by
    rw [Markup.write_single rfl (by simp [Markup.markupOf, Markup.leafMarkup, codeBlockMarkup]),
      String.toList_ofList, Markup.markupOf, Markup.leafMarkup]
  generalize Markup.write [.leaf (.codeBlock language code)] = text at written ⊢
  have texts := linesOf_texts text
  rw [written, shownLines_codeBlock oneLine code length] at texts
  obtain ⟨opening, rest, lines, start, after⟩ := List.map_eq_cons_iff.mp texts
  obtain ⟨body, last, rfl, inner, ends⟩ := List.map_eq_append_iff.mp after
  obtain ⟨closing, rfl, stop⟩ := List.map_eq_singleton_iff.mp ends
  have member : ∀ line ∈ opening :: (body ++ [closing]), line ∈ linesOf text :=
    fun line inside => lines ▸ inside
  obtain ⟨bare, opens⟩ := allMarkup_opening enough plain (member opening List.mem_cons_self) start
  have unclosed : ∀ line ∈ body,
      ¬ (line.quoteDepth = 0 ∧ Fence.closedBy ⟨.backticks, count, bare⟩ line.fence = true) :=
    fun line inside => unclosed_code (member line (by simp [inside]))
      (inner ▸ List.mem_map_of_mem inside) rfl length
  have inside : ∀ earlier, earlier <+: body → (SegmentState.after (opening :: earlier)).AllMarkup
      (some ⟨.backticks, count, bare⟩) (opening.text :: earlier.map Line.text) :=
    fun earlier start => opens.pushAll Markup.read .default
      fun line before => unclosed line (start.subset before)
  have closes : closing.quoteDepth = 0 ∧ Fence.closedBy ⟨.backticks, count, bare⟩ closing.fence = true :=
    closes_fence enough (member closing (by simp)) stop rfl rfl
  have whole : (SegmentState.after (opening :: (body ++ [closing]))).AllMarkup none
      (opening.text :: (body.map Line.text ++ [closing.text])) := by
    have closed := (inside body List.prefix_rfl).push Markup.read .default closing
    rw [if_pos closes] at closed
    rw [SegmentState.after, ← List.cons_append, List.foldl_append]
    exact closed
  refine ⟨opening, body, closing, lines, inner, fun earlier start => ?_, whole.fence, ?_⟩
  · rw [(inside earlier start).fence]
    rfl
  · obtain ⟨shown, read, node⟩ := markupNodes_code enough info length
    refine ⟨shown, read, ?_⟩
    have nodes := whole.segmentEnd Markup.read
    rw [start, inner, stop, node] at nodes
    rw [segment, lines]
    exact nodes

/-- Code with a fence and a command of its own, and without a line end. -/
theorem command_in_code_block_raw :
    (∀ c ∈ "sh".toList, c ≠ '`' ∧ c ≠ '\n' ∧ c ≠ '\r') ∧
      ∃ shown read, segment Markup.read .default
        (Markup.write [.leaf (.codeBlock "sh" "```\n\\effects x")]) =
          [.markup [.leaf (.codeBlock shown read)]] := by
  have language : ∀ c ∈ "sh".toList, c ≠ '`' ∧ c ≠ '\n' ∧ c ≠ '\r' := by simp
  obtain ⟨_, _, _, _, _, _, _, shown, read, nodes⟩ := code_block_raw language "```\n\\effects x"
  exact ⟨language, shown, read, nodes⟩

end DocComment.Comment
