import Mathlib.Data.List.Basic
import Mathlib.Data.List.Induction
import DocComment.Proofs.Comment.Segmentation
import DocComment.Proofs.Pattern.Spots
import DocComment.Proofs.Text.Trim

/-! Where commands count. A line is taken as a command if it holds one and stands at the start of a
block, outside quotes, fences and lists; a line that holds one elsewhere is content of its segment as
it is written. -/
namespace DocComment.Comment

theorem CommandTable.tokenEnd?_nil (pattern : CommandPattern) : tokenEnd? pattern [] = none := by
  cases found : tokenEnd? pattern [] with
  | none => rfl
  | some length =>
    simp only [tokenEnd?, Option.bind_eq_bind, Option.bind_eq_some_iff] at found
    obtain ⟨⟨start, last⟩, matched, index, _, ⟨first, stop⟩, captured, kept⟩ := found
    have empty : first = stop := Pattern.Regex.search_nil_group matched captured
    simp [empty] at kept

/-- A token is never empty, so a line without content holds no command. -/
theorem CommandTable.recognize?_nil (table : CommandTable) : table.recognize? [] = none := by
  unfold recognize?
  induction table.patterns with
  | nil => rfl
  | cons pattern rest ih => simpa only [List.foldl_cons, tokenEnd?_nil] using ih

/-- The line starts with a quote mark, after at most three spaces. -/
def Line.Quoted (line : Line) : Prop :=
  ∃ spaces ≤ maxBlockIndent, ∃ rest, line.text = List.replicate spaces ' ' ++ '>' :: rest

theorem takeWhile_eq_replicate (c : Char) (text : List Char) :
    text.takeWhile (· == c) = List.replicate (text.takeWhile (· == c)).length c :=
  List.eq_replicate_iff.mpr ⟨rfl, fun d member => by
    simpa using List.all_eq_true.mp List.all_takeWhile d member⟩

theorem quoteDepth_eq_zero_iff (fuel : Nat) (text : List Char) :
    quoteDepth (fuel + 1) text = 0 ↔
      ¬ ∃ spaces ≤ maxBlockIndent, ∃ rest, text = List.replicate spaces ' ' ++ '>' :: rest := by
  constructor
  · rintro zero ⟨spaces, few, rest, same⟩
    have blanks : (text.takeWhile (· == ' ')).length = spaces := by
      rw [same, Text.takeWhile_replicate_append spaces (by simp), List.length_replicate]
    have few : spaces ≤ 3 := few
    have after : text.drop spaces = '>' :: rest := by
      rw [same, List.drop_left' (by simp)]
    simp only [quoteDepth, blanks, few, ↓reduceIte, after] at zero
    split at zero
    · simp at zero
    · simp at zero
    · rename_i other
      exact other rest rfl
  · intro unquoted
    by_cases few : (text.takeWhile (· == ' ')).length ≤ 3
    · simp only [quoteDepth, few, ↓reduceIte]
      have split : text = List.replicate (text.takeWhile (· == ' ')).length ' ' ++
          text.drop (text.takeWhile (· == ' ')).length := by
        rw [← takeWhile_eq_replicate]
        exact (List.prefix_iff_eq_append.mp (List.takeWhile_prefix _)).symm
      split
      · rename_i rest after
        exact absurd ⟨_, few, ' ' :: rest, after ▸ split⟩ unquoted
      · rename_i rest _ after
        exact absurd ⟨_, few, rest, after ▸ split⟩ unquoted
      · rfl
    · simp only [quoteDepth, few, ↓reduceIte]

theorem quoteDepth_classify (number : Nat) (text : List Char) :
    (Line.classify number text).quoteDepth = 0 ↔ ¬ (Line.classify number text).Quoted := by
  have bounded : min maxQuoteDepth (quoteDepth (text.length + 1) text) = 0 ↔
      quoteDepth (text.length + 1) text = 0 := by
    simp only [maxQuoteDepth]
    omega
  exact bounded.trans (quoteDepth_eq_zero_iff text.length text)

theorem indentation_replicate {rest : List Char} (columns count : Nat) (c : Char)
    (shown : c ≠ ' ' ∧ c ≠ '\t') :
    indentation columns (List.replicate count ' ' ++ c :: rest) = (columns + count, c :: rest) := by
  induction count generalizing columns with
  | zero =>
    rw [List.replicate_zero, List.nil_append, indentation]
    · rfl
    · exact fun other same => shown.1 (List.cons.inj same).1
    · exact fun other same => shown.2 (List.cons.inj same).1
  | succ count ih =>
    rw [List.replicate_succ, List.cons_append, indentation, ih]
    simp only [Prod.mk.injEq, and_true]
    omega

theorem content_of_quoted {number : Nat} {text : List Char}
    (quoted : (Line.classify number text).Quoted) :
    ∃ rest, (Line.classify number text).content = '>' :: rest := by
  obtain ⟨spaces, _, rest, same⟩ := quoted
  have same : text = List.replicate spaces ' ' ++ '>' :: rest := same
  refine ⟨rest, ?_⟩
  show (indentation 0 text).2 = '>' :: rest
  rw [same, indentation_replicate 0 spaces '>' (by decide)]

/-- A quoted line has no list marker of its own. -/
theorem listMarker_of_quoted {number : Nat} {text : List Char}
    (quoted : (Line.classify number text).Quoted) :
    (Line.classify number text).listMarker = none := by
  obtain ⟨rest, content⟩ := content_of_quoted quoted
  show listMarkerWidth? (Line.classify number text).content = none
  rw [content]
  rfl

theorem exists_classify {text : String} (member : line ∈ linesOf text) :
    ∃ number content, line = Line.classify number content := by
  obtain ⟨⟨raw, number⟩, _, same⟩ := List.mem_map.mp member
  exact ⟨number, _, same.symm⟩

theorem quoteDepth_iff {text : String} (member : line ∈ linesOf text) :
    line.quoteDepth = 0 ↔ ¬ line.Quoted := by
  obtain ⟨number, content, same⟩ := exists_classify member
  subst line
  exact quoteDepth_classify number content

theorem context_first (split : marksFrom table context lines = mark :: after) :
    mark.context = context := by
  cases lines with
  | nil => cases split
  | cons line rest => rw [← (List.cons.inj split).1]

theorem context_next (split : marksFrom table context lines = before ++ previous :: mark :: after) :
    mark.context = previous.context.next previous.line previous.role := by
  induction lines generalizing before context with
  | nil => simp [marksFrom] at split
  | cons line rest ih =>
    cases before with
    | nil =>
      obtain ⟨same, later⟩ := List.cons.inj split
      rw [context_first later, ← same]
    | cons first before => exact ih (List.cons.inj split).2

theorem mem_linesOf_of_split (split : marks table text = before ++ mark :: after) :
    mark.line ∈ linesOf text := by
  rw [← marks_lines table text, split]
  simp

theorem role_of_split (split : marks table text = before ++ mark :: after) :
    mark.role = mark.context.role table mark.line := by
  have member : mark ∈ marksFrom table {} (linesOf text) := by
    show mark ∈ marks table text
    simp [split]
  exact role_of_mem_marksFrom member

theorem role_ne_blank {mark : Mark} (role : mark.role = mark.context.role table mark.line)
    (shown : mark.line.isBlank = false) : mark.role ≠ .blank := by
  rw [role]
  unfold Context.role
  split
  · simp
  · cases command : mark.context.command? table mark.line with
    | none => simp [shown]
    | some found => simpa [shown] using (SegmentState.command?_isCommand command).2

theorem fence_of_blank {mark : Mark} (role : mark.role = mark.context.role table mark.line)
    (blank : mark.role = .blank) : mark.context.fence = none := by
  cases inside : mark.context.fence with
  | none => rfl
  | some other => simp [Context.role, inside, blank] at role

/-- The fence that a line opens. -/
def Mark.opens? (mark : Mark) : Option Fence :=
  match mark.context.fence with
  | some _ => none
  | none => mark.context.fenceAfter mark.line mark.role

def Mark.Closes (fence : Fence) (mark : Mark) : Prop :=
  mark.line.quoteDepth = 0 ∧ fence.closedBy mark.line.fence = true

instance (fence : Fence) (mark : Mark) : Decidable (mark.Closes fence) :=
  inferInstanceAs (Decidable (_ ∧ _))

/-- One of these lines opened the fence, and none after it closed it. -/
def FencedBy (fence : Fence) (before : List Mark) : Prop :=
  ∃ earlier opener between, before = earlier ++ opener :: between ∧ opener.opens? = some fence ∧
    ∀ mark ∈ between, ¬ mark.Closes fence

theorem not_fencedBy_nil (fence : Fence) : ¬ FencedBy fence [] := by
  rintro ⟨earlier, opener, between, same, _⟩
  simp at same

theorem fencedBy_snoc (fence : Fence) (before : List Mark) (mark : Mark) :
    FencedBy fence (before ++ [mark]) ↔
      mark.opens? = some fence ∨ FencedBy fence before ∧ ¬ mark.Closes fence := by
  constructor
  · rintro ⟨earlier, opener, between, same, opens, unclosed⟩
    rcases List.eq_nil_or_concat' between with none | ⟨others, last, snoc⟩
    · subst none
      obtain ⟨_, same⟩ := List.append_inj' same rfl
      exact .inl (List.singleton_inj.mp same ▸ opens)
    · subst snoc
      have same : before ++ [mark] = (earlier ++ opener :: others) ++ [last] := by simpa using same
      obtain ⟨front, back⟩ := List.append_inj' same rfl
      rw [List.singleton_inj.mp back]
      exact .inr ⟨⟨earlier, opener, others, front, opens, fun other member =>
        unclosed other (by simp [member])⟩, unclosed last (by simp)⟩
  · rintro (opens | ⟨⟨earlier, opener, between, same, opens, unclosed⟩, open_⟩)
    · exact ⟨before, mark, [], rfl, opens, by simp⟩
    · refine ⟨earlier, opener, between ++ [mark], by simp [same], opens, fun other member => ?_⟩
      rcases List.mem_append.mp member with old | new
      · exact unclosed other old
      · exact List.mem_singleton.mp new ▸ open_

/-- The fence that is open after a line was opened by it or is still open. -/
theorem fence_next (mark : Mark) (fence : Fence) :
    (mark.context.next mark.line mark.role).fence = some fence ↔
      mark.opens? = some fence ∨ mark.context.fence = some fence ∧ ¬ mark.Closes fence := by
  cases opened : mark.context.fence with
  | none => simp [Context.next, Mark.opens?, opened]
  | some other =>
    simp only [Context.next, Context.fenceAfter, Mark.opens?, opened, Mark.Closes, Bool.and_eq_true,
      beq_iff_eq, reduceCtorEq, false_or, Option.some.injEq]
    constructor
    · intro kept
      split at kept
      · cases kept
      · rename_i unclosed
        cases kept
        exact ⟨rfl, unclosed⟩
    · rintro ⟨rfl, unclosed⟩
      rw [if_neg unclosed]

theorem fence_iff (split : marks table text = before ++ mark :: after) (fence : Fence) :
    mark.context.fence = some fence ↔ FencedBy fence before := by
  induction before using List.reverseRecOn generalizing mark after with
  | nil =>
    rw [context_first split]
    simp [not_fencedBy_nil]
  | append_singleton before previous ih =>
    have split : marks table text = before ++ previous :: mark :: after := by simpa using split
    rw [context_next split, fence_next, ih split, fencedBy_snoc]

theorem fence_eq_none_iff (split : marks table text = before ++ mark :: after) :
    mark.context.fence = none ↔ ∀ fence, ¬ FencedBy fence before := by
  rw [Option.eq_none_iff_forall_ne_some]
  exact forall_congr' fun fence => not_congr (fence_iff split fence)

/-- The line starts an item of a list, outside quotes and fences. -/
def Mark.OpensItem (mark : Mark) : Prop :=
  mark.context.fence = none ∧ ¬ mark.line.Quoted ∧ mark.line.indent ≤ maxBlockIndent ∧
    mark.line.listMarker.isSome = true

/-- The line is text without indentation, and directly after a blank line. -/
def EndsList (previous mark : Mark) : Prop :=
  previous.role = .blank ∧ mark.line.isBlank = false ∧ mark.line.indent = 0 ∧
    mark.line.listMarker = none

/-- After the last item among the lines, one of them ends the list. -/
def ListsEnded (marks : List Mark) : Prop :=
  ∀ earlier item later, marks = earlier ++ item :: later → item.OpensItem →
    (∀ mark ∈ later, ¬ mark.OpensItem) →
      ∃ first previous mark last, item :: later = first ++ previous :: mark :: last ∧
        EndsList previous mark

theorem listsEnded_nil : ListsEnded [] := by
  intro earlier item later same
  simp at same

theorem listsEnded_snoc (before : List Mark) (mark : Mark) :
    ListsEnded (before ++ [mark]) ↔ ¬ mark.OpensItem ∧
      (ListsEnded before ∨
        ∃ others previous, before = others ++ [previous] ∧ EndsList previous mark) := by
  constructor
  · intro ended
    have closed : ¬ mark.OpensItem := by
      intro opens
      obtain ⟨first, previous, next, last, same, _⟩ := ended before mark [] rfl opens (by simp)
      have lengths := congrArg List.length same
      simp at lengths
      omega
    refine ⟨closed, ?_⟩
    by_cases last : ∃ others previous, before = others ++ [previous] ∧ EndsList previous mark
    · exact .inr last
    · left
      intro earlier item later same opens none
      obtain ⟨first, previous, next, rest, split, ends⟩ := ended earlier item (later ++ [mark])
        (by simp [same]) opens fun other member => by
          rcases List.mem_append.mp member with old | new
          · exact none other old
          · exact List.mem_singleton.mp new ▸ closed
      rcases List.eq_nil_or_concat' rest with empty | ⟨others, final, snoc⟩
      · subst empty
        have split : (item :: later) ++ [mark] = (first ++ [previous]) ++ [next] := by simpa using split
        obtain ⟨front, back⟩ := List.append_inj' split rfl
        rw [← List.singleton_inj.mp back] at ends
        exact absurd ⟨earlier ++ first, previous, by rw [same, front, List.append_assoc], ends⟩ last
      · subst snoc
        have split : (item :: later) ++ [mark] = (first ++ previous :: next :: others) ++ [final] := by
          simpa using split
        exact ⟨first, previous, next, others, (List.append_inj' split rfl).1, ends⟩
  · rintro ⟨closed, ended⟩ earlier item later same opens none
    rcases List.eq_nil_or_concat' later with empty | ⟨others, final, snoc⟩
    · subst empty
      rw [List.singleton_inj.mp (List.append_inj' same rfl).2] at closed
      exact absurd opens closed
    · subst snoc
      have same : before ++ [mark] = (earlier ++ item :: others) ++ [final] := by simpa using same
      obtain ⟨front, back⟩ := List.append_inj' same rfl
      rw [← List.singleton_inj.mp back]
      rcases ended with ended | ⟨init, previous, own, ends⟩
      · obtain ⟨first, previous, next, rest, split, ends⟩ := ended earlier item others front opens
          fun other member => none other (by simp [member])
        exact ⟨first, previous, next, rest ++ [mark], by rw [← List.cons_append, split]; simp, ends⟩
      · obtain ⟨first, last, split⟩ := List.eq_nil_or_concat' (item :: others) |>.resolve_left (by simp)
        have own : init ++ [previous] = (earlier ++ first) ++ [last] := by
          rw [← own, front, split, List.append_assoc]
        rw [List.singleton_inj.mp (List.append_inj' own rfl).2] at ends
        exact ⟨first, last, mark, [], by rw [← List.cons_append, split]; simp, ends⟩

theorem previousBlank_iff (split : marks table text = before ++ mark :: after) :
    mark.context.previousBlank = true ↔
      ∃ others previous, before = others ++ [previous] ∧ previous.role = .blank := by
  rcases List.eq_nil_or_concat' before with none | ⟨others, previous, snoc⟩
  · subst none
    rw [context_first split]
    simp
  · subst snoc
    have split : marks table text = others ++ previous :: mark :: after := by simpa using split
    rw [context_next split]
    constructor
    · intro blank
      exact ⟨others, previous, rfl, by simpa [Context.next] using blank⟩
    · rintro ⟨init, last, same, blank⟩
      rw [← List.singleton_inj.mp (List.append_inj' same rfl).2] at blank
      simp [Context.next, blank]

/-- Outside fences a line that is not blank is in a list unless the lists up to it have ended. -/
theorem track_iff (split : marks table text = before ++ mark :: after)
    (unfenced : mark.context.fence = none) (shown : mark.line.isBlank = false)
    (earlier : mark.context.inList = false ↔ ListsEnded before) :
    (mark.context.track mark.line).inList = false ↔ ListsEnded (before ++ [mark]) := by
  obtain ⟨number, content, classified⟩ := exists_classify (mem_linesOf_of_split split)
  have quoted := quoteDepth_iff (mem_linesOf_of_split split)
  rw [listsEnded_snoc]
  by_cases opens : mark.OpensItem
  · obtain ⟨_, unquoted, shallow, marker⟩ := opens
    have opened : (mark.context.track mark.line).inList = true := by
      simp [Context.track, quoted.mpr unquoted, shallow, marker]
    simp [opened, Mark.OpensItem, unfenced, unquoted, shallow, marker]
  · have condition : (mark.line.quoteDepth == 0 && decide (mark.line.indent ≤ maxBlockIndent) &&
        mark.line.listMarker.isSome) = false := by
      by_contra found
      simp only [Bool.not_eq_false, Bool.and_eq_true, beq_iff_eq, decide_eq_true_eq] at found
      exact opens ⟨unfenced, quoted.mp found.1.1, found.1.2, found.2⟩
    have unmarked : mark.line.indent = 0 → mark.line.listMarker = none := by
      intro flush
      by_contra marked
      refine opens ⟨unfenced, ?_, by simp [flush], Option.isSome_iff_ne_none.mpr marked⟩
      intro quotedLine
      rw [classified] at quotedLine marked
      exact marked (listMarker_of_quoted quotedLine)
    have ends : (∃ others previous, before = others ++ [previous] ∧ EndsList previous mark) ↔
        mark.context.previousBlank = true ∧ mark.line.indent = 0 := by
      rw [previousBlank_iff split]
      constructor
      · rintro ⟨others, previous, same, blank, _, flush, _⟩
        exact ⟨⟨others, previous, same, blank⟩, flush⟩
      · rintro ⟨⟨others, previous, same, blank⟩, flush⟩
        exact ⟨others, previous, same, blank, shown, flush, unmarked flush⟩
    rw [ends, ← earlier]
    simp only [Context.track, condition, Bool.false_eq_true, ↓reduceIte]
    cases inList : mark.context.inList with
    | false => simp [inList, opens]
    | true =>
      by_cases ended : mark.context.previousBlank = true ∧ mark.line.indent = 0
      · simp [ended, opens]
      · have kept : ¬ (mark.context.previousBlank = true ∧ mark.line.indent = 0) := ended
        simp [inList, opens, kept]

theorem inList_iff (split : marks table text = before ++ mark :: after) :
    mark.context.inList = false ↔ ListsEnded before := by
  induction before using List.reverseRecOn generalizing mark after with
  | nil =>
    rw [context_first split]
    simp [listsEnded_nil]
  | append_singleton before previous ih =>
    have split : marks table text = before ++ previous :: mark :: after := by simpa using split
    have earlier := ih split
    have role := role_of_split split
    rw [context_next split]
    cases fence : previous.context.fence with
    | some opened =>
      have closed : ¬ previous.OpensItem := by simp [Mark.OpensItem, fence]
      have unended : ¬ ∃ others last, before = others ++ [last] ∧ EndsList last previous := by
        rintro ⟨others, last, same, blank, _⟩
        subst same
        have split : marks table text = others ++ last :: previous :: mark :: after := by
          simpa using split
        have unfenced := fence_of_blank (role_of_split split) blank
        rw [context_next split] at fence
        simp [Context.next, Context.fenceAfter, unfenced, blank] at fence
      rw [listsEnded_snoc, ← earlier]
      simp [Context.next, fence, closed, unended]
    | none =>
      cases blank : previous.line.isBlank with
      | true =>
        have isBlank : previous.role = .blank := by simp [role, Context.role, fence, blank]
        obtain ⟨number, content, classified⟩ := exists_classify (mem_linesOf_of_split split)
        have closed : ¬ previous.OpensItem := by
          rintro ⟨_, _, _, marker⟩
          have empty : previous.line.content = [] := by simpa [Line.isBlank] using blank
          have own : previous.line.listMarker = listMarkerWidth? previous.line.content := by
            rw [classified]
            rfl
          rw [own, empty] at marker
          cases marker
        have unended : ¬ ∃ others last, before = others ++ [last] ∧ EndsList last previous := by
          rintro ⟨_, _, _, _, shown, _⟩
          rw [blank] at shown
          cases shown
        rw [listsEnded_snoc, ← earlier]
        simp [Context.next, isBlank, closed, unended]
      | false =>
        have shown := role_ne_blank role blank
        rw [← track_iff split fence blank earlier]
        simp [Context.next, fence, shown]

def Mark.isCommand (mark : Mark) : Bool :=
  match mark.role with
  | .text | .blank => false
  | .ends | .special .. | .part .. | .inline .. => true

theorem Mark.isCommand_eq_true (mark : Mark) :
    mark.isCommand = true ↔ mark.role ≠ .text ∧ mark.role ≠ .blank := by
  unfold Mark.isCommand
  split <;> simp_all

/-- The command that a line holds, wherever it stands. -/
def commandIn? (table : CommandTable) (line : Line) : Option Role :=
  (table.recognize? line.content).bind fun (command, length) =>
    commandRole? command (line.content.drop length)

/-- A line at the start of a block, after these lines. -/
structure AtBlockStart (before : List Mark) (mark : Mark) : Prop where
  shallow : mark.line.indent ≤ maxBlockIndent
  unquoted : ¬ mark.line.Quoted
  unfenced : ∀ fence, ¬ FencedBy fence before
  /-- The line itself counts too: it may end the list before it. -/
  unlisted : ListsEnded (before ++ [mark])

theorem command?_eq (table : CommandTable) (context : Context) (line : Line) :
    context.command? table line =
      if line.quoteDepth = 0 ∧ line.indent ≤ maxBlockIndent ∧ (context.track line).inList = false then
        commandIn? table line
      else none := by
  simp only [Context.command?, commandIn?, Bool.and_eq_true, beq_iff_eq, decide_eq_true_eq,
    Bool.not_eq_true', and_assoc]

theorem isBlank_of_commandIn? (held : (commandIn? table line).isSome = true) :
    line.isBlank = false := by
  cases content : line.content with
  | nil => simp [commandIn?, content, CommandTable.recognize?_nil] at held
  | cons c rest => simp [Line.isBlank, content]

theorem isCommand_iff (split : marks table text = before ++ mark :: after) :
    mark.isCommand = true ↔ AtBlockStart before mark ∧ (commandIn? table mark.line).isSome = true := by
  have role := role_of_split split
  have quoted := quoteDepth_iff (mem_linesOf_of_split split)
  have unfenced := fence_eq_none_iff split
  constructor
  · intro isCommand
    cases fence : mark.context.fence with
    | some opened => simp [Mark.isCommand, role, Context.role, fence] at isCommand
    | none =>
      cases blank : mark.line.isBlank with
      | true => simp [Mark.isCommand, role, Context.role, fence, blank] at isCommand
      | false =>
        cases command : mark.context.command? table mark.line with
        | none => simp [Mark.isCommand, role, Context.role, fence, blank, command] at isCommand
        | some found =>
          rw [command?_eq] at command
          split at command
          · rename_i start
            obtain ⟨flat, shallow, unlisted⟩ := start
            exact ⟨⟨shallow, quoted.mp flat, unfenced.mp fence,
              (track_iff split fence blank (inList_iff split)).mp unlisted⟩, by simp [command]⟩
          · cases command
  · rintro ⟨⟨shallow, unquoted, outside, unlisted⟩, held⟩
    have fence := unfenced.mpr outside
    have blank := isBlank_of_commandIn? held
    obtain ⟨found, command⟩ := Option.isSome_iff_exists.mp held
    have accepted : mark.context.command? table mark.line = some found := by
      rw [command?_eq, if_pos ⟨quoted.mpr unquoted, shallow,
        (track_iff split fence blank (inList_iff split)).mpr unlisted⟩, command]
    have isRole : mark.role = found := by simp [role, Context.role, fence, blank, accepted]
    rw [Mark.isCommand_eq_true, isRole]
    exact SegmentState.command?_isCommand accepted

/-- The lines that a line adds to the content of its segment. -/
def Mark.written (mark : Mark) : List (List Char) :=
  match mark.role with
  | .text => [mark.line.text]
  | .blank => [[]]
  | .ends | .special .. => []
  | .part _ first | .inline _ _ first => [first]

/-- The nodes of a stretch whose content is these lines. -/
def Stretch.nodesOf (read : String → List Entity) (lines : List (List Char)) : Stretch → List Node
  | .markup _ => markupNodes read lines
  | .special mark command arguments => [.special command arguments mark.line.number]
  | .part _ kind _ _ => [.part kind (read (joined lines))]
  | .inline mark command name _ _ =>
    [.inline command (String.ofList name) (read (joined lines)) mark.line.number]

theorem Mark.written_text {content : List Mark} (text : ∀ mark ∈ content, mark.role = .text) :
    content.flatMap Mark.written = content.map (·.line.text) := by
  induction content with
  | nil => rfl
  | cons mark rest ih =>
    rw [List.flatMap_cons, ih fun other member => text other (List.mem_cons_of_mem _ member)]
    simp [Mark.written, text mark List.mem_cons_self]

theorem Mark.written_markup {marks : List Mark}
    (formed : ∀ mark ∈ marks, mark.role = .text ∨ mark.role = .blank ∨ mark.role = .ends) :
    marks.filterMap Mark.markupLine? = marks.flatMap Mark.written := by
  induction marks with
  | nil => rfl
  | cons mark rest ih =>
    have later := ih fun other member => formed other (List.mem_cons_of_mem _ member)
    rcases formed mark List.mem_cons_self with role | role | role <;>
      simp [Mark.markupLine?, Mark.written, role, later]

/-- The content of a stretch is what its lines add, in order. -/
theorem Stretch.nodes_eq {stretch : Stretch} (formed : stretch.WellFormed)
    (read : String → List Entity) :
    stretch.nodes read = stretch.nodesOf read (stretch.marks.flatMap Mark.written) := by
  cases stretch with
  | markup marks =>
    simp only [nodes, nodesOf, Mark.written_markup formed, Stretch.marks]
  | special mark command arguments => rfl
  | part mark kind first content =>
    obtain ⟨role, text⟩ := formed
    simp [nodes, nodesOf, Stretch.marks, Mark.written_text text, Mark.written, role]
  | inline mark command name first content =>
    obtain ⟨role, text⟩ := formed
    simp [nodes, nodesOf, Stretch.marks, Mark.written_text text, Mark.written, role]

/-- A line is taken as a command exactly if it holds one and stands at the start of a block. Any other
line that the patterns match adds its text, as it is, to the content of its segment. -/
theorem commands_at_block_start (read : String → List Entity) (table : CommandTable) (text : String) :
    ∃ stretches : List Stretch,
      stretches.flatMap Stretch.marks = marks table text ∧
      (marks table text).map Mark.line = linesOf text ∧
      (∀ stretch ∈ stretches, stretch.WellFormed) ∧
      segment read table text = stretches.flatMap (fun stretch =>
        stretch.nodesOf read (stretch.marks.flatMap Mark.written)) ∧
      ∀ before mark after, marks table text = before ++ mark :: after →
        (mark.isCommand = true ↔
          AtBlockStart before mark ∧ (commandIn? table mark.line).isSome = true) ∧
        (mark.isCommand = false → (table.recognize? mark.line.content).isSome = true →
          mark.written = [mark.line.text]) := by
  have formed : ∀ stretch ∈ stretches table text, stretch.WellFormed :=
    Stretch.cut_wellFormed (by simp [Stretch.WellFormed]) (marks table text)
  refine ⟨stretches table text, stretches_marks table text, marks_lines table text, formed, ?_, ?_⟩
  · rw [segment_eq]
    exact List.flatMap_congr fun stretch member => Stretch.nodes_eq (formed stretch member) read
  · intro before mark after split
    refine ⟨isCommand_iff split, fun literal matched => ?_⟩
    have visible : mark.line.isBlank = false := by
      cases content : mark.line.content with
      | nil => simp [content, CommandTable.recognize?_nil] at matched
      | cons c rest => simp [Line.isBlank, content]
    have isText : mark.role = .text := by
      by_contra other
      have blank : mark.role = .blank := by
        by_contra shown
        simp [mark.isCommand_eq_true.mpr ⟨other, shown⟩] at literal
      exact role_ne_blank (role_of_split split) visible blank
    simp [Mark.written, isText]

end DocComment.Comment
