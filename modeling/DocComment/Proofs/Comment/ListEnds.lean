import DocComment.Markup.Read
import DocComment.Proofs.Comment.Fences

/-! Where a list ends. For markup a line after a blank one is out of a list if its indentation does not
reach the content of the items. A comment leaves a list only at a line without any indentation, so a command
after a list is lost where all lines of a comment are indented. In a comment without lists a command after a
blank line is lost only to a line that opens a fence for the comment; markup sees the same fence there,
unless there is another backtick after backticks, as in a code span at the start of a line. -/
namespace DocComment.Comment

open Markup (Cursor followSpine runLength)

/-- The last of the lines is blank. -/
def FollowsBlank (before : List Mark) : Prop :=
  ∃ others previous, before = others ++ [previous] ∧ previous.line.isBlank = true

/-- A blank line closes no fence. -/
theorem not_closes_of_blank {text : String} {mark : Mark} (member : mark.line ∈ linesOf text)
    (blank : mark.line.isBlank = true) (fence : Fence) : ¬ mark.Closes fence := by
  have empty : mark.line.content = [] := List.isEmpty_iff.mp blank
  have none : mark.line.fence = none := by
    rw [fence_of_mem member, empty]
    rfl
  rintro ⟨_, closed⟩
  simp [none, Fence.closedBy] at closed

/-- Outside fences a blank line is taken as one. -/
theorem blank_role (split : marks table text = before ++ previous :: mark :: after)
    (unfenced : ∀ fence, ¬ FencedBy fence (before ++ [previous]))
    (blank : previous.line.isBlank = true) : previous.role = .blank := by
  have unclosed := not_closes_of_blank (mem_linesOf_of_split split) blank
  have outside : previous.context.fence = none := by
    rw [fence_eq_none_iff split]
    intro fence opened
    exact unfenced fence ((fencedBy_snoc fence before previous).mpr (.inr ⟨opened, unclosed fence⟩))
  simp [role_of_split split, Context.role, outside, blank]

/-- A command after a blank line is taken outside fences if it has no indentation, and with at most
three columns of it if the lists before it have ended. -/
theorem isCommand_after_blank (split : marks table text = before ++ mark :: after)
    (gap : FollowsBlank before) (held : (commandIn? table mark.line).isSome = true) :
    mark.isCommand = true ↔ (mark.line.indent ≤ maxBlockIndent ∧ ¬ mark.line.Quoted ∧
      mark.line.listMarker = none) ∧ (∀ fence, ¬ FencedBy fence before) ∧
        (mark.line.indent = 0 ∨ ListsEnded before) := by
  rw [isCommand_iff split]
  constructor
  · rintro ⟨⟨shallow, unquoted, unfenced, unlisted⟩, _⟩
    obtain ⟨closed, ended⟩ := (listsEnded_snoc before mark).mp unlisted
    have outside := (fence_eq_none_iff split).mpr unfenced
    have unmarked : mark.line.listMarker = none := by
      by_contra marked
      exact closed ⟨outside, unquoted, shallow, Option.isSome_iff_ne_none.mpr marked⟩
    refine ⟨⟨shallow, unquoted, unmarked⟩, unfenced, ?_⟩
    rcases ended with ended | ⟨_, _, _, _, _, flush, _⟩
    · exact .inr ended
    · exact .inl flush
  · rintro ⟨⟨shallow, unquoted, unmarked⟩, unfenced, ends⟩
    refine ⟨⟨shallow, unquoted, unfenced, (listsEnded_snoc before mark).mpr ⟨?_, ?_⟩⟩, held⟩
    · rintro ⟨_, _, _, marked⟩
      simp [unmarked] at marked
    · rcases ends with flush | ended
      · obtain ⟨others, previous, same, blank⟩ := gap
        subst same
        have split : marks table text = others ++ previous :: mark :: after := by simpa using split
        exact .inr ⟨others, previous, rfl, blank_role split unfenced blank,
          isBlank_of_commandIn? held, flush, unmarked⟩
      · exact .inl ended

/-- The column at which the content of the list item starts that a line opens for markup, where no
other container holds it. -/
def Line.itemColumn? (line : Line) : Option Nat :=
  if line.indent ≤ maxBlockIndent then
    (Markup.itemStart? line.indent { column := line.indent, rest := line.content }).map (·.2.1)
  else none

theorem le_indentation (column : Nat) (text : List Char) : column ≤ (indentation column text).1 := by
  fun_induction indentation column text with
  | case1 column rest ih => omega
  | case2 column rest ih => omega
  | case3 column content => exact Nat.le_refl column

/-- Where there are fewer blanks than wanted, all of them are skipped. -/
theorem skipBlanksFrom_short {column wanted : Nat} {text : List Char}
    (short : (indentation column text).1 < column + wanted) :
    Cursor.skipBlanksFrom column wanted text =
      (column + wanted - (indentation column text).1,
        { column := (indentation column text).1, rest := (indentation column text).2 }) := by
  fun_induction indentation column text generalizing wanted with
  | case1 column rest ih =>
    have positive : wanted ≠ 0 := by
      have reached := le_indentation (column + 1) rest
      omega
    have here : column + 1 + (wanted - 1) = column + wanted := by omega
    simp [Cursor.skipBlanksFrom, positive, ih (here ▸ short), here]
  | case2 column rest ih =>
    have reached := le_indentation (column + (4 - column % 4)) rest
    have positive : wanted ≠ 0 := by omega
    have fits : 4 - column % 4 ≤ wanted := by omega
    have here : column + (4 - column % 4) + (wanted - (4 - column % 4)) = column + wanted := by omega
    simp [Cursor.skipBlanksFrom, positive, fits, ih (here ▸ short), here]
  | case3 column content noSpace noTab =>
    have positive : wanted ≠ 0 := by
      intro none
      simp [none] at short
    cases content with
    | nil => simp [Cursor.skipBlanksFrom]
    | cons c rest =>
      have inked : c ≠ ' ' ∧ c ≠ '\t' :=
        ⟨fun same => noSpace rest (same ▸ rfl), fun same => noTab rest (same ▸ rfl)⟩
      simp [Cursor.skipBlanksFrom, positive, inked]

/-- For markup a line that does not reach the content of an item is not part of it. -/
theorem followSpine_before_content {text : String} (member : line ∈ linesOf text)
    (shown : line.isBlank = false) (short : line.indent < column) (sign : Char) (tight : Bool)
    (inner : List Markup.Container) :
    (followSpine (.list sign tight :: .item column :: inner) { rest := line.text }).1 = 1 := by
  obtain ⟨number, content, same⟩ := exists_classify member
  subst line
  have short : (indentation 0 content).1 < 0 + column := by simpa [Line.classify] using short
  obtain ⟨less, missing⟩ := Nat.exists_eq_add_one.mpr (Nat.sub_pos_of_lt short)
  have wanted : ¬ column ≤ 0 := by omega
  have skipped : Cursor.skipBlanks column { rest := (Line.classify number content).text } =
      (less + 1, { column := (indentation 0 content).1, rest := (indentation 0 content).2 }) := by
    rw [← missing]
    simp [Cursor.skipBlanks, wanted, Line.classify, skipBlanksFrom_short short]
  have ink : (indentation 0 content).2.isEmpty = false := shown
  simp [followSpine, skipped, ink]

/-- Lines that are blank or indented end no list. -/
theorem listsEnded_of_indented {before later : List Mark}
    (indented : ∀ other ∈ later, other.line.isBlank = true ∨ other.line.indent ≠ 0)
    (ended : ListsEnded (before ++ later)) : ListsEnded before := by
  induction later using List.reverseRecOn with
  | nil => simpa using ended
  | append_singleton later last ih =>
    rw [← List.append_assoc, listsEnded_snoc] at ended
    obtain ⟨_, ended | ⟨_, _, _, _, shown, flush, _⟩⟩ := ended
    · exact ih (fun other member => indented other (List.mem_append_left _ member)) ended
    · rcases indented last (by simp) with blank | deep
      · rw [shown] at blank
        cases blank
      · exact absurd flush deep

theorem not_listsEnded_of_indented {earlier later : List Mark} {item : Mark} (opens : item.OpensItem)
    (indented : ∀ other ∈ later, other.line.isBlank = true ∨ other.line.indent ≠ 0) :
    ¬ ListsEnded (earlier ++ item :: later) := by
  intro ended
  rw [List.append_cons] at ended
  exact ((listsEnded_snoc earlier item).mp (listsEnded_of_indented indented ended)).1 opens

/-- Take a command that is outside quotes and fences, directly after a blank line, and indented less than
the content of each list item before it. Markup continues none of these items there. The command is taken
if it has no indentation. If it has some, it is taken exactly if the lists before it have ended, and so
it is lost if the lines since some item are all indented. -/
theorem command_after_list (split : marks table text = before ++ mark :: after)
    (unfenced : ∀ fence, ¬ FencedBy fence before) (unquoted : ¬ mark.line.Quoted)
    (gap : FollowsBlank before) (unmarked : mark.line.listMarker = none)
    (shallow : mark.line.indent ≤ maxBlockIndent)
    (outside : ∀ item ∈ before, ∀ column, item.line.itemColumn? = some column →
      mark.line.indent < column)
    (held : (commandIn? table mark.line).isSome = true) :
    (∀ item ∈ before, ∀ column, item.line.itemColumn? = some column → ∀ sign tight inner,
      (followSpine (.list sign tight :: .item column :: inner) { rest := mark.line.text }).1 = 1) ∧
    (mark.isCommand = true ↔ mark.line.indent = 0 ∨ ListsEnded before) ∧
    ∀ earlier item later, before = earlier ++ item :: later → item.OpensItem →
      (∀ other ∈ later ++ [mark], other.line.isBlank = true ∨ other.line.indent ≠ 0) →
        mark.isCommand = false := by
  have shown := isBlank_of_commandIn? held
  have taken : mark.isCommand = true ↔ mark.line.indent = 0 ∨ ListsEnded before := by
    rw [isCommand_after_blank split gap held]
    exact ⟨fun ⟨_, _, ends⟩ => ends, fun ends => ⟨⟨shallow, unquoted, unmarked⟩, unfenced, ends⟩⟩
  refine ⟨?_, taken, ?_⟩
  · intro item member column starts sign tight inner
    exact followSpine_before_content (mem_linesOf_of_split split) shown
      (outside item member column starts) sign tight inner
  · intro earlier item later same opens indented
    have deep : mark.line.indent ≠ 0 := by
      rcases indented mark (by simp) with blank | deep
      · rw [shown] at blank
        cases blank
      · exact deep
    have unended : ¬ ListsEnded before :=
      same ▸ not_listsEnded_of_indented opens fun other member =>
        indented other (List.mem_append_left _ member)
    rw [← Bool.not_eq_true, taken]
    exact not_or.mpr ⟨deep, unended⟩

set_option maxRecDepth 8000 in
/-- The item starts in column one and its content in column three, the command in column one. -/
theorem command_after_indented_list :
    ∃ before mark, marks (.ofCommands [.part .effects]) " - item\n\n \\effects x" = before ++ [mark] ∧
      FollowsBlank before ∧ (∀ fence, ¬ FencedBy fence before) ∧ ¬ mark.line.Quoted ∧
      (∀ item ∈ before, ∀ column, item.line.itemColumn? = some column → mark.line.indent < column) ∧
      (commandIn? (.ofCommands [.part .effects]) mark.line).isSome = true ∧ mark.isCommand = false := by
  let item : Mark := ⟨.classify 1 " - item".toList, {}, .text⟩
  let blank : Mark := ⟨.classify 2 [], { inList := true }, .blank⟩
  let command : Mark :=
    ⟨.classify 3 " \\effects x".toList, { inList := true, previousBlank := true }, .text⟩
  have split : marks (.ofCommands [.part .effects]) " - item\n\n \\effects x" =
      [item, blank] ++ [command] := by decide
  have gap : FollowsBlank [item, blank] := ⟨[item], blank, rfl, rfl⟩
  have unfenced : ∀ fence, ¬ FencedBy fence [item, blank] := fun fence opened => by
    cases (fence_iff split fence).mpr opened
  have unquoted : ¬ command.line.Quoted :=
    (quoteDepth_classify 3 _).mp rfl
  have outside : ∀ other ∈ [item, blank], ∀ column, other.line.itemColumn? = some column →
      command.line.indent < column := by
    have columns : item.line.itemColumn? = some 3 ∧ blank.line.itemColumn? = none := ⟨rfl, rfl⟩
    have indented : command.line.indent = 1 := rfl
    simp [columns, indented]
  have held : (commandIn? (.ofCommands [.part .effects]) command.line).isSome = true := by
    decide
  have unmarked : command.line.listMarker = none := rfl
  have shallow : command.line.indent ≤ maxBlockIndent := by decide
  have opens : item.OpensItem :=
    ⟨rfl, (quoteDepth_classify 1 _).mp rfl, by decide, rfl⟩
  refine ⟨_, _, split, gap, unfenced, unquoted, outside, held, ?_⟩
  exact (command_after_list split unfenced unquoted gap unmarked shallow outside held).2.2
    [] item [blank] rfl opens (by decide)

set_option maxRecDepth 8000 in
/-- For markup the last line is a paragraph after the list. The command in it is lost. -/
theorem command_lost_after_list :
    (linesOf " - item\n\n \\effects x").map (fun line => (line.indent, line.itemColumn?)) =
      [(1, some 3), (0, none), (1, none)] ∧
    segment Markup.read (.ofCommands [.part .effects]) " - item\n\n \\effects x" =
      [.markup [.node (.list false) [.node .listItem [.text "item"]],
        .paragraph [.text "\\effects x"]]] := by
  decide +kernel

/-- Backticks like those of a fence, and another one after them: text for markup, and a fence for a
comment. -/
def Line.Loose (line : Line) : Prop :=
  line.indent ≤ maxBlockIndent ∧ Fence.minLength ≤ runLength '`' line.content ∧
    '`' ∈ line.content.drop (runLength '`' line.content)

theorem Line.Loose.codeFence? {line : Line} (loose : line.Loose) : line.codeFence? = none := by
  obtain ⟨shallow, long, more⟩ := loose
  rw [Option.eq_none_iff_forall_ne_some]
  intro code found
  rw [Line.codeFence?, if_pos shallow, codeFence?_code, detect?_code] at found
  obtain ⟨⟨sort, other, _⟩, strict⟩ := found
  rcases sort with tick | tilde
  · exact strict ⟨tick, tick ▸ more⟩
  · have none : runLength '~' line.content = 0 :=
      runLength_of_other (by decide) (Nat.lt_of_lt_of_le (by decide) long)
    rw [tilde, none] at other
    cases other

theorem listsEnded_of_unmarked {before : List Mark}
    (unmarked : ∀ other ∈ before, other.line.listMarker = none) : ListsEnded before := by
  rintro earlier item later same ⟨_, _, _, marked⟩ _
  simp [unmarked item (by simp [same])] at marked

theorem track_of_unmarked {context : Context} {line : Line} (unmarked : line.listMarker = none)
    (outside : context.inList = false) : (context.track line).inList = false := by
  simp [Context.track, unmarked, outside]

theorem opens?_eq_next {mark : Mark} (outside : mark.context.fence = none) :
    mark.opens? = (mark.context.next mark.line mark.role).fence := by
  simp [Mark.opens?, Context.next, outside]

/-- Text in no list strays from the fences of markup only if it is loose. -/
theorem strays_iff_loose {mark : Mark} (isText : mark.role = .text)
    (unlisted : (mark.context.track mark.line).inList = false) :
    mark.Strays none ↔ mark.line.Loose := by
  rw [mark.strays_text_iff isText, unlisted, Line.Loose]
  split <;> simp [*]

/-- In no list text opens the same fence for both unless it is loose. Then it opens one for the comment
only. -/
theorem opens?_of_text (split : marks table text = before ++ mark :: after)
    (outside : mark.context.fence = none) (isText : mark.role = .text)
    (unlisted : (mark.context.track mark.line).inList = false) :
    (mark.line.Loose → mark.line.codeFence? = none ∧ mark.opens?.isSome = true) ∧
    (¬ mark.line.Loose → mark.opens?.map Fence.code = mark.line.codeFence?) := by
  rw [opens?_eq_next outside]
  refine ⟨fun loose => ⟨loose.codeFence?, ?_⟩, fun strict => ?_⟩
  · obtain ⟨shallow, long, _⟩ := loose
    rw [fence_next_text split outside isText, if_pos (.inl shallow),
      fence_isSome_iff (mem_linesOf_of_split split)]
    exact ⟨'`', by simp, long⟩
  · exact (opening_agrees_iff split outside).mpr ((strays_iff_loose isText unlisted).not.mpr strict)

/-- Take a command after a blank line, in a comment without list items up to it. It is taken unless a
fence of the comment is open there. Text outside of fences opens the same fence for the comment as for
markup, unless it is loose: then it opens one for the comment alone. If no line before the command
strays from the fences of markup, and none of these is open, the command is taken. -/
theorem command_after_fences (split : marks table text = before ++ mark :: after)
    (unlisted : ∀ other ∈ before, other.line.listMarker = none)
    (gap : FollowsBlank before) (unquoted : ¬ mark.line.Quoted)
    (unmarked : mark.line.listMarker = none) (shallow : mark.line.indent ≤ maxBlockIndent)
    (held : (commandIn? table mark.line).isSome = true) :
    (mark.isCommand = true ↔ ∀ fence, ¬ FencedBy fence before) ∧
    (∀ earlier opener later, before = earlier ++ opener :: later → opener.context.fence = none →
      opener.role = .text →
        (opener.line.Loose → opener.line.codeFence? = none ∧ opener.opens?.isSome = true) ∧
        (¬ opener.line.Loose → opener.opens?.map Fence.code = opener.line.codeFence?)) ∧
    (codeOpen (before.map Mark.line) = none → Straight before → mark.isCommand = true) := by
  have taken : mark.isCommand = true ↔ ∀ fence, ¬ FencedBy fence before := by
    rw [isCommand_after_blank split gap held]
    exact ⟨fun ⟨_, unfenced, _⟩ => unfenced, fun unfenced =>
      ⟨⟨shallow, unquoted, unmarked⟩, unfenced, .inr (listsEnded_of_unmarked unlisted)⟩⟩
  refine ⟨taken, ?_, ?_⟩
  · intro earlier opener later same outside isText
    subst same
    have split : marks table text = earlier ++ opener :: (later ++ mark :: after) := by
      simpa using split
    have ended := listsEnded_of_unmarked fun other member =>
      unlisted other (List.mem_append_left _ member)
    exact opens?_of_text split outside isText
      (track_of_unmarked (unlisted opener (by simp)) ((inList_iff split).mpr ended))
  · intro outside straight
    have agrees := (agrees_iff_straight split).mpr straight before [] (List.append_nil _).symm
    rw [contextAfter_eq split, outside, Option.map_eq_none_iff] at agrees
    rw [taken]
    intro fence opened
    rw [← fence_iff split, agrees] at opened
    cases opened

set_option maxRecDepth 8000 in
/-- A code span at the start of the first line. -/
theorem command_after_code_span :
    ∃ before mark, marks (.ofCommands [.part .effects]) "```a`b```\n\n\\effects x" =
        before ++ [mark] ∧ (∀ other ∈ before, other.line.listMarker = none) ∧ FollowsBlank before ∧
      (commandIn? (.ofCommands [.part .effects]) mark.line).isSome = true ∧
      codeOpen (before.map Mark.line) = none ∧ mark.isCommand = false := by
  let opened : Fence := ⟨.backticks, 3, false⟩
  let span : Mark := ⟨.classify 1 "```a`b```".toList, {}, .text⟩
  let blank : Mark := ⟨.classify 2 [], { fence := some opened }, .text⟩
  let command : Mark := ⟨.classify 3 "\\effects x".toList, { fence := some opened }, .text⟩
  have split : marks (.ofCommands [.part .effects]) "```a`b```\n\n\\effects x" =
      [span, blank] ++ [command] := by decide +kernel
  have unlisted : ∀ other ∈ [span, blank], other.line.listMarker = none := by decide
  have gap : FollowsBlank [span, blank] := ⟨[span], blank, rfl, rfl⟩
  have unquoted : ¬ command.line.Quoted := (quoteDepth_classify 3 _).mp rfl
  have unmarked : command.line.listMarker = none := rfl
  have shallow : command.line.indent ≤ maxBlockIndent := by decide
  have held : (commandIn? (.ofCommands [.part .effects]) command.line).isSome = true := by
    decide +kernel
  have taken := (command_after_fences split unlisted gap unquoted unmarked shallow held).1
  have inside : FencedBy opened [span, blank] := (fence_iff split opened).mp rfl
  refine ⟨_, _, split, unlisted, gap, held, by decide +kernel, ?_⟩
  rw [← Bool.not_eq_true, taken]
  exact fun unfenced => unfenced opened inside

set_option maxRecDepth 8000 in
/-- No line opens a fence for markup, and the last line is a paragraph. The command in it is lost. -/
theorem command_lost_after_code_span :
    (linesOf "```a`b```\n\n\\effects x").map Line.codeFence? = [none, none, none] ∧
    segment Markup.read (.ofCommands [.part .effects]) "```a`b```\n\n\\effects x" =
      [.markup [.paragraph [.code "a`b"], .paragraph [.text "\\effects x"]]] := by
  decide +kernel

end DocComment.Comment
