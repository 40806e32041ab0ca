import DocComment.Markup.LineMarks
import DocComment.Proofs.Comment.BlockStart
import DocComment.Proofs.Text.Trim

/-! Fenced code as a raw zone. A comment follows fences by rules of its own, and markup has other ones.
As long as no line opens or closes a fence for one of the two only, both see the same fences, and no
command is taken inside of one. -/
namespace DocComment.Comment

open Markup (CodeFence runLength)

/-- The fence that a line opens by the rules of markup, in a text without lists and quotes: at most three
columns of indentation, at least three marks, and no backtick after backticks. -/
def Line.codeFence? (line : Line) : Option CodeFence :=
  if line.indent ≤ maxBlockIndent then (Markup.codeFence? line.content).map (·.1) else none

/-- At most three columns of indentation, enough marks of the same sort, and then only spaces and
tabs. -/
def Line.closesCode (line : Line) (fence : CodeFence) : Bool :=
  decide (line.indent ≤ maxBlockIndent) &&
    decide (fence.length ≤ runLength fence.mark line.content) &&
    (line.content.drop (runLength fence.mark line.content)).all fun c => c == ' ' || c == '\t'

def codeAfter (code : Option CodeFence) (line : Line) : Option CodeFence :=
  match code with
  | none => line.codeFence?
  | some fence => if line.closesCode fence then none else some fence

/-- The fence that is open after these lines. -/
def codeOpen (lines : List Line) : Option CodeFence :=
  lines.foldl codeAfter none

def Fence.code (fence : Fence) : CodeFence :=
  ⟨fence.kind.mark, fence.length⟩

/-- What these lines say about the next one. -/
def contextAfter (before : List Mark) : Context :=
  before.foldl (fun context mark => context.next mark.line mark.role) {}

/-- A line that opens or closes a fence either for the comment or for markup, but not for both. The
fence is the one that is open before the line by the rules of markup. -/
inductive Mark.Strays (mark : Mark) : Option CodeFence → Prop
  /-- Backticks like those of a fence, and another one after them. -/
  | loose (text : mark.role = .text) (shallow : mark.line.indent ≤ maxBlockIndent)
      (long : Fence.minLength ≤ runLength '`' mark.line.content)
      (more : '`' ∈ mark.line.content.drop (runLength '`' mark.line.content)) : Strays mark none
  /-- In a list fences count at any indentation. -/
  | deep (text : mark.role = .text) (indented : ¬ mark.line.indent ≤ maxBlockIndent)
      (listed : (mark.context.track mark.line).inList = true)
      (long : ∃ c ∈ ['`', '~'], Fence.minLength ≤ runLength c mark.line.content) : Strays mark none
  /-- A fence that the patterns take for a command. -/
  | command (taken : mark.isCommand = true) (opens : mark.line.codeFence?.isSome = true) :
      Strays mark none
  /-- Enough marks, but too much indentation or other whitespace after them. -/
  | early {fence : CodeFence} (long : fence.length ≤ runLength fence.mark mark.line.content)
      (bare : ∀ c ∈ mark.line.content.drop (runLength fence.mark mark.line.content),
        Unicode.isWhite c = true)
      (odd : ¬ mark.line.indent ≤ maxBlockIndent ∨
        ∃ c ∈ mark.line.content.drop (runLength fence.mark mark.line.content), c ≠ ' ' ∧ c ≠ '\t') :
      Strays mark (some fence)

/-- No line strays from the fences of markup. -/
def Straight (before : List Mark) : Prop :=
  ∀ earlier mark later, before = earlier ++ mark :: later →
    ¬ mark.Strays (codeOpen (earlier.map Mark.line))

theorem runLength_cons (c d : Char) (rest : List Char) :
    runLength c (d :: rest) = if d = c then runLength c rest + 1 else 0 := by
  by_cases same : d = c <;> simp [runLength, same]

/-- A text cannot start with marks of both sorts. -/
theorem runLength_of_other {c d : Char} {content : List Char} (differ : c ≠ d)
    (starts : 0 < runLength c content) : runLength d content = 0 := by
  cases content with
  | nil => rfl
  | cons first rest =>
    rw [runLength_cons] at starts ⊢
    split at starts
    · rename_i same
      rw [if_neg (same ▸ differ)]
    · cases starts

theorem ofKind?_eq_some_iff (kind : FenceKind) (content : List Char) (fence : Fence) :
    Fence.ofKind? kind content = some fence ↔ Fence.minLength ≤ runLength kind.mark content ∧
      fence = ⟨kind, runLength kind.mark content,
        (Text.trim (content.drop (runLength kind.mark content))).isEmpty⟩ := by
  have unfolded : Fence.ofKind? kind content =
      if runLength kind.mark content < Fence.minLength then none
      else some ⟨kind, runLength kind.mark content,
        (Text.trim (content.drop (runLength kind.mark content))).isEmpty⟩ := rfl
  by_cases short : runLength kind.mark content < Fence.minLength
  · simp [unfolded, short, Nat.not_le_of_lt short]
  · simp [unfolded, short, Nat.le_of_not_lt short, eq_comm]

theorem ofKind?_eq_none_iff (kind : FenceKind) (content : List Char) :
    Fence.ofKind? kind content = none ↔ runLength kind.mark content < Fence.minLength := by
  rw [Option.eq_none_iff_forall_ne_some]
  constructor
  · intro none
    by_contra long
    exact none _ ((ofKind?_eq_some_iff kind content _).mpr ⟨Nat.le_of_not_lt long, rfl⟩)
  · intro short fence found
    exact absurd ((ofKind?_eq_some_iff kind content fence).mp found).1 (Nat.not_le_of_lt short)

theorem detect?_eq_some_iff (content : List Char) (fence : Fence) :
    Fence.detect? content = some fence ↔ Fence.minLength ≤ runLength fence.kind.mark content ∧
      fence = ⟨fence.kind, runLength fence.kind.mark content,
        (Text.trim (content.drop (runLength fence.kind.mark content))).isEmpty⟩ := by
  rw [Fence.detect?, Option.or_eq_some_iff, ofKind?_eq_some_iff, ofKind?_eq_some_iff,
    ofKind?_eq_none_iff]
  constructor
  · rintro (⟨long, same⟩ | ⟨_, long, same⟩) <;> (subst same; exact ⟨long, rfl⟩)
  · rintro ⟨long, same⟩
    cases kind : fence.kind with
    | backticks =>
      rw [kind] at long same
      exact .inl ⟨long, same⟩
    | tildes =>
      rw [kind] at long same
      have none : runLength '`' content = 0 :=
        runLength_of_other (c := '~') (by decide) (Nat.lt_of_lt_of_le (by decide) long)
      exact .inr ⟨by rw [FenceKind.mark, none]; decide, long, same⟩

/-- The fence of a line for the comment, whatever its indentation. -/
theorem detect?_code (content : List Char) (code : CodeFence) :
    (Fence.detect? content).map Fence.code = some code ↔
      (code.mark = '`' ∨ code.mark = '~') ∧ Fence.minLength ≤ runLength code.mark content ∧
        code.length = runLength code.mark content := by
  rw [Option.map_eq_some_iff]
  constructor
  · rintro ⟨fence, found, same⟩
    obtain ⟨long, own⟩ := (detect?_eq_some_iff content fence).mp found
    subst same
    refine ⟨?_, long, congrArg Fence.length own⟩
    cases kind : fence.kind <;> simp [Fence.code, kind, FenceKind.mark]
  · rintro ⟨mark, long, length⟩
    obtain ⟨own, count⟩ := code
    simp only at mark long length
    subst length
    rcases mark with same | same <;> subst same
    · exact ⟨⟨.backticks, runLength '`' content,
          (Text.trim (content.drop (runLength '`' content))).isEmpty⟩,
        (detect?_eq_some_iff content _).mpr ⟨long, rfl⟩, rfl⟩
    · exact ⟨⟨.tildes, runLength '~' content,
          (Text.trim (content.drop (runLength '~' content))).isEmpty⟩,
        (detect?_eq_some_iff content _).mpr ⟨long, rfl⟩, rfl⟩

theorem mark_eq_of_runLength {c mark : Char} {rest : List Char}
    (starts : 0 < runLength mark (c :: rest)) : mark = c := by
  by_contra differ
  rw [runLength_cons, if_neg (Ne.symm differ)] at starts
  cases starts

/-- For markup no backtick may follow backticks. -/
theorem codeFence?_code (content : List Char) (code : CodeFence) :
    (Markup.codeFence? content).map (·.1) = some code ↔
      (Fence.detect? content).map Fence.code = some code ∧
        ¬ (code.mark = '`' ∧ '`' ∈ content.drop (runLength code.mark content)) := by
  rw [detect?_code]
  obtain ⟨mark, length⟩ := code
  cases content with
  | nil => simp [Markup.codeFence?, runLength, Fence.minLength]
  | cons c rest =>
    have unfolded : (Markup.codeFence? (c :: rest)).map (·.1) =
        if ((c = '`' ∨ c = '~') ∧ 3 ≤ runLength c (c :: rest)) ∧
            ¬ (c = '`' ∧ '`' ∈ (c :: rest).drop (runLength c (c :: rest))) then
          some ⟨c, runLength c (c :: rest)⟩
        else none := by
      by_cases fits : ((c = '`' ∨ c = '~') ∧ 3 ≤ runLength c (c :: rest)) ∧
          ¬ (c = '`' ∧ '`' ∈ (c :: rest).drop (runLength c (c :: rest)))
      · rw [if_pos fits]
        simpa [Markup.codeFence?, and_assoc] using fits
      · rw [if_neg fits]
        simpa [Markup.codeFence?, and_assoc] using fits
    rw [unfolded]
    constructor
    · intro found
      split at found
      · rename_i fits
        cases found
        exact ⟨⟨fits.1.1, fits.1.2, rfl⟩, fits.2⟩
      · cases found
    · rintro ⟨⟨sort, long, own⟩, more⟩
      have long : 3 ≤ runLength mark (c :: rest) := long
      have same : mark = c := mark_eq_of_runLength (Nat.lt_of_lt_of_le (by decide) long)
      simp only at own sort more
      subst same own
      rw [if_pos ⟨⟨sort, long⟩, more⟩]

theorem fence_of_mem {text : String} (member : line ∈ linesOf text) :
    line.fence = Fence.detect? line.content := by
  obtain ⟨number, content, same⟩ := exists_classify member
  subst line
  rfl

/-- A line that looks like a fence is not quoted. -/
theorem quoteDepth_of_fence {text : String} (member : line ∈ linesOf text)
    (found : line.fence.isSome = true) : line.quoteDepth = 0 := by
  rw [quoteDepth_iff member]
  intro quoted
  rw [fence_of_mem member] at found
  obtain ⟨number, content, same⟩ := exists_classify member
  subst line
  obtain ⟨rest, content⟩ := content_of_quoted quoted
  rw [content] at found
  cases found

theorem closedBy_iff {text : String} (member : line ∈ linesOf text) {fence : Fence}
    (long : Fence.minLength ≤ fence.length) :
    line.quoteDepth = 0 ∧ fence.closedBy line.fence = true ↔
      fence.length ≤ runLength fence.kind.mark line.content ∧
        ∀ c ∈ line.content.drop (runLength fence.kind.mark line.content),
          Unicode.isWhite c = true := by
  have bare (content : List Char) : (Text.trim content).isEmpty = true ↔
      ∀ c ∈ content, Unicode.isWhite c = true := by
    rw [List.isEmpty_iff, Text.trim_eq_nil_iff]
  constructor
  · rintro ⟨_, closed⟩
    obtain ⟨found, detected, fits⟩ := (Option.any_eq_true _ _).mp closed
    simp only [Bool.and_eq_true, beq_iff_eq, decide_eq_true_eq] at fits
    obtain ⟨⟨kind, enough⟩, isBare⟩ := fits
    rw [fence_of_mem member, detect?_eq_some_iff] at detected
    obtain ⟨_, same⟩ := detected
    rw [kind] at same
    rw [same] at enough isBare
    exact ⟨enough, (bare _).mp isBare⟩
  · rintro ⟨enough, white⟩
    have detected : line.fence = some ⟨fence.kind, runLength fence.kind.mark line.content, true⟩ := by
      rw [fence_of_mem member, detect?_eq_some_iff]
      exact ⟨long.trans enough, by simp [(bare _).mpr white]⟩
    exact ⟨quoteDepth_of_fence member (by simp [detected]), by simp [Fence.closedBy, detected, enough]⟩

theorem contextAfter_eq (split : marks table text = before ++ mark :: after) :
    contextAfter before = mark.context := by
  induction before using List.reverseRecOn generalizing mark after with
  | nil => exact (context_first split).symm
  | append_singleton before previous ih =>
    have split : marks table text = before ++ previous :: mark :: after := by simpa using split
    rw [context_next split, ← ih split]
    simp [contextAfter]

theorem contextAfter_snoc (split : marks table text = before ++ mark :: after) :
    contextAfter (before ++ [mark]) = mark.context.next mark.line mark.role := by
  rw [← contextAfter_eq split]
  simp [contextAfter]

/-- A fence that is open has at least three marks. -/
theorem minLength_le (split : marks table text = before ++ mark :: after)
    (opened : mark.context.fence = some fence) : Fence.minLength ≤ fence.length := by
  obtain ⟨earlier, opener, between, same, opens, _⟩ := (fence_iff split fence).mp opened
  have member : opener.line ∈ linesOf text := by
    rw [← marks_lines table text, split, same]
    simp
  unfold Mark.opens? at opens
  split at opens
  · cases opens
  · rename_i outside
    simp only [Context.fenceAfter, outside] at opens
    split at opens
    · rw [fence_of_mem member, detect?_eq_some_iff] at opens
      have length := congrArg Fence.length opens.2
      exact length ▸ opens.1
    · cases opens

theorem fence_isSome_iff {text : String} (member : line ∈ linesOf text) :
    line.fence.isSome = true ↔
      ∃ c ∈ ['`', '~'], Fence.minLength ≤ runLength c line.content := by
  rw [fence_of_mem member, Option.isSome_iff_exists]
  constructor
  · rintro ⟨fence, found⟩
    refine ⟨fence.kind.mark, ?_, ((detect?_eq_some_iff _ _).mp found).1⟩
    cases fence.kind <;> simp [FenceKind.mark]
  · rintro ⟨c, sort, long⟩
    have code : (Fence.detect? line.content).map Fence.code = some ⟨c, runLength c line.content⟩ :=
      (detect?_code _ _).mpr ⟨by simpa using sort, long, rfl⟩
    obtain ⟨fence, found, _⟩ := Option.map_eq_some_iff.mp code
    exact ⟨fence, found⟩

/-- Outside fences text opens the fence that it looks like, at any indentation in a list. -/
theorem fence_next_text (split : marks table text = before ++ mark :: after)
    (outside : mark.context.fence = none) (isText : mark.role = .text) :
    (mark.context.next mark.line mark.role).fence =
      if mark.line.indent ≤ maxBlockIndent ∨ (mark.context.track mark.line).inList = true then
        mark.line.fence
      else none := by
  simp only [Context.next, Context.fenceAfter, outside, isText, true_and]
  by_cases flat : mark.line.quoteDepth = 0
  · simp only [flat, true_and]
  · have none : mark.line.fence = none := by
      by_contra found
      exact flat (quoteDepth_of_fence (mem_linesOf_of_split split) (Option.isSome_iff_ne_none.mpr found))
    simp [none]

/-- Text strays by a run of marks: by a second run of backticks, or far in the line of a list. -/
theorem Mark.strays_text_iff {mark : Mark} (isText : mark.role = .text) :
    mark.Strays none ↔
      if mark.line.indent ≤ maxBlockIndent then
        Fence.minLength ≤ runLength '`' mark.line.content ∧
          '`' ∈ mark.line.content.drop (runLength '`' mark.line.content)
      else (mark.context.track mark.line).inList = true ∧
        ∃ c ∈ ['`', '~'], Fence.minLength ≤ runLength c mark.line.content := by
  have literal : mark.isCommand = false := by simp [Mark.isCommand, isText]
  constructor
  · rintro (⟨_, shallow, long, more⟩ | ⟨_, deep, listed, long⟩ | ⟨taken, _⟩)
    · rw [if_pos shallow]
      exact ⟨long, more⟩
    · rw [if_neg deep]
      exact ⟨listed, long⟩
    · rw [literal] at taken
      cases taken
  · intro strays
    split at strays
    · rename_i shallow
      exact .loose isText shallow strays.1 strays.2
    · rename_i deep
      exact .deep isText deep strays.1 strays.2

/-- What looks like a fence opens one, unless it is a run of backticks with another backtick after it. -/
theorem detect?_agrees_iff (content : List Char) :
    (Fence.detect? content).map Fence.code = (Markup.codeFence? content).map (·.1) ↔
      ¬ (Fence.minLength ≤ runLength '`' content ∧ '`' ∈ content.drop (runLength '`' content)) := by
  constructor
  · rintro agrees ⟨long, more⟩
    have code : (Fence.detect? content).map Fence.code = some ⟨'`', runLength '`' content⟩ :=
      (detect?_code _ _).mpr ⟨.inl rfl, long, rfl⟩
    rw [code, eq_comm, codeFence?_code] at agrees
    exact agrees.2 ⟨rfl, more⟩
  · intro straight
    ext code
    rw [codeFence?_code]
    refine ⟨fun found => ⟨found, ?_⟩, And.left⟩
    rintro ⟨backtick, more⟩
    rw [detect?_code, backtick] at found
    exact straight ⟨found.2.1, backtick ▸ more⟩

/-- Where no fence is open, both see the same one after a line unless it strays. -/
theorem opening_agrees_iff (split : marks table text = before ++ mark :: after)
    (outside : mark.context.fence = none) :
    (mark.context.next mark.line mark.role).fence.map Fence.code = mark.line.codeFence? ↔
      ¬ mark.Strays none := by
  have member := mem_linesOf_of_split split
  by_cases isText : mark.role = .text
  · rw [fence_next_text split outside isText, Mark.strays_text_iff isText]
    by_cases shallow : mark.line.indent ≤ maxBlockIndent
    · simp only [shallow, true_or, ↓reduceIte, Line.codeFence?]
      rw [fence_of_mem member]
      exact detect?_agrees_iff _
    · have none : mark.line.codeFence? = none := by simp [Line.codeFence?, shallow]
      rw [none, if_neg shallow, ← fence_isSome_iff member]
      simp [shallow]
  · have none : (mark.context.next mark.line mark.role).fence = none := by
      simp [Context.next, Context.fenceAfter, outside, isText]
    rw [none, Option.map_none]
    constructor
    · rintro agrees (⟨text, _, _, _⟩ | ⟨text, _, _, _⟩ | ⟨_, opens⟩)
      · exact isText text
      · exact isText text
      · rw [← agrees] at opens
        cases opens
    · intro straight
      by_contra opens
      have opens : mark.line.codeFence?.isSome = true :=
        Option.isSome_iff_ne_none.mpr (Ne.symm opens)
      have shown : mark.line.isBlank = false := by
        cases content : mark.line.content with
        | nil => simp [Line.codeFence?, content, Markup.codeFence?] at opens
        | cons c rest => simp [Line.isBlank, content]
      exact straight (.command
        (mark.isCommand_eq_true.mpr ⟨isText, role_ne_blank (role_of_split split) shown⟩) opens)

/-- A fence that is open is closed for both or for none, unless the line strays. -/
theorem closing_agrees_iff (split : marks table text = before ++ mark :: after)
    (opened : mark.context.fence = some fence) :
    (mark.context.next mark.line mark.role).fence.map Fence.code =
      codeAfter (some fence.code) mark.line ↔ ¬ mark.Strays (some fence.code) := by
  have closes := closedBy_iff (mem_linesOf_of_split split) (minLength_le split opened)
  have next : (mark.context.next mark.line mark.role).fence =
      if mark.line.quoteDepth = 0 ∧ fence.closedBy mark.line.fence = true then none
      else some fence := by
    simp only [Context.next, Context.fenceAfter, opened, Bool.and_eq_true, beq_iff_eq]
  have code : mark.line.closesCode fence.code = true ↔ mark.line.indent ≤ maxBlockIndent ∧
      fence.length ≤ runLength fence.kind.mark mark.line.content ∧
      ∀ c ∈ mark.line.content.drop (runLength fence.kind.mark mark.line.content),
        c = ' ' ∨ c = '\t' := by
    simp only [Line.closesCode, Bool.and_eq_true, decide_eq_true_eq, List.all_eq_true,
      Bool.or_eq_true, beq_iff_eq, and_assoc]
    rfl
  have white (c : Char) (blank : c = ' ' ∨ c = '\t') : Unicode.isWhite c = true := by
    rcases blank with same | same <;> subst same <;> decide
  rw [next, codeAfter]
  constructor
  · rintro agrees (_ | _ | _ | ⟨long, bare, odd⟩)
    rw [if_pos (closes.mpr ⟨long, bare⟩), Option.map_none] at agrees
    split at agrees
    · rename_i both
      obtain ⟨shallow, _, blank⟩ := code.mp both
      rcases odd with deep | ⟨c, inside, other⟩
      · exact deep shallow
      · exact (blank c inside).elim other.1 other.2
    · cases agrees
  · intro straight
    by_cases both : mark.line.closesCode fence.code = true
    · obtain ⟨_, long, blank⟩ := code.mp both
      rw [if_pos both, if_pos (closes.mpr ⟨long, fun c inside => white c (blank c inside)⟩)]
      rfl
    · rw [if_neg both, if_neg]
      · rfl
      · intro closed
        obtain ⟨long, bare⟩ := closes.mp closed
        refine straight (.early long bare ?_)
        by_contra even
        rw [not_or, not_not] at even
        refine both (code.mpr ⟨even.1, long, fun c inside => ?_⟩)
        by_contra other
        exact even.2 ⟨c, inside, not_or.mp other⟩

/-- Where both see the same fence before a line, they see the same one after it unless it strays. -/
theorem next_agrees_iff (split : marks table text = before ++ mark :: after)
    (agrees : mark.context.fence.map Fence.code = code) :
    (mark.context.next mark.line mark.role).fence.map Fence.code = codeAfter code mark.line ↔
      ¬ mark.Strays code := by
  have member := mem_linesOf_of_split split
  cases opened : mark.context.fence with
  | none =>
    rw [opened, Option.map_none] at agrees
    subst agrees
    exact opening_agrees_iff split opened
  | some fence =>
    rw [opened, Option.map_some] at agrees
    subst agrees
    exact closing_agrees_iff split opened

/-- The comment and markup see the same fences up to some line exactly if no line before it strays. -/
theorem agrees_iff_straight (split : marks table text = before ++ after) :
    (∀ shown hidden, before = shown ++ hidden →
      (contextAfter shown).fence.map Fence.code = codeOpen (shown.map Mark.line)) ↔
        Straight before := by
  have next (earlier mark later) (same : before = earlier ++ mark :: later) :
      marks table text = earlier ++ mark :: (later ++ after) := by
    rw [split, same]
    simp
  have opened (earlier : List Mark) (mark : Mark) :
      codeOpen ((earlier ++ [mark]).map Mark.line) =
        codeAfter (codeOpen (earlier.map Mark.line)) mark.line := by
    simp [codeOpen]
  constructor
  · intro agrees earlier mark later same
    have split := next earlier mark later same
    have here := agrees earlier (mark :: later) same
    have there := agrees (earlier ++ [mark]) later (by simp [same])
    rw [contextAfter_eq split] at here
    rw [contextAfter_snoc split, opened] at there
    exact (next_agrees_iff split here).mp there
  · intro straight shown
    induction shown using List.reverseRecOn with
    | nil => exact fun _ _ => rfl
    | append_singleton earlier mark ih =>
      intro later same
      have same : before = earlier ++ mark :: later := by simpa using same
      have split := next earlier mark later same
      have here := ih (mark :: later) same
      rw [contextAfter_eq split] at here
      rw [contextAfter_snoc split, opened]
      exact (next_agrees_iff split here).mpr (straight earlier mark later same)

/-- A fence stays open over lines that do not close it. -/
theorem codeOpen_of_unclosed {lines between : List Line} {opener : Line}
    (outside : codeOpen lines = none) (opens : opener.codeFence? = some fence)
    (unclosed : ∀ line ∈ between, line.closesCode fence = false) :
    codeOpen (lines ++ opener :: between) = some fence := by
  have start : codeOpen (lines ++ [opener]) = some fence := by
    have outside : lines.foldl codeAfter none = none := outside
    simp [codeOpen, outside, codeAfter, opens]
  have more : ∀ between : List Line, (∀ line ∈ between, line.closesCode fence = false) →
      between.foldl codeAfter (some fence) = some fence := by
    intro between
    induction between with
    | nil => exact fun _ => rfl
    | cons line rest ih =>
      intro unclosed
      simp only [List.foldl_cons, codeAfter, unclosed line List.mem_cons_self, Bool.false_eq_true,
        ↓reduceIte]
      exact ih fun other member => unclosed other (List.mem_cons_of_mem _ member)
  rw [List.append_cons, codeOpen, List.foldl_append]
  rw [codeOpen] at start
  rw [start]
  exact more between unclosed

/-- Fenced code is a raw zone as long as no line strays, which is just as long as the comment and markup
see the same fences: a line after one that opens a fence for markup, with none between them or itself
that closes it, is content as it is written. -/
theorem fenced_code_raw (table : CommandTable) (text : String) :
    (∀ before after, marks table text = before ++ after →
      ((∀ shown hidden, before = shown ++ hidden →
        (contextAfter shown).fence.map Fence.code = codeOpen (shown.map Mark.line)) ↔
          Straight before)) ∧
    ∀ before opener between mark after fence,
      marks table text = (before ++ opener :: between) ++ mark :: after →
      codeOpen (before.map Mark.line) = none → opener.line.codeFence? = some fence →
      (∀ other ∈ between ++ [mark], other.line.closesCode fence = false) →
      Straight (before ++ opener :: between) →
        mark.isCommand = false ∧ mark.written = [mark.line.text] := by
  refine ⟨fun before after => agrees_iff_straight, ?_⟩
  intro before opener between mark after fence split outside opens unclosed straight
  have agrees := (agrees_iff_straight split).mpr straight _ [] (List.append_nil _).symm
  have inside : codeOpen ((before ++ opener :: between).map Mark.line) = some fence := by
    rw [List.map_append, List.map_cons]
    refine codeOpen_of_unclosed outside opens fun line member => ?_
    obtain ⟨other, own, same⟩ := List.mem_map.mp member
    exact same ▸ unclosed other (List.mem_append_left _ own)
  rw [contextAfter_eq split, inside] at agrees
  obtain ⟨opened, fenced, _⟩ := Option.map_eq_some_iff.mp agrees
  have isText : mark.role = .text := by
    rw [role_of_split split, Context.role, fenced]
  simp [Mark.isCommand, Mark.written, isText]

/-- A fenced comment about an effects section. -/
def fencedEffects : List Mark :=
  marks (.ofCommands [.part .effects]) "```\n\\effects x\n```"

set_option maxRecDepth 8000 in
theorem fenced_code_raw_effects : ∃ opener mark closer, fencedEffects = [opener, mark, closer] ∧
    Straight [opener] ∧ opener.line.codeFence? = some ⟨'`', 3⟩ ∧ mark.line.text = "\\effects x".toList ∧
    mark.isCommand = false ∧ mark.written = [mark.line.text] := by
  have count : fencedEffects.length = 3 := by decide
  obtain ⟨opener, mark, closer, split⟩ := List.length_eq_three.mp count
  have opens : ∀ opener ∈ fencedEffects[0]?, opener.line.codeFence? = some ⟨'`', 3⟩ ∧
      opener.line.indent ≤ maxBlockIndent ∧ opener.isCommand = false ∧
      '`' ∉ opener.line.content.drop (runLength '`' opener.line.content) := by decide
  have inside : ∀ mark ∈ fencedEffects[1]?, mark.line.closesCode ⟨'`', 3⟩ = false ∧
      mark.line.text = "\\effects x".toList := by decide
  obtain ⟨fence, shallow, noCommand, tight⟩ := opens opener (by rw [split]; rfl)
  obtain ⟨unclosed, text⟩ := inside mark (by rw [split]; rfl)
  have straight : Straight [opener] := by
    intro earlier other later whole
    obtain ⟨rfl, rfl, rfl⟩ : earlier = [] ∧ other = opener ∧ later = [] := by
      rcases earlier with - | ⟨head, rest⟩
      · cases whole
        exact ⟨rfl, rfl, rfl⟩
      · simp at whole
    rintro (⟨-, -, -, more⟩ | ⟨-, deep, -, -⟩ | ⟨taken, -⟩)
    · exact tight more
    · exact deep shallow
    · cases noCommand.symm.trans taken
  obtain ⟨taken, written⟩ := (fenced_code_raw (.ofCommands [.part .effects]) "```\n\\effects x\n```").2
    [] opener [] mark [closer] ⟨'`', 3⟩ split rfl fence (List.forall_mem_singleton.mpr unclosed) straight
  exact ⟨opener, mark, closer, split, straight, fence, text, taken, written⟩

set_option maxRecDepth 8000 in
/-- Three ways to stray: a closing fence that is indented like code, one that a no-break space follows,
and backticks that open no fence for markup because another one comes after them. -/
theorem command_taken_inside_fence :
    (codeOpen ((linesOf "```\n    ```\n\\effects x").take 2) = some ⟨'`', 3⟩ ∧
      segment (fun text => [.text text]) (.ofCommands [.part .effects])
        "```\n    ```\n\\effects x" = [.markup [.text "```\n    ```"], .part .effects [.text "x"]]) ∧
    (codeOpen ((linesOf "```\n```\u00a0\n\\effects x").take 2) = some ⟨'`', 3⟩ ∧
      segment (fun text => [.text text]) (.ofCommands [.part .effects])
        "```\n```\u00a0\n\\effects x" =
          [.markup [.text "```\n```\u00a0"], .part .effects [.text "x"]]) ∧
    (codeOpen ((linesOf "``` a`b\n```\n\\effects x").take 2) = some ⟨'`', 3⟩ ∧
      segment (fun text => [.text text]) (.ofCommands [.part .effects])
        "``` a`b\n```\n\\effects x" =
          [.markup [.text "``` a`b\n```"], .part .effects [.text "x"]]) := by
  decide +kernel

end DocComment.Comment
