import DocComment.Proofs.Markup.Containers

namespace DocComment.Markup

/-- A block without blocks inside and lines that it is read from. -/
inductive LeafLines : Block → List (List Char) → Prop where
  /-- Lines that start no block, and together no link definition. -/
  | paragraph {first : List Char} {others : List (List Char)}
      (inert : ∀ line ∈ first :: others, Inert line)
      (defines : first.head? = some '[' → definition? (Text.joinLines (first :: others)) = none) :
      LeafLines (.paragraph (Text.joinLines (first :: others))) (first :: others)
  | heading {line : List Char} {level : Nat} (found : headingLevel? line = some level) :
      LeafLines (.heading level (headingText (line.drop level))) [line]
  | rule : LeafLines .rule [['-', '-', '-']]
  /-- Code between fences that are longer than any run of backticks in it. -/
  | code {count : Nat} {info : List Char} {lines : List (List Char)} (enough : 3 ≤ count)
      (plain : '`' ∉ info) (short : ∀ line ∈ lines, ∀ before, before <:+ line →
        runLength '`' before < count) :
      LeafLines
        (.code (unescape (Text.dropEndWhile isLineBlank (info.dropWhile isLineBlank)))
          (lines.flatMap (· ++ ['\n'])))
        ((List.replicate count '`' ++ info) :: (lines ++ [List.replicate count '`']))

/-- Lines that start no block continue a paragraph in its containers, up to what ends it. -/
theorem paragraphRest_of_inert {containers : List Container} {others : List (List Char)}
    {body rest : List Line} (same : body.map (·.content) = others.map (within containers))
    (inert : ∀ line ∈ others, Inert line) (ends : Ends containers rest) :
    paragraphRest containers (body ++ rest) = ⟨others, none, rest⟩ := by
  induction others generalizing body with
  | nil =>
    obtain rfl := List.map_eq_nil_iff.mp same
    exact ends.paragraphRest
  | cons text others ih =>
    obtain ⟨line, lines, rfl, content, later⟩ := List.map_eq_cons_iff.mp same
    have first := inert text List.mem_cons_self
    have more := ih later fun other member => inert other (List.mem_cons_of_mem text member)
    obtain ⟨after, followed⟩ := followSpine_within containers 0 text
    have notBlank := first.not_all_blank (fun c => c == ' ' || c == '\t') (by simp +contextual [isLineBlank])
    rw [← content] at followed
    simp only [List.cons_append, paragraphRest, followed, first.skipBlanks, first.underline, notBlank, more]
    simp [first.interruptsParagraph]

theorem definitionLines_of_inert {containers : List Container} {others : List (List Char)}
    {body rest : List Line} (same : body.map (·.content) = others.map (within containers))
    (inert : ∀ line ∈ others, Inert line) (ends : Ends containers rest) :
    definitionLines containers (body ++ rest) = others := by
  induction others generalizing body with
  | nil =>
    obtain rfl := List.map_eq_nil_iff.mp same
    exact ends.definitionLines
  | cons text others ih =>
    obtain ⟨line, lines, rfl, content, later⟩ := List.map_eq_cons_iff.mp same
    have first := inert text List.mem_cons_self
    have more := ih later fun other member => inert other (List.mem_cons_of_mem text member)
    obtain ⟨after, followed⟩ := followSpine_within containers 0 text
    have notBlank := first.not_all_blank isLineBlank fun _ same => same
    rw [← content] at followed
    simp only [List.cons_append, definitionLines, followed, first.skipBlanks, first.underline,
      first.interruptsParagraph, notBlank, more]
    simp

theorem skipBlanks_suffix (wanted : Nat) (cursor : Cursor) :
    (cursor.skipBlanks wanted).2.rest <:+ cursor.rest := by
  have from_ (column wanted : Nat) (text : List Char) :
      (Cursor.skipBlanksFrom column wanted text).2.rest <:+ text := by
    fun_induction Cursor.skipBlanksFrom column wanted text with
    | case1 => exact List.suffix_rfl
    | case2 => exact List.suffix_rfl
    | case3 _ _ c rest _ _ ih => exact ih.trans (List.suffix_cons c rest)
    | case4 _ _ c rest _ _ _ _ _ ih => exact ih.trans (List.suffix_cons c rest)
    | case5 _ _ c rest => exact List.suffix_cons c rest
    | case6 => exact List.suffix_rfl
  unfold Cursor.skipBlanks
  split
  · exact List.suffix_rfl
  · exact from_ _ _ _

theorem skipBlanks_zero (column : Nat) (rest : List Char) :
    Cursor.skipBlanks 0 { column, rest } = (0, { column, rest }) := rfl

theorem runLength_replicate (count : Nat) {rest : List Char} (apart : rest.head? ≠ some '`') :
    runLength '`' (List.replicate count '`' ++ rest) = count := by
  rw [runLength, Text.takeWhile_replicate_append count apart, List.length_replicate]

/-- Code lines are read up to the closing fence. -/
theorem fencedLines_code {containers : List Container} {count : Nat} {lines : List (List Char)}
    {body rest : List Line} {closing : Line} (positive : 0 < count)
    (same : body.map (·.content) = lines.map (within containers))
    (fed : ∀ line ∈ body, line.ending = .lineFeed)
    (closes : closing.content = within containers (List.replicate count '`'))
    (short : ∀ line ∈ lines, ∀ before, before <:+ line → runLength '`' before < count) (fuel : Nat)
    (enough : body.length < fuel) :
    fencedLines containers ⟨'`', count⟩ 0 fuel (body ++ closing :: rest) =
      (lines.flatMap (· ++ ['\n']), rest) := by
  obtain ⟨fuel, rfl⟩ := Nat.exists_eq_add_one.mpr (Nat.zero_lt_of_lt enough)
  induction lines generalizing body fuel with
  | nil =>
    obtain rfl := List.map_eq_nil_iff.mp same
    obtain ⟨after, followed⟩ := followSpine_within containers 0 (List.replicate count '`')
    have run : runLength '`' (List.replicate count '`') = count := by
      simpa using @runLength_replicate count [] (by simp)
    obtain ⟨more, rfl⟩ := Nat.exists_eq_add_one.mpr positive
    have inked : ∀ rest, Cursor.skipBlanks 4 { column := after, rest := '`' :: rest } =
        (4, { column := after, rest := '`' :: rest }) :=
      fun rest => skipBlanks_inked after 4 rest (by omega) (by decide)
    rw [← closes] at followed
    rw [List.replicate_succ] at followed run
    simp [fencedLines, followed, skipBlanks_zero, inked, CodeFence.closedBy, run]
  | cons text others ih =>
    obtain ⟨line, more, rfl, content, later⟩ := List.map_eq_cons_iff.mp same
    obtain ⟨after, followed⟩ := followSpine_within containers 0 text
    have fuelLeft : more.length < fuel := by simpa using enough
    obtain ⟨fuel, rfl⟩ := Nat.exists_eq_add_one.mpr (Nat.zero_lt_of_lt fuelLeft)
    have next := ih later (fun other member => fed other (List.mem_cons_of_mem line member))
      (fun other member => short other (List.mem_cons_of_mem text member)) fuel fuelLeft
    have unclosed := short text List.mem_cons_self _
      (skipBlanks_suffix 4 { column := after, rest := text })
    have raw : rawLine text line.ending (more ++ closing :: rest) =
        (text ++ ['\n'], more ++ closing :: rest) := by
      rw [fed line List.mem_cons_self, rawLine]
    rw [← content] at followed
    rw [List.cons_append, fencedLines]
    simp [followed, skipBlanks_zero, CodeFence.closedBy, Nat.not_le.mpr unclosed, raw, next, indentation]

theorem skipUpTo_inked {c : Char} (column : Nat) (rest : List Char) (inked : isLineBlank c = false) :
    Cursor.skipUpTo 4 { column, rest := c :: rest } = (0, { column, rest := c :: rest }) := by
  rw [Cursor.skipUpTo, skipBlanks_inked column 4 rest (by omega) (not_blank inked)]

theorem headingLevel?_starts {line : List Char} {level : Nat} (found : headingLevel? line = some level) :
    ∃ c rest, line = c :: rest ∧ c = '#' := by
  cases line with
  | nil => cases found
  | cons c rest =>
    refine ⟨c, rest, rfl, ?_⟩
    by_contra other
    simp [headingLevel?, runLength, other] at found

/-- A line that opens no container is read as a block. -/
theorem openContainers_leaf {base state : BlockState} (finish : state.finishList = base)
    {c : Char} {rest : List Char} (inked : isLineBlank c = false) (notQuote : c ≠ '>') {column : Nat}
    (item : itemStart? 0 { column, rest := c :: rest } = none) (ending : LineEnding)
    (following : List Line) (fuel : Nat) :
    openContainers ending following (fuel + 1) state { column, rest := c :: rest } =
      leafBlock base { column, rest := c :: rest } ending following := by
  have blanks := skipUpTo_inked column rest inked
  have blank : isBlankLine (c :: rest) = false := by simp [isBlankLine, inked]
  have quote : quoteMark? { column, rest := c :: rest } = none := by
    rw [quoteMark?]
    split
    case h_1 rest quoted => exact absurd (List.cons.inj quoted).1 notQuote
    case h_2 => rfl
  simp only [openContainers, blanks, item, quote, blank, finish]
  rfl

/-- A fence without a backtick after it opens code. -/
theorem leafBlock_fence (base : BlockState) (column : Nat) (ending : LineEnding) {following last : List Line}
    {count : Nat} {info code : List Char} (enough : 3 ≤ count) (plain : '`' ∉ info)
    (read : fencedLines base.containers ⟨'`', count⟩ 0 (following.length + 1) following = (code, last)) :
    leafBlock base { column, rest := List.replicate count '`' ++ info } ending following =
      (base.append (.code (unescape (Text.dropEndWhile isLineBlank (info.dropWhile isLineBlank))) code),
        last) := by
  obtain ⟨more, rfl⟩ := Nat.exists_eq_add_of_le' enough
  have fence : codeFence? (List.replicate (more + 3) '`' ++ info) = some (⟨'`', more + 3⟩, info) := by
    have run : runLength '`' (List.replicate (more + 3) '`' ++ info) = more + 3 :=
      runLength_replicate _ fun first => plain (List.mem_of_mem_head? first)
    have left : (List.replicate (more + 3) '`' ++ info).drop (more + 3) = info := by simp
    rw [List.replicate_succ, List.cons_append] at run left ⊢
    simp [codeFence?, run, left, plain]
  rw [List.replicate_succ, List.cons_append] at fence ⊢
  have start := skipUpTo_inked (c := '`') column (List.replicate (more + 2) '`' ++ info) (by decide)
  have heading : headingLevel? ('`' :: (List.replicate (more + 2) '`' ++ info)) = none := by
    simp [headingLevel?, runLength]
  simp only [leafBlock, start, isRule, heading, fence, read]
  rfl

namespace LeafLines

variable {block : Block} {first : List Char} {others : List (List Char)}

/-- The first line opens no container. -/
theorem opens (lines : LeafLines block (first :: others)) (column : Nat) :
    ∃ c rest, first = c :: rest ∧ isLineBlank c = false ∧ c ≠ '>' ∧
      itemStart? 0 { column, rest := first } = none := by
  cases lines with
  | paragraph inert =>
    have line := inert _ List.mem_cons_self
    obtain ⟨c, rest, same, inked, notQuote, _⟩ := line.first
    exact ⟨c, rest, same, inked, notQuote, line.itemStart? 0 column⟩
  | @heading _ level found =>
    obtain ⟨c, rest, same, mark⟩ := headingLevel?_starts found
    subst mark same
    exact ⟨_, _, rfl, rfl, by decide, by simp [Markup.itemStart?, ListMark.read?]⟩
  | rule => exact ⟨_, _, rfl, rfl, by decide, by
      simp [Markup.itemStart?, ListMark.read?, ListMark.ordered, isRule]⟩
  | @code count info _ enough =>
    obtain ⟨more, rfl⟩ := Nat.exists_eq_add_of_le' enough
    exact ⟨'`', _, rfl, rfl, by decide, by
      simp [Markup.itemStart?, ListMark.read?, List.replicate_succ]⟩

/-- In its containers a block is read from its lines, up to what ends it. -/
theorem leafBlock (lines : LeafLines block (first :: others)) (base : BlockState) (column : Nat)
    (ending : LineEnding) {body rest : List Line}
    (same : body.map (·.content) = others.map (within base.containers))
    (fed : Fed body) (ends : Ends base.containers rest) :
    leafBlock base { column, rest := first } ending (body ++ rest) = (base.append block, rest) := by
  cases lines with
  | paragraph inert defines =>
    have line := inert first List.mem_cons_self
    have later := fun other member => inert other (List.mem_cons_of_mem first member)
    obtain ⟨c, text, starts, _, _, notTag⟩ := line.first
    have html : ∀ rest, first ≠ '<' :: rest := by
      intro others tag
      exact notTag (List.cons.inj (starts.symm.trans tag)).1
    have undefined : (if first.head? == some '[' then
        definition? (Text.joinLines (first :: others)) else none) = none := by
      split
      · rename_i bracket
        exact defines (eq_of_beq bracket)
      · rfl
    simp only [Markup.leafBlock, line.skipUpTo, definitionLines_of_inert same later ends, undefined,
      paragraphRest_of_inert same later ends, line.rule, line.heading, line.fence]
    rfl
  | @heading _ level found =>
    obtain rfl := List.map_eq_nil_iff.mp same
    obtain ⟨c, text, rfl, mark⟩ := headingLevel?_starts found
    subst mark
    have start := skipUpTo_inked (c := '#') column text (by decide)
    simp [Markup.leafBlock, start, isRule, found]
  | rule =>
    obtain rfl := List.map_eq_nil_iff.mp same
    have start := skipUpTo_inked (c := '-') column ['-', '-'] (by decide)
    simp [Markup.leafBlock, start, isRule]
  | @code count info code enough plain short =>
    rw [List.map_append, List.map_singleton] at same
    obtain ⟨body, closing, rfl, sameCode, sameClosing⟩ := List.map_eq_append_iff.mp same
    obtain ⟨closing, rfl, closes⟩ := List.map_eq_singleton_iff.mp sameClosing
    rw [Fed, List.dropLast_concat] at fed
    have read := @fencedLines_code base.containers count _ _ rest _ (by omega) sameCode fed closes short
      ((body ++ closing :: rest).length + 1) (by rw [List.length_append, List.length_cons]; omega)
    rw [List.append_assoc, List.singleton_append]
    exact leafBlock_fence base column ending enough plain read

end LeafLines

/-- A text is one block if its first line opens no container and the block takes all its lines. -/
theorem blocksOf_single {block : Block} {text : List Char} {line : Line} {following : List Line}
    (own : linesOf text = line :: following) {c : Char} {rest : List Char} (same : line.content = c :: rest)
    (inked : isLineBlank c = false) (notQuote : c ≠ '>')
    (item : itemStart? 0 { column := 0, rest := line.content } = none)
    (read : leafBlock {} { column := 0, rest := line.content } line.ending following =
      (({} : BlockState).append block, [])) : blocksOf text = ([block], []) := by
  have step : blockStep {} line following = (({} : BlockState).append block, []) := by
    rw [same] at item read
    have finished : ({} : BlockState).finishList = {} := rfl
    have opened := openContainers_leaf finished inked notQuote item line.ending following
      line.content.length
    rw [← same] at opened read
    exact opened.trans read
  simp only [blocksOf, own, List.length_cons, runBlocks, step]
  rfl

/-- A text of the lines of one block is read as that block. -/
theorem blocksOf_leaf {block : Block} {text : List Char} (lines : LeafLines block (contents text))
    (plain : ∀ c ∈ text, c ≠ '\r') : blocksOf text = ([block], []) := by
  have fed := linesOf_fed text plain
  unfold contents at lines
  cases own : linesOf text with
  | nil => rw [own] at lines; cases lines
  | cons line following =>
    rw [own] at lines fed
    obtain ⟨c, rest, same, inked, notQuote, item⟩ := lines.opens 0
    have body : following.map (·.content) =
        (following.map (·.content)).map (within ({} : BlockState).containers) :=
      (List.map_id _).symm
    have read := lines.leafBlock {} 0 line.ending body fed.tail .nil
    rw [List.append_nil] at read
    exact blocksOf_single own same inked notQuote item read

/-- A text whose lines start no block is one paragraph, also with a line end after it. -/
theorem InertText.blocksOf {text : List Char} (inert : InertText text) (written : List Char)
    (same : written = text ∨ written = text ++ ['\n'])
    (defines : text.head? = some '[' → definition? text = none) :
    blocksOf written = ([.paragraph text], []) := by
  have lines : Markup.contents written = Markup.contents text := by
    rcases same with rfl | rfl
    · rfl
    · exact contents_lastEnd text inert.plain inert.ne_nil inert.open_
  have plain : ∀ c ∈ written, c ≠ '\r' := by
    rcases same with rfl | rfl
    · exact inert.plain
    · exact List.forall_mem_append.mpr ⟨inert.plain, by simp⟩
  have joined := joinLines_contents text inert.plain inert.open_
  have each := inert.contents
  obtain ⟨first, others, apart⟩ :=
    List.exists_cons_of_ne_nil (contents_ne_nil inert.plain inert.ne_nil)
  rw [apart] at each joined
  have paragraph : LeafLines (.paragraph (Text.joinLines (first :: others))) (first :: others) := by
    refine .paragraph each fun bracket => ?_
    obtain ⟨rest, start⟩ := List.head?_eq_some_iff.mp bracket
    rw [joined]
    refine defines ?_
    rw [← joined, start, joinLines_longer]
    rfl
  rw [← joined]
  exact blocksOf_leaf (by rwa [lines, apart]) plain

theorem headingLevel?_marks {level : Nat} (positive : 1 ≤ level) (atMost : level ≤ 6) (body : List Char) :
    headingLevel? (List.replicate level '#' ++ ' ' :: body) = some level := by
  have parts : (List.replicate level '#' ++ ' ' :: body).takeWhile (· == '#') =
      List.replicate level '#' :=
    Text.takeWhile_replicate_append level (by simp)
  have content : (List.replicate level '#' ++ ' ' :: body).drop level = ' ' :: body := by
    simp
  rw [headingLevel?, runLength, parts, List.length_replicate, content]
  simp [positive, atMost, isLineBlank]

/-- A line of marks and a blank is a heading, whatever comes after them. -/
theorem blocksOf_marked (level : Nat) {body : List Char} (positive : 1 ≤ level) (atMost : level ≤ 6)
    (oneLine : ∀ c ∈ body, c ≠ '\n' ∧ c ≠ '\r') :
    blocksOf (List.replicate level '#' ++ ' ' :: body) =
      ([.heading level (headingText (' ' :: body))], []) := by
  have content : (List.replicate level '#' ++ ' ' :: body).drop level = ' ' :: body := by
    simp
  have all : ∀ c ∈ List.replicate level '#' ++ ' ' :: body, c ≠ '\n' ∧ c ≠ '\r' := by
    have marks : ∀ c ∈ List.replicate level '#', c ≠ '\n' ∧ c ≠ '\r' :=
      List.forall_mem_replicate.mpr (.inr (by decide))
    exact List.forall_mem_append.mpr ⟨marks, List.forall_mem_cons.mpr ⟨by decide, oneLine⟩⟩
  have single : contents (List.replicate level '#' ++ ' ' :: body) =
      [List.replicate level '#' ++ ' ' :: body] := by
    rw [contents, linesOf_single _ (by simp) all]
    rfl
  have heading := LeafLines.heading (headingLevel?_marks positive atMost body)
  rw [content, ← single] at heading
  exact blocksOf_leaf heading fun c member => (all c member).2

theorem blocksOf_heading_spaced (level : Nat) (text : List Char) (count : Nat) (positive : 1 ≤ level)
    (atMost : level ≤ 6) (oneLine : ∀ c ∈ text, c ≠ '\n' ∧ c ≠ '\r')
    (first : ∀ c, text.head? = some c → isLineBlank c = false) (last : text.getLast? ≠ some ' ')
    (escaped : ∀ before, text = before ++ ['#'] → before.getLast? = some '\\') :
    blocksOf (List.replicate level '#' ++ ' ' :: (text ++ List.replicate count ' ')) =
      ([.heading level text], []) := by
  have inLine : ∀ c ∈ text ++ List.replicate count ' ', c ≠ '\n' ∧ c ≠ '\r' :=
    List.forall_mem_append.mpr ⟨oneLine, List.forall_mem_replicate.mpr (.inr (by decide))⟩
  rw [blocksOf_marked level positive atMost inLine, headingText_spaced text count first last escaped]

theorem blocksOf_heading (level : Nat) (text : List Char) (positive : 1 ≤ level) (atMost : level ≤ 6)
    (oneLine : ∀ c ∈ text, c ≠ '\n' ∧ c ≠ '\r')
    (first : ∀ c, text.head? = some c → isLineBlank c = false) (last : text.getLast? ≠ some ' ')
    (escaped : ∀ before, text = before ++ ['#'] → before.getLast? = some '\\') :
    blocksOf (List.replicate level '#' ++ ' ' :: text) = ([.heading level text], []) := by
  have read := blocksOf_heading_spaced level text 0 positive atMost oneLine first last escaped
  rwa [List.replicate_zero, List.append_nil] at read

end DocComment.Markup
