import DocComment.Proofs.Markup.Legible

namespace DocComment.Markup

theorem isInked_of_isDigit {c : Char} (digit : c.isDigit = true) : isInked c = true := by
  have range : 48 ≤ c.toNat ∧ c.toNat ≤ 57 := by
    simp only [Char.isDigit, Bool.and_eq_true, decide_eq_true_eq] at digit
    exact ⟨UInt32.le_iff_toNat_le.mp digit.1, UInt32.le_iff_toNat_le.mp digit.2⟩
  have apart : ∀ d : Char, d.toNat < 48 → (c == d) = false := by
    intro d small
    refine beq_false_of_ne ?_
    rintro rfl
    omega
  have letter : Unicode.isAsciiPunctuation c = false := by
    simp only [Unicode.isAsciiPunctuation, Bool.or_eq_false_iff, Bool.and_eq_false_iff,
      decide_eq_false_iff_not]
    omega
  simp only [isInked, isLineBlank, letter, apart ' ' (by decide), apart '\t' (by decide),
    apart '\x0b' (by decide), apart '\x0c' (by decide), apart '\n' (by decide)]
  rfl

/-- What follows a text does not make a list marker of a number at its end. -/
theorem dropWhile_digits_of_special {rest : List Char}
    (special : ∀ c, rest.head? = some c → isPlain c = false) (d : Char)
    (first : (rest.dropWhile Char.isDigit).head? = some d) : d ≠ '.' ∧ d ≠ ')' := by
  cases rest with
  | nil => simp at first
  | cons c others =>
    have kind := special c rfl
    have notDigit : ¬ c.isDigit = true := by
      intro digit
      rw [isPlain_of_isInked (isInked_of_isDigit digit)] at kind
      contradiction
    rw [List.dropWhile_cons_of_neg notDigit] at first
    obtain rfl := Option.some.inj first
    constructor <;> (rintro rfl; simp [isPlain, isLineBlank] at kind)

/-- Escaped text starts no block where one of its lines starts. -/
theorem inertBreaks_escapeFrom {lineStart : Bool} {text rest : List Char} {next : Option Char}
    (known : ∀ c ∈ text, c ≠ '\r' ∧ c ≠ '\x0b' ∧ c ≠ '\x0c') (settled : goesOn next text = true)
    (special : ∀ c, rest.head? = some c → isPlain c = false) (more : InertBreaks rest)
    (ends : text.getLast? = some '\n' → Inert (firstLine rest)) :
    InertBreaks (escapeFrom lineStart text ++ rest) := by
  induction text generalizing lineStart with
  | nil => exact more
  | cons c others ih =>
    have later : ∀ start, InertBreaks (escapeFrom start others ++ rest) := by
      intro start
      refine ih (fun d member => known d (List.mem_cons_of_mem c member)) (goesOn_tail settled) ?_
      intro last
      apply ends
      rw [List.getLast?_cons, last]
      rfl
    by_cases lineEnd : c = '\n'
    · subst lineEnd
      rw [escapeFrom_lineEnd]
      refine .cons (later true) fun _ => ?_
      cases others with
      | nil => exact ends rfl
      | cons d more =>
        have inLine : d ≠ '\n' := by
          simp only [goesOn, Bool.and_eq_true] at settled
          simpa [isEdge] using settled.1
        refine inert_escapeFrom more rest inLine ?_ (dropWhile_digits_of_special special)
        intro blank
        simpa [isLineBlank, known d (List.mem_cons_of_mem _ List.mem_cons_self)] using blank
    · obtain ⟨written, next, escape, same⟩ := escapeFrom_cons lineStart c
      rw [same, List.append_assoc]
      exact .append_oneLine (escape.oneLine lineEnd) (later next)

/-- Marks before something else than a blank are no list marker and no rule. -/
theorem inert_of_marks {count : Nat} {d : Char} {rest : List Char} (positive : 0 < count)
    (other : d ≠ '*') (ink : Unicode.isWhite d = false) :
    Inert (firstLine (List.replicate count '*' ++ d :: rest)) := by
  obtain ⟨marks, rfl⟩ := Nat.exists_eq_add_one.mpr positive
  have inked : d ≠ ' ' ∧ d ≠ '\t' ∧ d ≠ '\n' := by
    refine ⟨?_, ?_, ?_⟩ <;> (rintro rfl; simp [Unicode.isWhite] at ink; contradiction)
  have line : firstLine (List.replicate (marks + 1) '*' ++ d :: rest) =
      '*' :: (List.replicate marks '*' ++ d :: firstLine rest) := by
    rw [firstLine_append _ (List.forall_mem_replicate.mpr (.inr (by decide)))]
    simp [firstLine, inked, List.replicate_succ]
  rw [line]
  refine ⟨⟨'*', _, rfl, rfl, by decide, by decide⟩, ?_, ?_, rfl, rfl, rfl⟩
  · intro found read
    have bullet : found = ⟨'*', 0, 1⟩ := by simpa [ListMark.read?, eq_comm] using read
    subst bullet
    cases marks with
    | zero => exact ⟨d, _, rfl, inked.1, inked.2.1⟩
    | succ marks => exact ⟨'*', _, rfl, by decide, by decide⟩
  · simp [isRule, other, inked]

/-- A code span starts no fenced code: there are backticks after its fence. -/
theorem Fenced.inert {body : List Char} {count : Nat} (fenced : Fenced body count) (rest : List Char) :
    Inert (firstLine (fencedMarkup body count ++ rest)) := by
  have line := firstLine_append rest fun c member => (fenced.oneLine_written c member).1
  have parts : fencedMarkup body count ++ rest =
      '`' :: (List.replicate count '`' ++ (body ++ (List.replicate (count + 1) '`' ++ rest))) := by
    rw [fencedMarkup, List.replicate_succ]
    simp
  have whole : firstLine (fencedMarkup body count ++ rest) = '`' :: (List.replicate count '`' ++
      (body ++ (List.replicate (count + 1) '`' ++ firstLine rest))) := by
    rw [line, fencedMarkup, List.replicate_succ]
    simp
  have fence : codeFence? (firstLine (fencedMarkup body count ++ rest)) = none := by
    have run : runLength '`' ('`' :: (List.replicate count '`' ++
        (body ++ (List.replicate (count + 1) '`' ++ firstLine rest)))) = count + 1 := by
      simp [runLength, fenced.run]
    have left : ('`' :: (List.replicate count '`' ++
        (body ++ (List.replicate (count + 1) '`' ++ firstLine rest)))).drop (count + 1) =
          body ++ (List.replicate (count + 1) '`' ++ firstLine rest) := by
      rw [← List.cons_append, ← List.replicate_succ]
      exact List.drop_left' List.length_replicate
    rw [whole]
    simp only [codeFence?, run, left]
    simp [List.replicate_succ]
  rw [parts] at fence ⊢
  refine inert_of_quiet rfl (by decide) (by decide) fence ?_
  rintro d ⟨⟩
  decide

theorem PlainCode.inert {code : String} (plain : PlainCode code) (rest : List Char) :
    Inert (firstLine (codeSpanMarkup code ++ rest)) := by
  obtain ⟨body, span⟩ := plain.body
  rw [span.written]
  exact span.fenced.inert rest

theorem escapeFrom_lastEnd {lineStart : Bool} {text : List Char} (last : text.getLast? = some '\n') :
    (escapeFrom lineStart text).getLast? = some '\n' := by
  obtain ⟨before, rfl⟩ := List.getLast?_eq_some_iff.mp last
  obtain ⟨start, same⟩ := escapeFrom_append lineStart before
  rw [same, escapeFrom_lineEnd]
  exact List.getLast?_concat

/-- What follows content that no text begins. -/
theorem Legible.special_after {place : Place} {entities : List Entity} (legible : Legible place entities)
    (alone : startsWithText entities = false) {rest : List Char}
    (special : ∀ c, rest.head? = some c → isPlain c = false) (c : Char)
    (first : (spell place.lineStart entities ++ rest).head? = some c) : isPlain c = false := by
  rw [List.head?_append] at first
  cases head : (spell place.lineStart entities).head? with
  | none => exact special c (by simpa [head] using first)
  | some d =>
    obtain rfl : d = c := by simpa [head] using first
    exact (special_of_markStarts d (legible.head_mem alone d head)).1

/-- A link starts no block if its text does not. -/
theorem inertBreaks_bracketMarkup {content : List Entity} {tail rest : List Char}
    (oneLine : ∀ c ∈ tail, c ≠ '\n') (breaks : InertBreaks rest)
    (inner : ∀ {rest : List Char}, (∀ c, rest.head? = some c → isPlain c = false) → InertBreaks rest →
      InertBreaks (spell true content ++ rest)) :
    InertBreaks (bracketMarkup content tail ++ rest) := by
  rw [bracketMarkup, List.append_assoc]
  refine .cons (inner ?_ (.cons (.append_oneLine oneLine breaks) (by simp))) (by simp)
  rintro c ⟨⟩
  rfl

/-- Content and what follows it start no block where a line starts, and none at the start of the
content if that is written as the start of a line. -/
structure StartsNoBlock (lineStart : Bool) (entities : List Entity) (rest : List Char) : Prop where
  breaks : InertBreaks (spell lineStart entities ++ rest)
  start : lineStart = true → spell true entities ≠ [] → Inert (firstLine (spell true entities ++ rest))

namespace StartsNoBlock

variable {rest : List Char} {later : List Entity}

theorem text {place : Place} {written : String}
    (known : ∀ c ∈ written.toList, c ≠ '\r' ∧ c ≠ '\x0b' ∧ c ≠ '\x0c')
    (begins : place.lineStart = true → written.toList.head? ≠ some '\n')
    (settled : ∃ next, goesOn next written.toList = true)
    (ends : written.toList.getLast? = some '\n' → spell true later ≠ [])
    (after : ∀ c, (spell (place.past (escapeFrom place.lineStart written.toList)).lineStart later ++
      rest).head? = some c → isPlain c = false)
    (more : StartsNoBlock (place.past (escapeFrom place.lineStart written.toList)).lineStart later rest) :
    StartsNoBlock place.lineStart (.leaf (.text written) :: later) rest where
  breaks := by
    obtain ⟨next, settled⟩ := settled
    rw [spell_text, List.append_assoc]
    refine inertBreaks_escapeFrom known settled after more.breaks fun last => ?_
    have starts : (place.past (escapeFrom place.lineStart written.toList)).lineStart = true :=
      startsAfter_of_getLast? _ (escapeFrom_lastEnd last)
    rw [starts] at more ⊢
    exact more.start rfl (ends last)
  start := by
    obtain ⟨outer, linked, oneLine, before, lineStart, next⟩ := place
    rintro rfl nonempty
    cases chars : written.toList with
    | nil =>
      have empty : markupOf true (.leaf (.text written)) = [] := by
        rw [markupOf, leafMarkup, chars]
        rfl
      rw [chars] at more
      rw [spell, empty] at nonempty ⊢
      exact more.start rfl nonempty
    | cons c others =>
      rw [chars] at after begins
      rw [spell, markupOf, leafMarkup, List.append_assoc, chars]
      refine inert_escapeFrom others _ ?_ ?_ (dropWhile_digits_of_special after)
      · exact fun same => begins rfl (by rw [same]; rfl)
      · intro blank
        simpa [isLineBlank, known c (by rw [chars]; exact List.mem_cons_self)] using blank

/-- What is in emphasis begins neither with a mark nor with a blank. -/
theorem emphasis {lineStart : Bool} {place : Place} {count : Nat} {content : List Entity}
    (positive : 0 < count) (opens : (place.opener count content).canOpen = true)
    (within : (spell true content).head? ≠ some '*')
    (inner : InertBreaks (spell true content ++ (List.replicate count '*' ++ (spell false later ++ rest)))) :
    StartsNoBlock lineStart (marked count content ++ later) rest where
  breaks := by
    rw [spell_marked positive]
    simp only [List.append_assoc]
    exact .append_oneLine (List.forall_mem_replicate.mpr (.inr (by decide))) inner
  start _ _ := by
    obtain ⟨first, starts, ink⟩ := Delimiters.opens_before opens
    obtain ⟨others, same⟩ := List.head?_eq_some_iff.mp starts
    rw [spell_marked positive, same]
    simp only [List.append_assoc, List.cons_append]
    exact inert_of_marks positive (fun star => within (star ▸ starts)) ink

end StartsNoBlock

theorem Legible.inert {place : Place} {entities : List Entity} (legible : Legible place entities)
    {rest : List Char} (special : ∀ c, rest.head? = some c → isPlain c = false)
    (breaks : InertBreaks rest) : StartsNoBlock place.lineStart entities rest := by
  induction legible generalizing rest with
  | nil => exact ⟨breaks, fun _ nonempty => absurd rfl nonempty⟩
  | text known begins settled ends alone more ih =>
    exact .text known begins ⟨_, settled⟩ ends (more.special_after alone special) (ih special breaks)
  | @softBreak place later inside ends more ih =>
    obtain ⟨laterBreaks, laterStart⟩ := ih special breaks
    have nonempty : spell true later ≠ [] := fun empty => by simp [empty] at ends
    exact ⟨.cons laterBreaks fun _ => laterStart rfl nonempty, fun start => by simp [inside] at start⟩
  | @hardBreak place later lines ends more ih =>
    obtain ⟨laterBreaks, laterStart⟩ := ih special breaks
    have nonempty : spell true later ≠ [] := fun empty => by simp [empty] at ends
    exact ⟨.cons (.cons laterBreaks fun _ => laterStart rfl nonempty) (by simp),
      fun _ _ => inert_of_mark _ (by decide)⟩
  | @code place written later plain apart more ih =>
    have oneLine : ∀ c ∈ codeSpanMarkup written, c ≠ '\n' := fun c member =>
      (plain.oneLine_written c member).1
    refine ⟨?_, fun _ _ => ?_⟩
    · rw [spell, List.append_assoc]
      exact .append_oneLine oneLine (ih special breaks).breaks
    · rw [spell, List.append_assoc]
      exact plain.inert _
  | @emphasis place count content later nonempty opens closes alone within apart inner more ihInner ih =>
    have closing : ∀ c, (List.replicate count '*' ++ (spell false later ++ rest)).head? = some c →
        isPlain c = false := by
      obtain ⟨marks, rfl⟩ := Nat.exists_eq_add_one.mpr nonempty
      rintro c ⟨⟩
      rfl
    have oneLine : ∀ c ∈ List.replicate count '*', c ≠ '\n' :=
      List.forall_mem_replicate.mpr (.inr (by decide))
    exact .emphasis nonempty opens within
      (ihInner closing (.append_oneLine oneLine (ih special breaks).breaks)).breaks
  | @link place target title destination shown content later outside written address name inner more
      ihInner ih =>
    have oneLine := tailMarkup_oneLine address.oneLine name.oneLine
    rw [← written.markup] at oneLine
    refine ⟨?_, fun _ _ => ?_⟩
    · rw [spell_link, List.append_assoc]
      exact inertBreaks_bracketMarkup (fun c member => (oneLine c member).1) (ih special breaks).breaks
        fun special breaks => (ihInner special breaks).breaks
    · rw [spell_link]
      exact inert_of_mark _ (by decide)
  | @image place source title content later address name inner more ihInner ih =>
    have oneLine := tailMarkup_oneLine address.oneLine name.oneLine
    refine ⟨?_, fun _ _ => ?_⟩
    · rw [spell_image, List.append_assoc]
      exact .cons (inertBreaks_bracketMarkup (fun c member => (oneLine c member).1)
        (ih special breaks).breaks fun special breaks => (ihInner special breaks).breaks) (by simp)
    · rw [spell_image]
      exact inert_of_mark _ (by decide)

end DocComment.Markup
