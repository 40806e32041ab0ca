import Mathlib.Tactic.Push
import DocComment.Proofs.Markup.Scanning

namespace DocComment.Markup

theorem longestRunFrom_concat {c d : Char} (other : d ≠ c) (current : Nat) (text : List Char) :
    Text.longestRunFrom c current (text ++ [d]) = Text.longestRunFrom c current text := by
  induction text generalizing current with
  | nil => simp [Text.longestRunFrom, other]
  | cons e rest ih => simp only [List.cons_append, Text.longestRunFrom, ih]

theorem longestRun_of_not_mem {c : Char} {text : List Char} (bare : c ∉ text) :
    Text.longestRun c text = 0 := by
  induction text with
  | nil => rfl
  | cons d rest ih =>
    rw [List.mem_cons, not_or] at bare
    have later : Text.longestRunFrom c 0 rest = 0 := ih bare.2
    simp [Text.longestRun, Text.longestRunFrom, Ne.symm bare.1, later]

/-- A run as long as the fence, and no longer, ends a code span. -/
theorem codeSpanEnd?_fence (count current : Nat) (rest : List Char) (apart : rest.head? ≠ some '`') :
    codeSpanEnd? (current + count) current (List.replicate count '`' ++ rest) =
      some (List.replicate count '`', rest) := by
  induction count generalizing current with
  | zero =>
    cases rest with
    | nil => simp [codeSpanEnd?]
    | cons c others =>
      have other : c ≠ '`' := by simpa using apart
      simp [codeSpanEnd?, other]
  | succ count ih =>
    have more := ih (current + 1)
    rw [Nat.add_right_comm, Nat.add_assoc] at more
    simp [List.replicate_succ, codeSpanEnd?, more]

/-- No run inside the code is as long as the fence. -/
theorem codeSpanEnd?_body {count : Nat} (current : Nat) (body rest : List Char)
    (shorter : Text.longestRunFrom '`' current body < count) (start : body = [] → current = 0)
    (last : body.getLast? ≠ some '`') (apart : rest.head? ≠ some '`') :
    codeSpanEnd? count current (body ++ List.replicate count '`' ++ rest) =
      some (body ++ List.replicate count '`', rest) := by
  induction body generalizing current with
  | nil =>
    obtain rfl := start rfl
    simpa using codeSpanEnd?_fence count 0 rest apart
  | cons c others ih =>
    have lastOthers : others.getLast? ≠ some '`' := by
      cases others with
      | nil => simp
      | cons d more => simpa using last
    rw [Text.longestRunFrom] at shorter
    by_cases tick : c = '`'
    · subst tick
      have inside : others ≠ [] := by
        rintro rfl
        simp at last
      have more := ih (current + 1) (by simpa using shorter) (fun empty => absurd empty inside) lastOthers
      simp only [List.append_assoc] at more
      simp [codeSpanEnd?, more]
    · have other : (c == '`') = false := beq_false_of_ne tick
      rw [other] at shorter
      have short : current < count := Nat.lt_of_le_of_lt (Nat.le_max_left _ _) shorter
      have unequal : (current == count) = false := beq_false_of_ne (Nat.ne_of_lt short)
      have more := ih 0 (Nat.lt_of_le_of_lt (Nat.le_max_right _ _) shorter) (fun _ => rfl) lastOthers
      simp only [List.append_assoc] at more
      simp [codeSpanEnd?, other, unequal, more]

/-- What is between the fences of a code span: none of its runs of backticks is as long as a fence or
touches one. -/
structure Fenced (body : List Char) (count : Nat) : Prop where
  nonempty : body ≠ []
  first : body.head? ≠ some '`'
  last : body.getLast? ≠ some '`'
  shorter : Text.longestRun '`' body < count + 1
  oneLine : ∀ c ∈ body, c ≠ '\n' ∧ c ≠ '\r'

/-- A code span as it is written. -/
def fencedMarkup (body : List Char) (count : Nat) : List Char :=
  List.replicate (count + 1) '`' ++ body ++ List.replicate (count + 1) '`'

theorem codeSpanText_oneLine {text : List Char} (oneLine : ∀ c ∈ text, c ≠ '\n' ∧ c ≠ '\r') :
    codeSpanText text =
      if text.head? == some ' ' && text.getLast? == some ' ' && text.any (· != ' ') then
        (text.drop 1).dropLast
      else text := by
  have same : text.map (fun c => if c == '\n' then ' ' else c) = text :=
    map_writtenEnd fun c member => beq_false_of_ne (oneLine c member).1
  rw [codeSpanText, same]

theorem inlineStep_tick (definitions : List Definition) (state : InlineState)
    {text code rest : List Char}
    (found : codeSpan? (runLength '`' text + 1) (text.drop (runLength '`' text)) = some (code, rest)) :
    inlineStep definitions state '`' text =
      (state.past [.events [.code (String.ofList code)]] (some '`'), rest) := by
  simp only [inlineStep, isLineBlank, Nat.add_sub_cancel, found]
  rfl

namespace Fenced

variable {body : List Char} {count : Nat}

theorem codeSpan? (fenced : Fenced body count) (rest : List Char) (apart : rest.head? ≠ some '`') :
    codeSpan? (count + 1) (body ++ List.replicate (count + 1) '`' ++ rest) =
      some (codeSpanText body, rest) := by
  have found := codeSpanEnd?_body 0 body rest fenced.shorter (fun _ => rfl) fenced.last apart
  rw [Markup.codeSpan?, found]
  simp

/-- The opening fence is a whole run of backticks. -/
theorem run (fenced : Fenced body count) (rest : List Char) :
    (List.replicate count '`' ++ (body ++ rest)).takeWhile (· == '`') = List.replicate count '`' := by
  apply Text.takeWhile_replicate_append count
  obtain ⟨d, others, same⟩ := List.exists_cons_of_ne_nil fenced.nonempty
  have first := fenced.first
  rw [same] at first ⊢
  exact first

theorem oneLine_written (fenced : Fenced body count) :
    ∀ c ∈ fencedMarkup body count, c ≠ '\n' ∧ c ≠ '\r' := by
  have fence : ∀ c ∈ List.replicate (count + 1) '`', c ≠ '\n' ∧ c ≠ '\r' :=
    List.forall_mem_replicate.mpr (.inr (by decide))
  rw [fencedMarkup, List.forall_mem_append, List.forall_mem_append]
  exact ⟨⟨fence, fenced.oneLine⟩, fence⟩

/-- A code span is read as its text. -/
theorem reads (fenced : Fenced body count) (definitions : List Definition) (state : InlineState)
    (rest : List Char) (apart : rest.head? ≠ some '`') :
    ReadAs definitions (fencedMarkup body count) rest state
      [.events [.code (String.ofList (codeSpanText body))]] := by
  have parts : fencedMarkup body count =
      '`' :: (List.replicate count '`' ++ (body ++ List.replicate (count + 1) '`')) := by
    rw [fencedMarkup, List.replicate_succ]
    simp
  have run := fenced.run (List.replicate (count + 1) '`' ++ rest)
  have found := fenced.codeSpan? rest apart
  have length : runLength '`' (List.replicate count '`' ++ (body ++ List.replicate (count + 1) '`') ++ rest) =
      count := by
    rw [List.append_assoc, List.append_assoc, runLength, run, List.length_replicate]
  have inner : (List.replicate count '`' ++ (body ++ List.replicate (count + 1) '`') ++ rest).drop count =
      body ++ List.replicate (count + 1) '`' ++ rest := by
    rw [List.append_assoc]
    exact List.drop_left' List.length_replicate
  have read := inlineStep_tick definitions state (by rw [length, inner]; exact found)
  rw [parts]
  refine .one read ?_
  rw [List.getLast?_cons, List.getLast?_append, List.getLast?_append, List.replicate_succ',
    List.getLast?_concat]
  exact .refl _

end Fenced

/-- Code is written in padding, or as it is. Then only white space is between blanks at both ends. -/
theorem exists_fenced {code : String} (nonempty : code.toList ≠ [])
    (oneLine : ∀ c ∈ code.toList, c ≠ '\n' ∧ c ≠ '\r') :
    ∃ body, Fenced body (Text.longestRun '`' code.toList) ∧
      codeSpanMarkup code = fencedMarkup body (Text.longestRun '`' code.toList) ∧
      (codeSpanText body = code.toList ∧ (∃ c ∈ code.toList, Unicode.isWhite c = false) ∨
        body = code.toList ∧ (code.toList.head? = some ' ' → code.toList.getLast? = some ' ' →
          ∀ c ∈ code.toList, Unicode.isWhite c = true)) := by
  by_cases padded : (code.toList.head? == some '`' || code.toList.getLast? == some '`' ||
      (code.toList.head? == some ' ' && code.toList.getLast? == some ' ' &&
        !(Text.trim code.toList).isEmpty)) = true
  · have padLine : ∀ c ∈ ' ' :: code.toList ++ [' '], c ≠ '\n' ∧ c ≠ '\r' := by
      intro c member
      simp only [List.cons_append, List.mem_cons, List.mem_append, List.not_mem_nil, or_false] at member
      rcases member with rfl | own | rfl
      · decide
      · exact oneLine c own
      · decide
    have shown : ∃ c ∈ code.toList, Unicode.isWhite c = false := by
      simp only [Bool.or_eq_true, Bool.and_eq_true, beq_iff_eq, Bool.not_eq_true',
        List.isEmpty_eq_false_iff] at padded
      rcases padded with (starts | ends) | ⟨_, visible⟩
      · exact ⟨'`', List.mem_of_head? starts, by decide⟩
      · exact ⟨'`', List.mem_of_getLast? ends, by decide⟩
      · rw [ne_eq, Text.trim_eq_nil_iff] at visible
        push Not at visible
        simpa using visible
    have last : (' ' :: code.toList ++ [' ']).getLast? = some ' ' := List.getLast?_concat
    have other : ∃ c ∈ code.toList, c ≠ ' ' := by
      obtain ⟨c, member, ink⟩ := shown
      refine ⟨c, member, ?_⟩
      rintro rfl
      cases ink
    refine ⟨' ' :: code.toList ++ [' '], ⟨by simp, by simp, by rw [last]; decide, ?_, padLine⟩, ?_,
      .inl ⟨?_, shown⟩⟩
    · rw [Text.longestRun, longestRunFrom_concat (by decide)]
      simp [Text.longestRunFrom, Text.longestRun]
    · simp only [codeSpanMarkup, fencedMarkup]
      rw [if_pos padded]
      simp
    · rw [codeSpanText_oneLine padLine, last]
      simp [other]
  · simp only [Bool.or_eq_true, Bool.and_eq_true, beq_iff_eq, not_or] at padded
    obtain ⟨⟨first, last⟩, blanks⟩ := padded
    refine ⟨code.toList, ⟨nonempty, first, last, Nat.lt_succ_self _, oneLine⟩, ?_, .inr ⟨rfl, ?_⟩⟩
    · have bare : (code.toList.head? == some '`' || code.toList.getLast? == some '`' ||
          (code.toList.head? == some ' ' && code.toList.getLast? == some ' ' &&
            !(Text.trim code.toList).isEmpty)) = false := by
        simpa [first, last] using blanks
      simp only [codeSpanMarkup, fencedMarkup, bare]
      simp
    · intro starts ends
      rw [← Text.trim_eq_nil_iff]
      simpa [starts, ends] using blanks

/-- Code on one line, whose blanks at both ends are not all it shows. Reading drops a blank at both
ends if anything else is there, white space included. -/
structure PlainCode (code : String) : Prop where
  nonempty : code.toList ≠ []
  oneLine : ∀ c ∈ code.toList, c ≠ '\n' ∧ c ≠ '\r'
  blanks : code.toList.head? = some ' ' → code.toList.getLast? = some ' ' →
    (∀ c ∈ code.toList, c = ' ') ∨ ∃ c ∈ code.toList, Unicode.isWhite c = false

/-- Code in its padding. -/
structure SpanBody (code : String) (body : List Char) (count : Nat) : Prop where
  written : codeSpanMarkup code = List.replicate (count + 1) '`' ++ body ++ List.replicate (count + 1) '`'
  nonempty : body ≠ []
  first : body.head? ≠ some '`'
  last : body.getLast? ≠ some '`'
  shorter : Text.longestRun '`' body < count + 1
  oneLine : ∀ c ∈ body, c ≠ '\n' ∧ c ≠ '\r'
  text : codeSpanText body = code.toList

theorem SpanBody.fenced {code : String} {body : List Char} {count : Nat}
    (span : SpanBody code body count) : Fenced body count :=
  ⟨span.nonempty, span.first, span.last, span.shorter, span.oneLine⟩

namespace PlainCode

variable {code : String}

theorem body (plain : PlainCode code) :
    ∃ body, SpanBody code body (Text.longestRun '`' code.toList) := by
  obtain ⟨body, fenced, written, text⟩ := exists_fenced plain.nonempty plain.oneLine
  refine ⟨body, written, fenced.nonempty, fenced.first, fenced.last, fenced.shorter, fenced.oneLine, ?_⟩
  rcases text with ⟨text, _⟩ | ⟨rfl, white⟩
  · exact text
  · rw [codeSpanText_oneLine plain.oneLine, if_neg]
    simp only [Bool.and_eq_true, beq_iff_eq, List.any_eq_true, bne_iff_ne]
    rintro ⟨⟨starts, ends⟩, c, member, shown⟩
    rcases plain.blanks starts ends with all | ⟨d, inside, ink⟩
    · exact shown (all c member)
    · simp [white starts ends d inside] at ink

/-- A code span is read back as the code. -/
theorem reads (plain : PlainCode code) (definitions : List Definition) (state : InlineState)
    (rest : List Char) (apart : rest.head? ≠ some '`') :
    ReadAs definitions (codeSpanMarkup code) rest state [.events [.code code]] := by
  obtain ⟨body, span⟩ := plain.body
  have read := span.fenced.reads definitions state rest apart
  rwa [fencedMarkup, ← span.written, span.text, String.ofList_toList] at read

theorem head? (plain : PlainCode code) : (codeSpanMarkup code).head? = some '`' := by
  obtain ⟨body, span⟩ := plain.body
  rw [span.written, List.replicate_succ]
  rfl

theorem getLast? (plain : PlainCode code) : (codeSpanMarkup code).getLast? = some '`' := by
  obtain ⟨body, span⟩ := plain.body
  rw [span.written, List.getLast?_append, List.replicate_succ', List.getLast?_concat]
  rfl

theorem oneLine_written (plain : PlainCode code) :
    ∀ c ∈ codeSpanMarkup code, c ≠ '\n' ∧ c ≠ '\r' := by
  obtain ⟨body, span⟩ := plain.body
  have written := span.fenced.oneLine_written
  rwa [fencedMarkup, ← span.written] at written

end PlainCode

end DocComment.Markup
