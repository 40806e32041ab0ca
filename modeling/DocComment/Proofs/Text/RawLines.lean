import Mathlib.Data.List.Basic
import DocComment.Text.Basic

namespace DocComment.Text

section

variable {divides : Char → Bool}

theorem splitBy_ne_nil (divides : Char → Bool) (text : List Char) : splitBy divides text ≠ [] := by
  cases text with
  | nil => simp [splitBy]
  | cons c rest =>
    rw [splitBy]
    split
    case isTrue => exact List.cons_ne_nil _ _
    case isFalse => split <;> exact List.cons_ne_nil _ _

/-- A character that does not separate belongs to the first piece. -/
theorem splitBy_cons {c : Char} {rest piece : List Char} {pieces : List (List Char)}
    (inside : divides c = false) (split : splitBy divides rest = piece :: pieces) :
    splitBy divides (c :: rest) = (c :: piece) :: pieces := by
  rw [splitBy, inside, split]
  rfl

theorem splitBy_append {separator : Char} (separates : divides separator = true) (text rest : List Char) :
    splitBy divides (text ++ separator :: rest) = splitBy divides text ++ splitBy divides rest := by
  induction text with
  | nil => simp [splitBy, separates]
  | cons c others ih =>
    rw [List.cons_append]
    cases first : divides c with
    | true => simp [splitBy, first, ih]
    | false =>
      obtain ⟨piece, pieces, split⟩ := List.exists_cons_of_ne_nil (splitBy_ne_nil divides others)
      have whole : splitBy divides (others ++ separator :: rest) =
          piece :: (pieces ++ splitBy divides rest) := by
        rw [ih, split, List.cons_append]
      rw [splitBy_cons first split, splitBy_cons first whole, List.cons_append]

theorem splitBy_single {text : List Char} (whole : ∀ c ∈ text, divides c = false) :
    splitBy divides text = [text] := by
  induction text with
  | nil => rfl
  | cons c rest ih =>
    obtain ⟨first, later⟩ := List.forall_mem_cons.mp whole
    exact splitBy_cons first (ih later)

/-- The first piece starts the text, and the others are further on in it. -/
theorem mem_splitBy {text piece : List Char} (member : piece ∈ splitBy divides text) :
    piece <:+: text ∧ ∀ c ∈ piece, divides c = false := by
  have all : ∀ text : List Char, ∃ first others, splitBy divides text = first :: others ∧
      first <+: text ∧ (∀ c ∈ first, divides c = false) ∧
        ∀ piece ∈ others, piece <:+: text ∧ ∀ c ∈ piece, divides c = false := by
    intro text
    induction text with
    | nil => exact ⟨[], [], rfl, List.prefix_rfl, by simp, by simp⟩
    | cons c rest ih =>
      obtain ⟨first, others, split, start, inside, later⟩ := ih
      have further : ∀ piece ∈ others, piece <:+: c :: rest ∧ ∀ c ∈ piece, divides c = false :=
        fun piece member => ⟨(later piece member).1.trans (List.suffix_cons c rest).isInfix,
          (later piece member).2⟩
      cases separates : divides c with
      | true =>
        refine ⟨[], first :: others, by rw [splitBy, separates, split]; rfl, List.nil_prefix, by simp, ?_⟩
        exact List.forall_mem_cons.mpr
          ⟨⟨start.isInfix.trans (List.suffix_cons c rest).isInfix, inside⟩, further⟩
      | false =>
        exact ⟨c :: first, others, splitBy_cons separates split, List.cons_prefix_cons.mpr ⟨rfl, start⟩,
          List.forall_mem_cons.mpr ⟨separates, inside⟩, further⟩
  obtain ⟨first, others, split, start, inside, later⟩ := all text
  rw [split] at member
  rcases List.mem_cons.mp member with rfl | more
  · exact ⟨start.isInfix, inside⟩
  · exact later piece more

/-- The last piece is empty only after a separator. -/
theorem splitBy_last {c : Char} (inside : divides c = false) (before : List Char) :
    (splitBy divides (before ++ [c])).getLast? ≠ some [] := by
  induction before with
  | nil => simp [splitBy, inside]
  | cons d others ih =>
    obtain ⟨piece, pieces, split⟩ := List.exists_cons_of_ne_nil (splitBy_ne_nil divides (others ++ [c]))
    rw [split] at ih
    rw [List.cons_append]
    cases first : divides d with
    | true => simpa [splitBy, first, split] using ih
    | false =>
      rw [splitBy_cons first split]
      cases pieces with
      | nil => simp
      | cons => simpa using ih

end

theorem rawLines_eq (text : List Char) :
    rawLines text = if (splitBy (· == '\n') text).getLast? == some [] then
      (splitBy (· == '\n') text).dropLast else splitBy (· == '\n') text := by
  unfold rawLines
  split
  case h_1 empty => exact absurd empty (splitBy_ne_nil _ text)
  case h_2 => rfl

theorem mem_rawLines {text line : List Char} (member : line ∈ rawLines text) :
    line <:+: text ∧ '\n' ∉ line := by
  have piece : line ∈ splitBy (· == '\n') text := by
    rw [rawLines_eq] at member
    split at member
    · exact List.dropLast_subset _ member
    · exact member
  obtain ⟨inside, whole⟩ := mem_splitBy piece
  exact ⟨inside, fun lineEnd => by simpa using whole _ lineEnd⟩

theorem splitBy_oneLine {line : List Char} (oneLine : '\n' ∉ line) : splitBy (· == '\n') line = [line] :=
  splitBy_single fun _ member => beq_false_of_ne fun same => oneLine (same ▸ member)

theorem splitBy_line {line : List Char} (oneLine : '\n' ∉ line) (rest : List Char) :
    splitBy (· == '\n') (line ++ '\n' :: rest) = line :: splitBy (· == '\n') rest := by
  rw [splitBy_append rfl, splitBy_oneLine oneLine, List.singleton_append]

theorem rawLines_single {line : List Char} (nonempty : line ≠ []) (oneLine : '\n' ∉ line) :
    rawLines line = [line] := by
  rw [rawLines_eq, splitBy_oneLine oneLine]
  simp [nonempty]

/-- What is before a line feed is on lines of its own. -/
theorem rawLines_append (text rest : List Char) :
    rawLines (text ++ '\n' :: rest) = splitBy (· == '\n') text ++ rawLines rest := by
  obtain ⟨start, piece, split⟩ :=
    (List.eq_nil_or_concat' _).resolve_left (splitBy_ne_nil (· == '\n') rest)
  rw [rawLines_eq, rawLines_eq, splitBy_append rfl, split, ← List.append_assoc, List.getLast?_concat,
    List.getLast?_concat, List.dropLast_concat, List.dropLast_concat]
  split
  · rfl
  · exact List.append_assoc ..

theorem rawLines_cons {line : List Char} (oneLine : '\n' ∉ line) (rest : List Char) :
    rawLines (line ++ '\n' :: rest) = line :: rawLines rest := by
  rw [rawLines_append, splitBy_oneLine oneLine, List.singleton_append]

/-- Lines of text and one more line, which starts a new line if the text does not end with one. -/
theorem rawLines_concat (text : List Char) {last : List Char} (nonempty : last ≠ []) (oneLine : '\n' ∉ last) :
    rawLines (text ++ (if text.isEmpty || text.getLast? == some '\n' then [] else ['\n']) ++ last) =
      rawLines text ++ [last] := by
  rcases List.eq_nil_or_concat' text with rfl | ⟨before, c, rfl⟩
  · exact rawLines_single nonempty oneLine
  · by_cases lineEnd : c = '\n'
    · subst lineEnd
      have own : rawLines (before ++ ['\n']) = splitBy (· == '\n') before := by
        rw [rawLines_append, List.append_right_eq_self]
        rfl
      have added : before ++ ['\n'] ++ (if (before ++ ['\n']).isEmpty ||
          (before ++ ['\n']).getLast? == some '\n' then [] else ['\n']) ++ last = before ++ '\n' :: last := by
        simp
      rw [own, added, rawLines_append, rawLines_single nonempty oneLine]
    · have ends : (splitBy (· == '\n') (before ++ [c])).getLast? ≠ some [] :=
        @splitBy_last (· == '\n') c (beq_false_of_ne lineEnd) before
      have own : rawLines (before ++ [c]) = splitBy (· == '\n') (before ++ [c]) := by
        rw [rawLines_eq, if_neg (by simpa using ends)]
      have added : before ++ [c] ++ (if (before ++ [c]).isEmpty ||
          (before ++ [c]).getLast? == some '\n' then [] else ['\n']) ++ last =
            before ++ [c] ++ '\n' :: last := by
        simp [lineEnd]
      rw [own, added, rawLines_append, rawLines_single nonempty oneLine]

end DocComment.Text
