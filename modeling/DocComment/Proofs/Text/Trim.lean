import DocComment.Text.Basic
import Mathlib.Data.List.Induction
import Mathlib.Data.List.TakeWhile

namespace DocComment.Text

variable {drop : Char → Bool}

theorem takeWhile_run {keep : Char → Bool} {run rest : List Char} (all : ∀ c ∈ run, keep c = true)
    (ends : ∀ c, rest.head? = some c → keep c = false) : (run ++ rest).takeWhile keep = run := by
  rw [List.takeWhile_append_of_pos all]
  cases rest with
  | nil => simp
  | cons c others => simp [ends c rfl]

theorem takeWhile_replicate_append {c : Char} {rest : List Char} (count : Nat)
    (stops : rest.head? ≠ some c) :
    (List.replicate count c ++ rest).takeWhile (· == c) = List.replicate count c := by
  have all : ∀ d ∈ List.replicate count c, (d == c) = true :=
    List.forall_mem_replicate.mpr (.inr (beq_self_eq_true c))
  apply takeWhile_run all
  intro d first
  apply beq_false_of_ne
  intro same
  exact stops (same ▸ first)

theorem dropWhile_run {keep : Char → Bool} {run rest : List Char} (all : ∀ c ∈ run, keep c = true)
    (ends : ∀ c, rest.head? = some c → keep c = false) : (run ++ rest).dropWhile keep = rest := by
  rw [List.dropWhile_append_of_pos all]
  cases rest with
  | nil => rfl
  | cons c others => simp [ends c rfl]

theorem dropEndWhile_eq_nil_iff (text : List Char) :
    dropEndWhile drop text = [] ↔ ∀ c ∈ text, drop c = true := by
  induction text with
  | nil => simp [dropEndWhile]
  | cons c rest ih =>
    rw [dropEndWhile]
    cases last : dropEndWhile drop rest with
    | nil =>
      have rest := ih.mp last
      by_cases first : drop c = true
      · simpa [first] using rest
      · simp [first]
    | cons d kept =>
      have rest : ¬ ∀ c ∈ rest, drop c = true := by
        rw [← ih, last]
        simp
      simp only [reduceCtorEq, List.forall_mem_cons, false_iff, not_and]
      exact fun _ => rest

theorem dropEndWhile_concat (text : List Char) (c : Char) :
    dropEndWhile drop (text ++ [c]) = if drop c then dropEndWhile drop text else text ++ [c] := by
  induction text with
  | nil => simp [dropEndWhile]
  | cons first rest ih =>
    rw [List.cons_append, dropEndWhile, ih]
    by_cases last : drop c = true
    · simp [last, dropEndWhile]
    · simp only [last, Bool.false_eq_true, if_false]
      cases rest <;> rfl

theorem dropEndWhile_append_of_all (text : List Char) {rest : List Char}
    (all : ∀ c ∈ rest, drop c = true) : dropEndWhile drop (text ++ rest) = dropEndWhile drop text := by
  induction rest using List.reverseRecOn with
  | nil => rw [List.append_nil]
  | append_singleton start c ih =>
    obtain ⟨front, last⟩ := List.forall_mem_append.mp all
    rw [← List.append_assoc, dropEndWhile_concat, if_pos (last c List.mem_cons_self), ih front]

theorem dropEndWhile_append_replicate {c : Char} (text : List Char) (count : Nat) (dropped : drop c = true) :
    dropEndWhile drop (text ++ List.replicate count c) = dropEndWhile drop text :=
  dropEndWhile_append_of_all text (List.forall_mem_replicate.mpr (.inr dropped))

/-- Nothing is dropped from before a character that is kept. -/
theorem dropEndWhile_append_cons {c : Char} (kept : drop c = false) (text rest : List Char) :
    dropEndWhile drop (text ++ c :: rest) = text ++ c :: dropEndWhile drop rest := by
  induction text with
  | nil =>
    rw [List.nil_append, List.nil_append, dropEndWhile]
    cases dropEndWhile drop rest with
    | nil => simp [kept]
    | cons => rfl
  | cons d more ih =>
    rw [List.cons_append, dropEndWhile, ih]
    cases more <;> rfl

theorem dropEndWhile_split (text : List Char) :
    ∃ gap, text = dropEndWhile drop text ++ gap ∧ ∀ c ∈ gap, drop c = true := by
  induction text using List.reverseRecOn with
  | nil => exact ⟨[], rfl, by simp⟩
  | append_singleton start c ih =>
    rw [dropEndWhile_concat]
    split
    · rename_i dropped
      obtain ⟨gap, same, all⟩ := ih
      refine ⟨gap ++ [c], ?_, List.forall_mem_append.mpr ⟨all, by simpa using dropped⟩⟩
      rw [← List.append_assoc, ← same]
    · exact ⟨[], by simp, by simp⟩

theorem dropEndWhile_starts (text : List Char) : dropEndWhile drop text <+: text := by
  obtain ⟨gap, same, -⟩ := @dropEndWhile_split drop text
  exact ⟨gap, same.symm⟩

/-- Nothing is dropped if and only if the last character is none to drop. -/
theorem dropEndWhile_eq_self_iff (text : List Char) :
    dropEndWhile drop text = text ↔ ∀ c, text.getLast? = some c → drop c = false := by
  cases text using List.reverseRecOn with
  | nil => simp [dropEndWhile]
  | append_singleton start last =>
    rw [dropEndWhile_concat]
    split
    · rename_i dropped
      refine iff_of_false (fun same => ?_) fun kept => ?_
      · have shorter := (@dropEndWhile_starts drop start).length_le
        rw [same, List.length_append] at shorter
        exact Nat.not_succ_le_self _ shorter
      · rw [kept last List.getLast?_concat] at dropped
        cases dropped
    · rename_i kept
      simpa using kept

/-- A run of `c` at the end of a text, and what is before it. -/
theorem exists_lastRun (c : Char) (text : List Char) :
    ∃ kept count, text = kept ++ List.replicate count c ∧ kept.getLast? ≠ some c := by
  induction text using List.reverseRecOn with
  | nil => exact ⟨[], 0, rfl, by simp⟩
  | append_singleton start d ih =>
    by_cases same : d = c
    · obtain ⟨kept, count, rfl, last⟩ := ih
      refine ⟨kept, count + 1, ?_, last⟩
      rw [List.replicate_succ', same, List.append_assoc]
    · exact ⟨start ++ [d], 0, by simp, by simpa using same⟩

theorem trimStart_split (text : List Char) :
    ∃ gap, text = gap ++ trimStart text ∧ ∀ c ∈ gap, Unicode.isWhite c = true :=
  ⟨text.takeWhile Unicode.isWhite, List.takeWhile_append_dropWhile.symm,
    fun c member => List.all_eq_true.mp List.all_takeWhile c member⟩

theorem trimStart_eq_nil_iff (text : List Char) :
    trimStart text = [] ↔ ∀ c ∈ text, Unicode.isWhite c = true :=
  List.dropWhile_eq_nil_iff

theorem trim_eq_nil_iff (text : List Char) :
    trim text = [] ↔ ∀ c ∈ text, Unicode.isWhite c = true := by
  rw [trim, trimEnd, dropEndWhile_eq_nil_iff]
  constructor
  · intro rest
    have empty : trimStart text = [] := by
      cases kept : trimStart text with
      | nil => rfl
      | cons c others =>
        have first := List.head?_dropWhile_not Unicode.isWhite text
        rw [show text.dropWhile Unicode.isWhite = c :: others from kept] at first
        have white := rest c (kept ▸ List.mem_cons_self)
        simp [white] at first
    exact (trimStart_eq_nil_iff text).mp empty
  · intro white c member
    exact white c ((List.dropWhile_sublist _).subset member)

theorem trimStart_append_cons {c : Char} (inked : Unicode.isWhite c = false) (text rest : List Char) :
    trimStart (text ++ c :: rest) = trimStart text ++ c :: rest := by
  induction text with
  | nil => simp [trimStart, inked]
  | cons d more ih =>
    by_cases white : Unicode.isWhite d = true
    · simpa [trimStart, white] using ih
    · simp [trimStart, white]

theorem trimEnd_append_cons {c : Char} (inked : Unicode.isWhite c = false) (text rest : List Char) :
    trimEnd (text ++ c :: rest) = text ++ c :: trimEnd rest :=
  dropEndWhile_append_cons inked text rest

/-- Trimming goes no further than a character that is not white. -/
theorem trim_append_cons {c : Char} (inked : Unicode.isWhite c = false) (text rest : List Char) :
    trim (text ++ c :: rest) = trimStart text ++ c :: trimEnd rest := by
  rw [trim, trimStart_append_cons inked, trimEnd_append_cons inked]

theorem trim_eq_self {text : List Char} (inked : ∀ c ∈ text, Unicode.isWhite c = false) :
    trim text = text := by
  have start : trimStart text = text := by
    cases text with
    | nil => rfl
    | cons c rest => simp [trimStart, inked c List.mem_cons_self]
  rw [trim, start, trimEnd, dropEndWhile_eq_self_iff]
  exact fun c last => inked c (List.mem_of_getLast? last)

/-- Whitespace around a text is trimmed with the text's own. -/
theorem trim_surrounded {before after : List Char} (first : ∀ c ∈ before, Unicode.isWhite c = true)
    (last : ∀ c ∈ after, Unicode.isWhite c = true) (text : List Char) :
    trim (before ++ text ++ after) = trim text := by
  have start : trimStart (before ++ text ++ after) = trimStart (text ++ after) := by
    rw [trimStart, List.append_assoc, List.dropWhile_append_of_pos first]
    rfl
  by_cases blank : ∀ c ∈ text, Unicode.isWhite c = true
  · rw [(trim_eq_nil_iff text).mpr blank, trim_eq_nil_iff]
    exact List.forall_mem_append.mpr ⟨List.forall_mem_append.mpr ⟨first, blank⟩, last⟩
  · have inked : ¬ (text.dropWhile Unicode.isWhite).isEmpty = true := by
      rwa [List.isEmpty_iff, List.dropWhile_eq_nil_iff]
    rw [trim, start, trimStart, List.dropWhile_append, if_neg inked]
    exact dropEndWhile_append_of_all _ last

end DocComment.Text
