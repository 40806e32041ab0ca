import DocComment.Proofs.Text.Trim
import DocComment.Proofs.Unicode.Lowercase
import DocComment.Text.Slug

/-! Slugs are normal forms: they are the texts that are slugs of themselves. Whitespace around a text does
not show in its slug, nor does what keeps its words apart. -/
namespace DocComment

namespace Unicode

/-- The code points of the ranges, one by one. -/
def Ranges.codes (ranges : Ranges) : List Nat :=
  ranges.flatMap fun range => List.range' range.1 (range.2 + 1 - range.1)

theorem Ranges.mem_codes {ranges : Ranges} {code : Nat} (inside : ranges.containsCode code = true) :
    code ∈ ranges.codes := by
  induction ranges with
  | nil => cases inside
  | cons range rest ih =>
    obtain ⟨first, last⟩ := range
    rw [codes, List.flatMap_cons, List.mem_append]
    rw [containsCode] at inside
    split at inside
    · rename_i low
      have high : first ≤ code := by simpa using inside
      refine .inl (List.mem_range'_1.mpr ⟨high, ?_⟩)
      dsimp only
      omega
    · exact .inr (ih inside)

theorem whiteSpace_breaks : ∀ code ∈ whiteSpace.codes,
    IsBreak (Char.ofNat code) ∧ isWord (Char.ofNat code) = false := by
  decide +kernel

end Unicode

namespace Text

open Unicode (isWhite isWord IsBreak IsLower)

theorem break_of_separator {c : Char} (separator : isSlugSeparator c = true) :
    IsBreak c ∧ isWord c = false := by
  rcases Bool.or_eq_true_iff.mp separator with white | hyphen
  · have settled := Unicode.whiteSpace_breaks c.toNat (Unicode.Ranges.mem_codes white)
    rwa [Char.ofNat_toNat] at settled
  · have settled : IsBreak '-' ∧ isWord '-' = false := by decide
    rwa [beq_iff_eq.mp hyphen]

theorem separator_hyphen : isSlugSeparator '-' = true := by
  decide

theorem separator_of_white {c : Char} (white : isWhite c = true) : isSlugSeparator c = true := by
  rw [isSlugSeparator, white, Bool.true_or]

theorem not_separator_of_word {c : Char} (word : isWord c = true) : isSlugSeparator c = false := by
  rw [← Bool.not_eq_true]
  intro separator
  rw [(break_of_separator separator).2] at word
  cases word

theorem not_white_of_word {c : Char} (word : isWord c = true) : isWhite c = false :=
  (Bool.or_eq_false_iff.mp (not_separator_of_word word)).1

/-- The lowercase text without its punctuation. -/
def slugParts (text : List Char) : List Char :=
  (Unicode.lower text).filter fun c => isWord c || isSlugSeparator c

theorem slugChars_eq (text : List Char) :
    slugChars text = joinSeparators false (trim (slugParts text)) :=
  rfl

section Gap

variable {gap : List Char} (separators : ∀ c ∈ gap, isSlugSeparator c = true)
include separators

theorem breaks_of_separators : ∀ c ∈ gap, IsBreak c :=
  fun c member => (break_of_separator (separators c member)).1

theorem filter_gap : gap.filter (fun c => isWord c || isSlugSeparator c) = gap :=
  List.filter_eq_self.mpr fun c member => by rw [separators c member, Bool.or_true]

theorem filter_isWord_gap : gap.filter isWord = [] :=
  List.filter_eq_nil_iff.mpr fun c member => by simp [(break_of_separator (separators c member)).2]

theorem slugParts_gap (nonempty : gap ≠ []) (start rest : List Char) :
    slugParts (start ++ gap ++ rest) = slugParts start ++ gap ++ slugParts rest := by
  rw [slugParts, Unicode.lower_gap (breaks_of_separators separators) nonempty, List.filter_append,
    List.filter_append, filter_gap separators]
  rfl

theorem slugParts_after_gap (rest : List Char) : slugParts (gap ++ rest) = gap ++ slugParts rest := by
  rw [slugParts, Unicode.lower_breaks (breaks_of_separators separators), List.filter_append,
    filter_gap separators]
  rfl

theorem slugParts_before_gap (start : List Char) : slugParts (start ++ gap) = slugParts start ++ gap := by
  rw [slugParts, Unicode.lower_append_breaks (breaks_of_separators separators), List.filter_append,
    filter_gap separators]
  rfl

theorem joinSeparators_pending (rest : List Char) :
    joinSeparators true (gap ++ rest) = joinSeparators true rest := by
  induction gap with
  | nil => rfl
  | cons c more ih =>
    obtain ⟨own, later⟩ := List.forall_mem_cons.mp separators
    simpa [joinSeparators, own] using ih later

theorem joinSeparators_gap (nonempty : gap ≠ []) (rest : List Char) :
    joinSeparators false (gap ++ rest) = '-' :: joinSeparators true rest := by
  obtain ⟨c, more, rfl⟩ := List.exists_cons_of_ne_nil nonempty
  obtain ⟨own, later⟩ := List.forall_mem_cons.mp separators
  simp [joinSeparators, own, joinSeparators_pending later]

end Gap

/-- After a character that is no separator the joining starts afresh. -/
theorem joinSeparators_append_cons {c : Char} (kept : isSlugSeparator c = false) (pending : Bool)
    (text rest : List Char) :
    joinSeparators pending (text ++ c :: rest) =
      joinSeparators pending (text ++ [c]) ++ joinSeparators false rest := by
  induction text generalizing pending with
  | nil => simp [joinSeparators, kept]
  | cons d more ih =>
    simp only [List.cons_append, joinSeparators, ih]
    split
    · split <;> rfl
    · rfl

/-- Word characters and hyphens that lowercasing leaves as they are, no two hyphens in a row. -/
structure IsSlug (text : List Char) : Prop where
  characters : ∀ c ∈ text, isWord c = true ∨ c = '-'
  apart : ¬ ['-', '-'] <:+: text
  lowercase : Unicode.lower text = text

theorem mem_joinSeparators {pending : Bool} {text : List Char} {c : Char}
    (member : c ∈ joinSeparators pending text) : c = '-' ∨ c ∈ text ∧ isSlugSeparator c = false := by
  induction text generalizing pending with
  | nil => cases member
  | cons d rest ih =>
    have later {pending : Bool} (member : c ∈ joinSeparators pending rest) :
        c = '-' ∨ c ∈ d :: rest ∧ isSlugSeparator c = false :=
      (ih member).imp_right fun found => ⟨List.mem_cons_of_mem d found.1, found.2⟩
    rw [joinSeparators] at member
    split at member
    · split at member
      · exact later member
      · exact (List.mem_cons.mp member).elim .inl later
    · rename_i kept
      refine (List.mem_cons.mp member).elim (fun same => .inr ?_) later
      exact ⟨same ▸ List.mem_cons_self, by simpa [same] using kept⟩

theorem head_joinSeparators (text : List Char) : (joinSeparators true text).head? ≠ some '-' := by
  induction text with
  | nil => simp [joinSeparators]
  | cons c rest ih =>
    rw [joinSeparators]
    split
    · exact ih
    · rename_i kept
      intro same
      obtain rfl := Option.some.inj same
      exact kept separator_hyphen

theorem hyphens_cons (c : Char) (text : List Char) :
    ['-', '-'] <:+: c :: text ↔ c = '-' ∧ text.head? = some '-' ∨ ['-', '-'] <:+: text := by
  have second : ['-'] <+: text ↔ text.head? = some '-' := by
    cases text with
    | nil => simp
    | cons d rest => simpa [List.cons_prefix_cons] using eq_comm
  rw [List.infix_cons_iff, List.cons_prefix_cons, second, eq_comm]

theorem joinSeparators_apart (pending : Bool) (text : List Char) :
    ¬ ['-', '-'] <:+: joinSeparators pending text := by
  induction text generalizing pending with
  | nil => simp [joinSeparators]
  | cons c rest ih =>
    rw [joinSeparators]
    split
    · split
      · exact ih true
      · rw [hyphens_cons]
        rintro (⟨-, again⟩ | later)
        · exact head_joinSeparators rest again
        · exact ih true later
    · rename_i kept
      rw [hyphens_cons]
      rintro (⟨rfl, -⟩ | later)
      · exact kept separator_hyphen
      · exact ih false later

theorem mem_slugParts {text : List Char} {c : Char} (member : c ∈ slugParts text) :
    IsLower c ∧ (isWord c = true ∨ isSlugSeparator c = true) := by
  obtain ⟨lowered, kept⟩ := List.mem_filter.mp member
  exact ⟨Unicode.isLower_of_mem_lowerFrom lowered, Bool.or_eq_true_iff.mp kept⟩

theorem mem_slugChars {text : List Char} {c : Char} (member : c ∈ slugChars text) :
    IsLower c ∧ (isWord c = true ∨ c = '-') := by
  rcases mem_joinSeparators member with rfl | ⟨trimmed, kept⟩
  · exact ⟨(break_of_separator separator_hyphen).1.lower, .inr rfl⟩
  · have inside : c ∈ trimStart (slugParts text) := (dropEndWhile_starts _).subset trimmed
    obtain ⟨lowered, word | separator⟩ := mem_slugParts ((List.dropWhile_sublist _).subset inside)
    · exact ⟨lowered, .inl word⟩
    · rw [kept] at separator
      cases separator

/-- What goes into a slug is lowercase before it is joined, so that nothing in the slug has case left. -/
theorem isSlug_slugChars (text : List Char) : IsSlug (slugChars text) where
  characters _ member := (mem_slugChars member).2
  apart := joinSeparators_apart false _
  lowercase := Unicode.lower_eq_self fun _ member => (mem_slugChars member).1

theorem joinSeparators_eq_self {text : List Char} (characters : ∀ c ∈ text, isWord c = true ∨ c = '-')
    (apart : ¬ ['-', '-'] <:+: text) {pending : Bool}
    (starts : pending = true → text.head? ≠ some '-') : joinSeparators pending text = text := by
  induction text generalizing pending with
  | nil => rfl
  | cons c rest ih =>
    obtain ⟨own, later⟩ := List.forall_mem_cons.mp characters
    rw [hyphens_cons, not_or, not_and] at apart
    rcases own with word | rfl
    · rw [joinSeparators, if_neg (by simp [not_separator_of_word word]), ih later apart.2 (by simp)]
    · have fresh : ¬ pending = true := fun pending => starts pending rfl
      rw [joinSeparators, if_pos separator_hyphen, if_neg fresh, ih later apart.2 fun _ => apart.1 rfl]

theorem IsSlug.slugChars_eq_self {text : List Char} (slug : IsSlug text) : slugChars text = text := by
  have parts : slugParts text = text := by
    rw [slugParts, slug.lowercase, List.filter_eq_self]
    intro c member
    rcases slug.characters c member with word | rfl
    · rw [word, Bool.true_or]
    · rw [separator_hyphen, Bool.or_true]
  have inked : ∀ c ∈ text, isWhite c = false := by
    intro c member
    rcases slug.characters c member with word | rfl
    · exact not_white_of_word word
    · decide
  rw [slugChars_eq, parts, trim_eq_self inked]
  exact joinSeparators_eq_self slug.characters slug.apart (by simp)

theorem slugChars_eq_self_iff {text : List Char} : slugChars text = text ↔ IsSlug text :=
  ⟨fun same => same ▸ isSlug_slugChars text, IsSlug.slugChars_eq_self⟩

theorem filter_isWord_joinSeparators (pending : Bool) (text : List Char) :
    (joinSeparators pending text).filter isWord = text.filter isWord := by
  induction text generalizing pending with
  | nil => rfl
  | cons c rest ih =>
    rw [joinSeparators]
    split
    · rename_i separator
      have spaced := (break_of_separator separator).2
      have hyphen := (break_of_separator separator_hyphen).2
      split <;> simp [spaced, hyphen, ih]
    · simp [List.filter_cons, ih]

theorem filter_isWord_trim (text : List Char) : (trim text).filter isWord = text.filter isWord := by
  obtain ⟨before, same, first⟩ := trimStart_split text
  obtain ⟨after, same', last⟩ := @dropEndWhile_split isWhite (trimStart text)
  have front := filter_isWord_gap fun c member => separator_of_white (first c member)
  have back := filter_isWord_gap fun c member => separator_of_white (last c member)
  calc (trim text).filter isWord
      = (trimEnd (trimStart text) ++ after).filter isWord := by
        rw [List.filter_append, back, List.append_nil]
        rfl
    _ = (before ++ trimStart text).filter isWord := by
        rw [trimEnd, ← same', List.filter_append, front, List.nil_append]
    _ = text.filter isWord := by rw [← same]

/-- A slug has the word characters of the lowercase text. -/
theorem filter_isWord_slugChars (text : List Char) :
    (slugChars text).filter isWord = (Unicode.lower text).filter isWord := by
  rw [slugChars_eq, filter_isWord_joinSeparators, filter_isWord_trim, slugParts, List.filter_filter]
  refine List.filter_congr fun c _ => ?_
  cases isWord c <;> rfl

theorem slugChars_surrounded {before after : List Char} (first : ∀ c ∈ before, isWhite c = true)
    (last : ∀ c ∈ after, isWhite c = true) (text : List Char) :
    slugChars (before ++ text ++ after) = slugChars text := by
  have front := fun c member => separator_of_white (first c member)
  have back := fun c member => separator_of_white (last c member)
  rw [slugChars_eq, slugParts_before_gap back, slugParts_after_gap front, trim_surrounded first last]
  rfl

/-- A letter, a digit or a low line. -/
def isAsciiWord (c : Char) : Bool :=
  c.toNat < 128 && isWord c

theorem asciiWord_lower {c : Char} (word : isAsciiWord c = true) :
    Unicode.lowerChar c = [c.toLower] ∧ isWord c.toLower = true ∧ c.toNat ≠ 931 := by
  have all : ∀ code < 128, isWord (Char.ofNat code) = true →
      Unicode.lowerChar (Char.ofNat code) = [(Char.ofNat code).toLower] ∧
        isWord (Char.ofNat code).toLower = true := by
    decide
  obtain ⟨ascii, word⟩ := Bool.and_eq_true_iff.mp word
  have ascii : c.toNat < 128 := of_decide_eq_true ascii
  have lowered := all c.toNat ascii
  rw [Char.ofNat_toNat] at lowered
  exact ⟨(lowered word).1, (lowered word).2, by omega⟩

theorem slugParts_concat {c : Char} (word : isAsciiWord c = true) (start : List Char) :
    ∃ front, slugParts (start ++ [c]) = front ++ [c.toLower] := by
  obtain ⟨lowered, kept, other⟩ := asciiWord_lower word
  obtain ⟨front, same⟩ := Unicode.lowerFrom_concat other [] start
  rw [slugParts, Unicode.lower, same, lowered]
  simp [kept]

theorem slugParts_cons {c : Char} (word : isAsciiWord c = true) (rest : List Char) :
    ∃ back, slugParts (c :: rest) = c.toLower :: back := by
  obtain ⟨lowered, kept, other⟩ := asciiWord_lower word
  rw [slugParts, Unicode.lower, Unicode.lowerFrom, if_neg (by simpa using other), lowered]
  simp [kept]

/-- A gap between two words becomes one hyphen, and each side the slug that it has alone. -/
theorem slugChars_gap {c d : Char} (left : isAsciiWord c = true) (right : isAsciiWord d = true)
    {gap : List Char} (separators : ∀ c ∈ gap, isSlugSeparator c = true) (nonempty : gap ≠ [])
    (start rest : List Char) :
    slugChars (start ++ [c] ++ gap ++ d :: rest) =
      slugChars (start ++ [c]) ++ '-' :: slugChars (d :: rest) := by
  obtain ⟨front, parts⟩ := slugParts_concat left start
  obtain ⟨back, parts'⟩ := slugParts_cons right rest
  have word := (asciiWord_lower left).2.1
  have word' := (asciiWord_lower right).2.1
  -- The word after the gap is read alike whether or not a hyphen was just written.
  have fresh (rest : List Char) :
      joinSeparators true (d.toLower :: rest) = joinSeparators false (d.toLower :: rest) := by
    simp [joinSeparators, not_separator_of_word word']
  have alone : trim (front ++ [c.toLower]) = trimStart front ++ [c.toLower] :=
    trim_append_cons (not_white_of_word word) front []
  have alone' : trim (d.toLower :: back) = d.toLower :: trimEnd back :=
    trim_append_cons (not_white_of_word word') [] back
  have both : trim (front ++ [c.toLower] ++ gap ++ d.toLower :: back) =
      trimStart front ++ c.toLower :: (gap ++ d.toLower :: trimEnd back) := by
    rw [List.append_assoc, List.append_assoc, List.singleton_append,
      trim_append_cons (not_white_of_word word), trimEnd_append_cons (not_white_of_word word')]
  rw [slugChars_eq, slugParts_gap separators nonempty, parts, parts', both,
    joinSeparators_append_cons (not_separator_of_word word), joinSeparators_gap separators nonempty,
    fresh, ← alone, ← alone', slugChars_eq, slugChars_eq, parts, parts']

theorem toList_slug (text : String) : (slug text).toList = slugChars text.toList :=
  String.toList_ofList

theorem slug_eq_self_iff {text : String} : slug text = text ↔ IsSlug text.toList := by
  rw [← String.toList_inj, toList_slug, slugChars_eq_self_iff]

theorem isSlug_slug (text : String) : IsSlug (slug text).toList :=
  toList_slug text ▸ isSlug_slugChars text.toList

theorem slug_spaced (text : List Char) (count : Nat) :
    slug (String.ofList (text ++ List.replicate count ' ')) = slug (String.ofList text) := by
  have spaces : ∀ c ∈ List.replicate count ' ', isWhite c = true :=
    List.forall_mem_replicate.mpr (.inr (by decide))
  have same : slugChars ([] ++ text ++ List.replicate count ' ') = slugChars text :=
    slugChars_surrounded (by simp) spaces text
  rw [slug, slug, String.toList_ofList, String.toList_ofList, ← same, List.nil_append]

def endsInWord (text : String) : Bool :=
  text.toList.getLast?.any isAsciiWord

def startsWithWord (text : String) : Bool :=
  text.toList.head?.any isAsciiWord

/-- Whitespace and hyphens that keep two words apart. -/
structure IsGap (gap : String) : Prop where
  nonempty : gap ≠ ""
  separators : ∀ c ∈ gap.toList, isSlugSeparator c = true

theorem slug_gap {start gap finish : String} (left : endsInWord start = true)
    (right : startsWithWord finish = true) (between : IsGap gap) :
    slug (start ++ gap ++ finish) = slug start ++ "-" ++ slug finish := by
  obtain ⟨c, last, left⟩ := (Option.any_eq_true _ _).mp left
  obtain ⟨d, first, right⟩ := (Option.any_eq_true _ _).mp right
  obtain ⟨front, same⟩ := List.getLast?_eq_some_iff.mp last
  obtain ⟨back, same'⟩ := List.head?_eq_some_iff.mp first
  have nonempty : gap.toList ≠ [] := by simpa using between.nonempty
  have cut := slugChars_gap left right between.separators nonempty front back
  rw [← same, ← same'] at cut
  rw [← String.toList_inj]
  simpa [toList_slug] using cut

/-- Slugs are normal forms: the slug of a text is a slug, and the slugs are the texts that stay as they
are. A slug has the word characters of the lowercase text. Neither whitespace around the text nor what
keeps two words apart shows in it. -/
theorem slug_normal_form (text : String) :
    IsSlug (slug text).toList ∧ slug (slug text) = slug text ∧
    (slug text = text ↔ IsSlug text.toList) ∧
    (slug text).toList.filter isWord = (Unicode.lower text.toList).filter isWord ∧
    (∀ before after : String, (∀ c ∈ before.toList, isWhite c = true) →
      (∀ c ∈ after.toList, isWhite c = true) → slug (before ++ text ++ after) = slug text) ∧
    ∀ start gap other finish : String, text = start ++ gap ++ finish →
      endsInWord start = true → startsWithWord finish = true → IsGap gap → IsGap other →
      slug text = slug start ++ "-" ++ slug finish ∧ slug (start ++ other ++ finish) = slug text := by
  refine ⟨isSlug_slug text, slug_eq_self_iff.mpr (isSlug_slug text), slug_eq_self_iff, ?_, ?_, ?_⟩
  · rw [toList_slug, filter_isWord_slugChars]
  · intro before after first last
    have same := slugChars_surrounded first last text.toList
    rw [slug, String.toList_append, String.toList_append, same, slug]
  · rintro start gap other finish rfl left right between between'
    have parted := slug_gap left right between
    exact ⟨parted, (slug_gap left right between').trans parted.symm⟩

theorem slug_normal_form_sigmas :
    let text := "ΣΑΣ İ_ \t--\u3000B2 (ΣΣ)"
    slug text = "σας-i\u0307_-b2-σς" ∧ slug (slug text) = slug text ∧
    (∀ c ∈ "\u2028\n".toList, isWhite c = true) ∧ (∀ c ∈ "\u00a0".toList, isWhite c = true) ∧
    slug ("\u2028\n" ++ text ++ "\u00a0") = slug text ∧
    text = "ΣΑΣ İ_" ++ " \t--\u3000" ++ "B2 (ΣΣ)" ∧
    endsInWord "ΣΑΣ İ_" = true ∧ startsWithWord "B2 (ΣΣ)" = true ∧
    IsGap " \t--\u3000" ∧ IsGap "-" ∧
    slug ("ΣΑΣ İ_" ++ "-" ++ "B2 (ΣΣ)") = slug text := by
  intro text
  obtain ⟨-, again, -, -, around, between⟩ := slug_normal_form text
  have before : ∀ c ∈ "\u2028\n".toList, isWhite c = true :=
    List.all_eq_true.mp (by decide)
  have after : ∀ c ∈ "\u00a0".toList, isWhite c = true := List.all_eq_true.mp (by decide)
  have parted : text = "ΣΑΣ İ_" ++ " \t--\u3000" ++ "B2 (ΣΣ)" := by decide
  have left : endsInWord "ΣΑΣ İ_" = true := by decide +kernel
  have right : startsWithWord "B2 (ΣΣ)" = true := by decide
  have gap : IsGap " \t--\u3000" := ⟨by decide, List.all_eq_true.mp (by decide +kernel)⟩
  have hyphen : IsGap "-" := ⟨by decide, List.all_eq_true.mp (by decide)⟩
  exact ⟨by decide +kernel, again, before, after, around _ _ before after, parted, left, right, gap, hyphen,
    (between _ _ _ _ parted left right gap hyphen).2⟩

end Text

end DocComment
