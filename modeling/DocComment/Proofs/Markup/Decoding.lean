import DocComment.Markup.CharacterReference
import DocComment.Markup.Link
import DocComment.Markup.Write
import DocComment.Proofs.Text.RawLines
import DocComment.Proofs.Text.Trim

/-! How far a character reference reaches and how much it stands for, and what is left of escaped text when
it is unescaped: the text, with the character references that it held replaced. -/
namespace DocComment.Markup

set_option maxRecDepth 4000 in
/-- Every name in the table stands for at most two characters. -/
theorem referenceTable_short : ∀ row ∈ referenceTable, ∃ chars, row = String.ofList chars ∧
    ((Text.splitBy (· == ';') chars).filterMap tableEntry?).all (fun entry =>
      !entry.1.isEmpty && entry.2.length ≤ 2) = true := by
  unfold referenceTable
  -- One row at a time: as a whole the table is too much to evaluate.
  repeat refine List.forall_mem_cons.mpr ⟨⟨_, rfl, by decide +kernel⟩, ?_⟩
  exact List.forall_mem_nil _

theorem namedReferences_short {name chars : List Char}
    (found : namedReferences.lookup name = some chars) :
    chars ≠ [] ∧ chars.length ≤ name.length + 1 := by
  obtain ⟨before, after, same, _⟩ := List.lookup_eq_some_iff.mp found
  have member : (name, chars) ∈ namedReferences := by
    rw [same]
    exact List.mem_append_right before List.mem_cons_self
  rw [namedReferences, List.mem_filterMap] at member
  obtain ⟨entry, inTable, read⟩ := member
  obtain ⟨row, inRows, inRow⟩ := List.mem_flatMap.mp inTable
  obtain ⟨written, rfl, short⟩ := referenceTable_short row inRows
  rw [String.toList_ofList] at inRow
  have bounds := List.all_eq_true.mp short (name, chars) (List.mem_filterMap.mpr ⟨entry, inRow, read⟩)
  simp only [Bool.and_eq_true, Bool.not_eq_true', List.isEmpty_eq_false_iff, decide_eq_true_eq] at bounds
  have named := List.length_pos_iff.mpr bounds.1
  refine ⟨?_, by omega⟩
  unfold tableEntry? at read
  rw [Option.map_eq_some_iff] at read
  obtain ⟨⟨_, codes⟩, _, pair⟩ := read
  obtain rfl := (Prod.ext_iff.mp pair).2
  exact mt List.map_eq_nil_iff.mp (Text.splitBy_ne_nil _ codes)

/-- The characters between the ampersand and the semicolon of a reference. -/
def isReferenceChar (c : Char) : Bool :=
  c.isAlphanum || c == '#'

/-- The body of a reference stands for these characters, whatever comes after the semicolon. -/
structure Reference (body chars : List Char) : Prop where
  known : ∀ c ∈ body, isReferenceChar c = true
  read : ∀ after, characterReference? (body ++ ';' :: after) = some (chars, after)
  nonempty : chars ≠ []
  short : chars.length ≤ body.length + 1

/-- A run before a semicolon is the same before any other text. -/
theorem run_before_semicolon {keep : Char → Bool} (stops : keep ';' = false) (bound : Nat)
    {text run after : List Char} (taken : (text.takeWhile keep).take bound = run)
    (ends : text.drop run.length = ';' :: after) :
    text = run ++ ';' :: after ∧ (∀ c ∈ run, keep c = true) ∧
      ∀ other, ((run ++ ';' :: other).takeWhile keep).take bound = run := by
  have start : run <+: text := taken ▸ (List.take_prefix bound _).trans (List.takeWhile_prefix keep)
  have all : ∀ c ∈ run, keep c = true := fun c member =>
    List.mem_takeWhile_imp (List.mem_of_mem_take (taken ▸ member))
  have size : run.length ≤ bound := taken ▸ List.length_take_le bound _
  obtain ⟨rest, rfl⟩ := start
  rw [List.drop_left] at ends
  refine ⟨by rw [ends], all, fun other => ?_⟩
  have again : (run ++ ';' :: other).takeWhile keep = run := by
    apply Text.takeWhile_run all
    rintro c ⟨⟩
    exact stops
  rw [again, List.take_of_length_le size]

theorem numberEnd?_eq_some {digits rest chars after : List Char} {value : Nat}
    (read : numberEnd? digits value rest = some (chars, after)) :
    rest = ';' :: after ∧ digits ≠ [] ∧ chars.length = 1 ∧
      ∀ other, numberEnd? digits value (';' :: other) = some (chars, other) := by
  unfold numberEnd? at read
  split at read
  case h_2 => cases read
  case h_1 left =>
    split at read
    case isTrue => cases read
    case isFalse digit =>
      obtain ⟨c, valid, pair⟩ := Option.map_eq_some_iff.mp read
      obtain ⟨rfl, rfl⟩ := Prod.ext_iff.mp pair
      exact ⟨rfl, mt List.isEmpty_iff.mpr digit, rfl, fun other => by simp [numberEnd?, digit, valid]⟩

theorem isAlphanum_of_hexDigit {c : Char} (digit : (Text.hexDigit? c).isSome = true) :
    c.isAlphanum = true := by
  unfold Text.hexDigit? at digit
  unfold Char.isAlphanum Char.isAlpha Char.isUpper Char.isLower
  simp only [Bool.or_eq_true]
  split at digit
  case isTrue decimal => exact .inr decimal
  split at digit
  case isTrue lower =>
    simp only [Bool.and_eq_true, decide_eq_true_eq] at lower ⊢
    exact .inl (.inr ⟨lower.1, Char.le_trans lower.2 (by decide)⟩)
  split at digit
  case isTrue upper =>
    simp only [Bool.and_eq_true, decide_eq_true_eq] at upper ⊢
    exact .inl (.inl ⟨upper.1, Char.le_trans upper.2 (by decide)⟩)
  case isFalse => cases digit

theorem isReferenceChar_of_isAlphanum {c : Char} (letter : c.isAlphanum = true) :
    isReferenceChar c = true := by
  rw [isReferenceChar, letter, Bool.true_or]

variable {rest digits chars after : List Char} {value : Nat}

theorem Reference.of_hex {x : Char} (hex : (x == 'x' || x == 'X') = true)
    (run : (rest.takeWhile fun c => (Text.hexDigit? c).isSome).take 6 = digits)
    (read : numberEnd? digits (digits.foldl (fun n c => 16 * n + (Text.hexDigit? c).getD 0) 0)
      (rest.drop digits.length) = some (chars, after)) :
    Reference ('#' :: x :: digits) chars ∧ rest = digits ++ ';' :: after := by
  obtain ⟨ends, _, single, same⟩ := numberEnd?_eq_some read
  obtain ⟨rfl, all, again⟩ := run_before_semicolon rfl 6 run ends
  refine ⟨⟨?_, fun other => ?_, ?_, by omega⟩, rfl⟩
  · have sign : isReferenceChar x = true := by
      simp only [Bool.or_eq_true, beq_iff_eq] at hex
      rcases hex with rfl | rfl <;> rfl
    refine List.forall_mem_cons.mpr ⟨rfl, List.forall_mem_cons.mpr ⟨sign, fun c member => ?_⟩⟩
    exact isReferenceChar_of_isAlphanum (isAlphanum_of_hexDigit (all c member))
  · simp only [List.cons_append, characterReference?, hex, if_true, again, List.drop_left]
    exact same other
  · exact List.ne_nil_of_length_pos (by omega)

theorem Reference.of_decimal (run : (rest.takeWhile Char.isDigit).take 7 = digits)
    (read : numberEnd? digits (Text.decimalValue digits) (rest.drop digits.length) = some (chars, after)) :
    Reference ('#' :: digits) chars ∧ rest = digits ++ ';' :: after := by
  obtain ⟨ends, nonempty, single, same⟩ := numberEnd?_eq_some read
  obtain ⟨whole, all, again⟩ := run_before_semicolon rfl 7 run ends
  refine ⟨⟨?_, fun other => ?_, ?_, by omega⟩, whole⟩
  · refine List.forall_mem_cons.mpr ⟨rfl, fun c member => isReferenceChar_of_isAlphanum ?_⟩
    rw [Char.isAlphanum, all c member, Bool.or_true]
  · obtain ⟨d, more, rfl⟩ := List.exists_cons_of_ne_nil nonempty
    have first := all d List.mem_cons_self
    have apart : (d == 'x' || d == 'X') = false := by
      rw [Bool.or_eq_false_iff, beq_eq_false_iff_ne, beq_eq_false_iff_ne]
      constructor <;> (rintro rfl; cases first)
    have found := again other
    rw [List.cons_append] at found
    simp only [List.cons_append, characterReference?, apart, found]
    rw [← List.cons_append, List.drop_left]
    exact same other
  · exact List.ne_nil_of_length_pos (by omega)

theorem Reference.of_name {name : List Char} (all : ∀ c ∈ name, c.isAlphanum = true)
    (found : namedReferences.lookup name = some chars) : Reference name chars := by
  obtain ⟨nonempty, short⟩ := namedReferences_short found
  refine ⟨fun c member => isReferenceChar_of_isAlphanum (all c member), fun other => ?_, nonempty, short⟩
  have again : (name ++ ';' :: other).takeWhile Char.isAlphanum = name := by
    apply Text.takeWhile_run all
    rintro c ⟨⟩
    rfl
  rw [characterReference?]
  · simp only [again, List.drop_left, found, Option.map_some]
  · intro x rest numbered
    cases name with
    | nil => cases numbered
    | cons c more =>
      obtain rfl := (List.cons.inj numbered).1
      cases all '#' List.mem_cons_self

/-- What is read as a reference is a body and its semicolon. -/
theorem characterReference?_eq_some_iff {text : List Char} :
    characterReference? text = some (chars, after) ↔
      ∃ body, Reference body chars ∧ text = body ++ ';' :: after := by
  constructor
  case mpr =>
    rintro ⟨body, reference, rfl⟩
    exact reference.read after
  intro read
  unfold characterReference? at read
  split at read
  case h_1 x rest =>
    dsimp only at read
    split at read
    case isTrue hex =>
      obtain ⟨reference, whole⟩ := Reference.of_hex hex rfl read
      exact ⟨_, reference, congrArg ('#' :: x :: ·) whole⟩
    case isFalse decimal =>
      obtain ⟨reference, whole⟩ := Reference.of_decimal rfl read
      exact ⟨_, reference, congrArg _ whole⟩
  case h_2 unnumbered =>
    dsimp only at read
    split at read
    case h_2 => cases read
    case h_1 left ends =>
      obtain ⟨shown, found, pair⟩ := Option.map_eq_some_iff.mp read
      obtain ⟨rfl, rfl⟩ := Prod.ext_iff.mp pair
      have whole : (text.takeWhile Char.isAlphanum).take text.length = text.takeWhile Char.isAlphanum :=
        List.take_of_length_le (List.takeWhile_prefix _).length_le
      obtain ⟨same, all, _⟩ := run_before_semicolon rfl text.length whole ends
      exact ⟨_, .of_name all found, same⟩

open Unicode (isAsciiPunctuation)

/-- Whether a text holds a character reference. -/
def holdsReference : List Char → Bool
  | [] => false
  | c :: rest => (c == '&' && (characterReference? rest).isSome) || holdsReference rest

theorem holdsReference_of_plain {text : List Char} (plain : ∀ c ∈ text, c ≠ '&') :
    holdsReference text = false := by
  induction text with
  | nil => rfl
  | cons c rest ih =>
    obtain ⟨first, later⟩ := List.forall_mem_cons.mp plain
    simp [holdsReference, first, ih later]

/-- The text after its first `skip` characters, with its character references replaced. -/
def decodeFrom : (skip : Nat) → List Char → List Char
  | _, [] => []
  | skip + 1, _ :: rest => decodeFrom skip rest
  | 0, c :: rest =>
    match if c == '&' then characterReference? rest else none with
    | some (chars, after) => chars ++ decodeFrom (rest.length - after.length) rest
    | none => c :: decodeFrom 0 rest

/-- The text with its character references replaced, and nothing else. -/
def decoded (text : String) : String :=
  String.ofList (decodeFrom 0 text.toList)

/-- A text, and the text with its character references replaced. -/
inductive Decodes : List Char → List Char → Prop where
  | nil : Decodes [] []
  | bare {c : Char} {rest shown : List Char} (bare : c = '&' → characterReference? rest = none)
      (more : Decodes rest shown) : Decodes (c :: rest) (c :: shown)
  | reference {body chars rest shown : List Char} (reference : Reference body chars)
      (more : Decodes rest shown) : Decodes ('&' :: (body ++ ';' :: rest)) (chars ++ shown)

theorem decodeFrom_skip (front rest : List Char) :
    decodeFrom front.length (front ++ rest) = decodeFrom 0 rest := by
  induction front with
  | nil => rfl
  | cons c others ih => exact ih

theorem decodes (text : List Char) : Decodes text (decodeFrom 0 text) := by
  induction size : text.length using Nat.strong_induction_on generalizing text with
  | _ length ih =>
    cases text with
    | nil => exact .nil
    | cons c rest =>
      rw [decodeFrom]
      split
      case h_1 chars after found =>
        split at found
        case isFalse => cases found
        case isTrue mark =>
          obtain rfl := beq_iff_eq.mp mark
          obtain ⟨body, reference, rfl⟩ := characterReference?_eq_some_iff.mp found
          have whole : body ++ ';' :: after = (body ++ [';']) ++ after := List.append_cons body ';' after
          have skipped : (body ++ ';' :: after).length - after.length = (body ++ [';']).length := by
            rw [whole, List.length_append, Nat.add_sub_cancel]
          have later : decodeFrom (body ++ [';']).length (body ++ ';' :: after) = decodeFrom 0 after := by
            rw [whole, decodeFrom_skip]
          rw [skipped, later]
          exact .reference reference (ih after.length (by simp at size; omega) after rfl)
      case h_2 unread =>
        refine .bare (fun mark => ?_) (ih rest.length (by simp at size; omega) rest rfl)
        rwa [if_pos (beq_iff_eq.mpr mark)] at unread

namespace Decodes

variable {text shown : List Char}

/-- A reference is longer than what it stands for. -/
theorem same_or_shorter (decodes : Decodes text shown) :
    holdsReference text = false ∧ shown = text ∨
      holdsReference text = true ∧ shown.length < text.length := by
  induction decodes with
  | nil => exact .inl ⟨rfl, rfl⟩
  | @bare c rest shown bare more ih =>
    have first : (c == '&' && (characterReference? rest).isSome) = false := by
      rw [Bool.and_eq_false_imp]
      intro mark
      rw [bare (beq_iff_eq.mp mark)]
      rfl
    rw [holdsReference, first, Bool.false_or]
    rcases ih with ⟨literal, rfl⟩ | ⟨holds, shorter⟩
    · exact .inl ⟨literal, rfl⟩
    · exact .inr ⟨holds, Nat.succ_lt_succ shorter⟩
  | @reference body chars rest shown reference more ih =>
    have size : shown.length ≤ rest.length := by
      rcases ih with ⟨_, rfl⟩ | ⟨_, shorter⟩
      · exact Nat.le_refl _
      · exact Nat.le_of_lt shorter
    have short := reference.short
    refine .inr ⟨?_, ?_⟩
    · rw [holdsReference, reference.read]
      rfl
    · simp only [List.length_cons, List.length_append]
      omega

theorem eq_nil_iff (decodes : Decodes text shown) : shown = [] ↔ text = [] := by
  cases decodes with
  | nil => exact Iff.rfl
  | bare => simp
  | reference reference => simp [reference.nonempty]

end Decodes

/-- Decoding keeps a text just if it holds no reference. -/
theorem decoded_eq_self_iff (text : String) :
    decoded text = text ↔ holdsReference text.toList = false := by
  have chars : decoded text = text ↔ decodeFrom 0 text.toList = text.toList := by
    rw [decoded, ← String.toList_inj, String.toList_ofList]
  rw [chars]
  rcases (decodes text.toList).same_or_shorter with ⟨literal, same⟩ | ⟨holds, shorter⟩
  · exact iff_of_true same literal
  · refine iff_of_false (fun same => ?_) (by simp [holds])
    rw [same] at shorter
    exact Nat.lt_irrefl _ shorter

theorem decoded_ne_empty {text : String} (nonempty : text ≠ "") : decoded text ≠ "" := by
  intro empty
  have chars : decodeFrom 0 text.toList = [] := by
    rw [← String.toList_ofList (l := decodeFrom 0 text.toList), ← decoded, empty]
    rfl
  exact nonempty (String.toList_eq_nil_iff.mp ((decodes text.toList).eq_nil_iff.mp chars))

theorem escapeOnly_mark {marked : List Char} {c : Char} (rest : List Char) (mark : c ∈ marked) :
    escapeOnly marked (c :: rest) = '\\' :: c :: escapeOnly marked rest := by
  simp [escapeOnly, mark]

theorem escapeOnly_bare {marked : List Char} {c : Char} (rest : List Char) (bare : c ∉ marked) :
    escapeOnly marked (c :: rest) = c :: escapeOnly marked rest := by
  simp [escapeOnly, bare]

theorem escapeOnly_append (marked text more : List Char) :
    escapeOnly marked (text ++ more) = escapeOnly marked text ++ escapeOnly marked more :=
  List.flatMap_append

theorem escapeOnly_of_bare {marked text : List Char} (bare : ∀ c ∈ text, c ∉ marked) :
    escapeOnly marked text = text := by
  induction text with
  | nil => rfl
  | cons c rest ih =>
    rw [escapeOnly_bare rest (bare c List.mem_cons_self),
      ih fun d member => bare d (List.mem_cons_of_mem c member)]

/-- What escaping leaves as it is at the start of a text was there. -/
theorem eq_append_of_escapeOnly {marked text front after : List Char} (plain : '\\' ∉ front)
    (same : escapeOnly marked text = front ++ after) :
    ∃ rest, text = front ++ rest ∧ escapeOnly marked rest = after := by
  induction front generalizing text with
  | nil => exact ⟨text, rfl, same⟩
  | cons d others ih =>
    rw [List.mem_cons, not_or] at plain
    cases text with
    | nil => cases same
    | cons c rest =>
      by_cases mark : c ∈ marked
      · rw [escapeOnly_mark rest mark] at same
        exact absurd (List.cons.inj same).1 plain.1
      · rw [escapeOnly_bare rest mark] at same
        obtain ⟨rfl, later⟩ := List.cons.inj same
        obtain ⟨left, rfl, ends⟩ := ih plain.2 later
        exact ⟨left, rfl, ends⟩

/-- Characters to escape: the backslash, and other punctuation that is no part of a reference. -/
structure Escapable (marked : List Char) : Prop where
  backslash : '\\' ∈ marked
  marks : ∀ c ∈ marked, isAsciiPunctuation c = true
  apart : ∀ c ∈ marked, isReferenceChar c = false
  outside : '&' ∉ marked ∧ ';' ∉ marked

namespace Escapable

variable {marked : List Char}

theorem escapeOnly_reference (escapable : Escapable marked) {body chars : List Char}
    (reference : Reference body chars) (rest : List Char) :
    escapeOnly marked (body ++ ';' :: rest) = body ++ ';' :: escapeOnly marked rest := by
  have bare : ∀ c ∈ body, c ∉ marked := by
    intro c member mark
    have known := reference.known c member
    rw [escapable.apart c mark] at known
    cases known
  rw [escapeOnly_append, escapeOnly_of_bare bare, escapeOnly_bare rest escapable.outside.2]

/-- Escaping makes no reference, and takes none away. -/
theorem characterReference? (escapable : Escapable marked) (text : List Char) :
    characterReference? (escapeOnly marked text) =
      (characterReference? text).map fun (chars, after) => (chars, escapeOnly marked after) := by
  ext ⟨chars, after⟩
  rw [Option.map_eq_some_iff]
  constructor
  · intro read
    obtain ⟨body, reference, same⟩ := characterReference?_eq_some_iff.mp read
    have plain : '\\' ∉ body ++ [';'] := by
      rw [List.mem_append, not_or]
      exact ⟨fun member => Bool.noConfusion (reference.known '\\' member), by simp⟩
    rw [List.append_cons] at same
    obtain ⟨rest, rfl, ends⟩ := eq_append_of_escapeOnly plain same
    refine ⟨(chars, rest), ?_, congrArg (Prod.mk chars) ends⟩
    rw [List.append_assoc]
    exact reference.read rest
  · rintro ⟨⟨shown, rest⟩, read, pair⟩
    obtain ⟨rfl, rfl⟩ := Prod.ext_iff.mp pair
    obtain ⟨body, reference, rfl⟩ := characterReference?_eq_some_iff.mp read
    rw [escapable.escapeOnly_reference reference]
    exact reference.read _

theorem holdsReference (escapable : Escapable marked) (text : List Char) :
    holdsReference (escapeOnly marked text) = holdsReference text := by
  induction text with
  | nil => rfl
  | cons c rest ih =>
    by_cases mark : c ∈ marked
    · have other : (c == '&') = false := beq_false_of_ne fun same => escapable.outside.1 (same ▸ mark)
      rw [escapeOnly_mark rest mark]
      simp [Markup.holdsReference, ih, other]
    · rw [escapeOnly_bare rest mark, Markup.holdsReference, Markup.holdsReference, ih,
        escapable.characterReference?, Option.isSome_map]

theorem unescapeWith (escapable : Escapable marked) {text shown : List Char}
    (decodes : Decodes text shown) (plain : '\r' ∉ text) (fuel : Nat)
    (enough : (escapeOnly marked text).length ≤ fuel) :
    unescapeWith fuel (escapeOnly marked text) = shown := by
  induction decodes generalizing fuel with
  | nil => cases fuel <;> rfl
  | @bare c rest shown bare more ih =>
    rw [List.mem_cons, not_or] at plain
    by_cases mark : c ∈ marked
    · rw [escapeOnly_mark rest mark] at enough ⊢
      rw [List.length_cons, List.length_cons] at enough
      obtain ⟨fuel, rfl⟩ : ∃ more, fuel = more + 1 := ⟨fuel - 1, by omega⟩
      simp [Markup.unescapeWith, escapable.marks c mark, ih plain.2 fuel (by omega)]
    · rw [escapeOnly_bare rest mark] at enough ⊢
      rw [List.length_cons] at enough
      obtain ⟨fuel, rfl⟩ : ∃ more, fuel = more + 1 := ⟨fuel - 1, by omega⟩
      have later := ih plain.2 fuel (by omega)
      by_cases ampersand : c = '&'
      · subst ampersand
        have unread := escapable.characterReference? rest
        rw [bare rfl] at unread
        simp [Markup.unescapeWith, unread, later]
      · rw [Markup.unescapeWith, later]
        · exact fun _ _ same => absurd (same ▸ escapable.backslash) mark
        · exact ampersand
        · exact Ne.symm plain.1
  | @reference body chars rest shown reference more ih =>
    rw [escapeOnly_bare _ escapable.outside.1, escapable.escapeOnly_reference reference] at enough ⊢
    simp only [List.length_cons, List.length_append] at enough
    obtain ⟨fuel, rfl⟩ : ∃ more, fuel = more + 1 := ⟨fuel - 1, by omega⟩
    have later : '\r' ∉ rest := fun member =>
      plain (List.mem_cons_of_mem _ (List.mem_append_right _ (List.mem_cons_of_mem _ member)))
    simp [Markup.unescapeWith, reference.read, ih later fuel (by omega)]

/-- Unescaping undoes the escapes, and replaces the references. -/
theorem unescape (escapable : Escapable marked) (text : List Char) (plain : '\r' ∉ text) :
    unescape (escapeOnly marked text) = decodeFrom 0 text :=
  escapable.unescapeWith (decodes text) plain _ (Nat.le_refl _)

end Escapable

end DocComment.Markup
