import DocComment.Proofs.Text.Trim
import DocComment.Toml.Unquoting
import DocComment.Toml.Write

/-! A text between quotes is read back, whatever comes after it other than one more quote. In the forms
for several lines a run of quotes before the closing ones belongs to the text. -/
namespace DocComment.Toml

theorem escape?_unicode {c : Char} (low : c.toNat < 128) (rest : List Char) :
    escape? ('u' :: '0' :: '0' :: Text.hexUpper (c.toNat / 16) :: Text.hexUpper (c.toNat % 16) :: rest) =
      some (c, rest) := by
  have digit : ∀ n < 16, Text.hexDigit? (Text.hexUpper n) = some n := by decide
  have first := digit (c.toNat / 16) (by omega)
  have second := digit (c.toNat % 16) (by omega)
  have zero : Text.hexDigit? '0' = some 0 := by decide
  have whole : 16 * (c.toNat / 16) + c.toNat % 16 = c.toNat := by omega
  have valid : c.toNat.isValidChar := c.valid
  simp [escape?, codedChar?, hexNumber?, zero, first, second, whole, valid]

theorem low_of_control {c : Char} (control : isControl c = true) : c.toNat < 128 := by
  simp only [isControl, Bool.or_eq_true, Bool.and_eq_true, decide_eq_true_eq, beq_iff_eq] at control
  omega

/-- A character other than a quote is written as an escape that gives it back, or as itself. -/
theorem escapeChar_cases (multiline : Bool) (c : Char) :
    (∃ written, Quoting.escapeChar multiline c = '\\' :: written ∧
      (∀ rest, escape? (written ++ rest) = some (c, rest)) ∧
      ∀ rest, joinedLine? (written ++ rest) = none) ∨
    Quoting.escapeChar multiline c = [c] ∧ c ≠ '\\' ∧
      (c = '\n' ∧ multiline = true ∨ isControl c = false) := by
  by_cases line : (c == '\n' && multiline) = true
  · obtain ⟨same, several⟩ := (Bool.and_eq_true _ _).mp line
    obtain rfl := beq_iff_eq.mp same
    exact .inr ⟨by simp [Quoting.escapeChar, several], by decide, .inl ⟨rfl, several⟩⟩
  have short (named letter : Char) (same : c = named)
      (written : Quoting.escapeChar multiline c = ['\\', letter])
      (back : ∀ rest, escape? (letter :: rest) = some (named, rest)) (plain : isBlank letter = false)
      (letters : letter ≠ '\n' ∧ letter ≠ '\r') :
      ∃ written, Quoting.escapeChar multiline c = '\\' :: written ∧
        (∀ rest, escape? (written ++ rest) = some (c, rest)) ∧
        ∀ rest, joinedLine? (written ++ rest) = none := by
    refine ⟨[letter], written, fun rest => same ▸ back rest, fun rest => ?_⟩
    simp [joinedLine?, plain, letters]
  by_cases backslash : c = '\\'
  · subst backslash
    exact .inl (short '\\' '\\' rfl rfl (fun _ => rfl) rfl (by decide))
  by_cases backspace : c = '\x08'
  · subst backspace
    exact .inl (short '\x08' 'b' rfl rfl (fun _ => rfl) rfl (by decide))
  by_cases tab : c = '\t'
  · subst tab
    exact .inl (short '\t' 't' rfl rfl (fun _ => rfl) rfl (by decide))
  by_cases lineFeed : c = '\n'
  · subst lineFeed
    have single : multiline = false := by simpa using line
    subst single
    exact .inl (short '\n' 'n' rfl rfl (fun _ => rfl) rfl (by decide))
  by_cases formFeed : c = '\x0c'
  · subst formFeed
    exact .inl (short '\x0c' 'f' rfl rfl (fun _ => rfl) rfl (by decide))
  by_cases carriageReturn : c = '\r'
  · subst carriageReturn
    exact .inl (short '\r' 'r' rfl rfl (fun _ => rfl) rfl (by decide))
  cases control : isControl c with
  | true =>
    refine .inl ⟨['u', '0', '0', Text.hexUpper (c.toNat / 16), Text.hexUpper (c.toNat % 16)], ?_,
      escape?_unicode (low_of_control control), fun rest => by simp [joinedLine?, isBlank]⟩
    simp [Quoting.escapeChar, backslash, backspace, tab, lineFeed, formFeed, carriageReturn, control]
  | false =>
    refine .inr ⟨?_, backslash, .inr rfl⟩
    simp [Quoting.escapeChar, backslash, backspace, tab, lineFeed, formFeed, carriageReturn, control]

theorem basicBody?_escapeChar (fuel : Nat) {c : Char} (noQuote : c ≠ '"') (rest : List Char) :
    basicBody? (fuel + 1) (Quoting.escapeChar false c ++ rest) =
      (basicBody? fuel rest).map fun (body, last) => (c :: body, last) := by
  rcases escapeChar_cases false c with ⟨written, same, back, _⟩ | ⟨same, noEscape, line | plain⟩
  · simp [same, basicBody?, back]
  · exact absurd line.2 (by decide)
  · simp [same, basicBody?, noQuote, noEscape, plain]

theorem basicBody?_escaped (text rest : List Char) {fuel : Nat} (enough : text.length < fuel) :
    basicBody? fuel (Quoting.escapeFrom false 0 0 text ++ '"' :: rest) = some (text, rest) := by
  induction text generalizing fuel with
  | nil =>
    obtain ⟨fuel, rfl⟩ := Nat.exists_eq_add_one_of_ne_zero (Nat.ne_zero_of_lt enough)
    simp [Quoting.escapeFrom, basicBody?]
  | cons c text ih =>
    obtain ⟨fuel, rfl⟩ := Nat.exists_eq_add_one_of_ne_zero (Nat.ne_zero_of_lt enough)
    have inner := ih (Nat.lt_of_succ_lt_succ enough)
    by_cases quote : c = '"'
    · simp [quote, Quoting.escapeFrom, basicBody?, escape?, inner]
    · have other : (c == '"') = false := beq_false_of_ne quote
      rw [Quoting.escapeFrom, other, if_neg Bool.false_ne_true, List.append_assoc,
        basicBody?_escapeChar fuel quote, inner]
      rfl

theorem literalBody?_plain {text : List Char} (rest : List Char)
    (plain : ∀ c ∈ text, isControl c = false ∧ c ≠ '\x27') :
    literalBody? (text ++ '\x27' :: rest) = some (text, rest) := by
  induction text with
  | nil => rfl
  | cons c text ih =>
    obtain ⟨⟨control, quote⟩, others⟩ := List.forall_mem_cons.mp plain
    simp [literalBody?, quote, control, ih others]

theorem closing_run {quote : Char} {count : Nat} {rest : List Char} (few : count ≤ 2)
    (stops : rest.head? ≠ some quote) :
    closing quote (List.replicate count quote ++ rest) = (List.replicate count quote, rest) := by
  match count, few with
  | 0, _ =>
    match rest with
    | [] => rfl
    | [c] => simp_all [closing]
    | c :: d :: others => simp_all [closing]
  | 1, _ =>
    match rest with
    | [] => simp [closing]
    | c :: others => simp_all [closing]
  | 2, _ => simp [closing]

theorem replicate_closing (quote : Char) (count : Nat) (rest : List Char) :
    List.replicate count quote ++ quote :: quote :: quote :: rest =
      quote :: quote :: quote :: (List.replicate count quote ++ rest) := by
  induction count with
  | zero => rfl
  | succ count ih => rw [List.replicate_succ, List.cons_append, ih, List.cons_append]

/-- A text goes on after a run of quotes with so few more of them that nothing is closed. -/
def FewQuotes (quote : Char) (run : Nat) (text : List Char) : Prop :=
  ∃ count c rest, text = List.replicate count quote ++ c :: rest ∧ c ≠ quote ∧ run + count ≤ 2

theorem FewQuotes.ne_closing {quote : Char} {run : Nat} {text : List Char}
    (few : FewQuotes quote run text) (rest : List Char) : text ≠ quote :: quote :: quote :: rest := by
  obtain ⟨count, c, others, rfl, other, bound⟩ := few
  match count, bound with
  | 0, _ => simp [other]
  | 1, _ => simp [other]
  | 2, _ => simp [List.replicate, other]
  | count + 3, bound => omega

theorem FewQuotes.more {quote : Char} {run : Nat} {text : List Char}
    (few : FewQuotes quote (run + 1) text) : FewQuotes quote run (quote :: text) := by
  obtain ⟨count, c, rest, rfl, other, bound⟩ := few
  exact ⟨count + 1, c, rest, rfl, other, by omega⟩

/-- The text is nothing but quotes, so few that none is written as an escape. -/
def OnlyQuotes (quote : Char) (run : Nat) (text : List Char) : Prop :=
  ∃ count, text = List.replicate count quote ∧ run + count ≤ 2

theorem OnlyQuotes.more {quote : Char} {run : Nat} {text : List Char}
    (only : OnlyQuotes quote (run + 1) text) : OnlyQuotes quote run (quote :: text) := by
  obtain ⟨count, rfl, bound⟩ := only
  exact ⟨count + 1, rfl, by omega⟩

theorem escapeFrom_onlyQuotes {run : Nat} {text : List Char} (only : OnlyQuotes '"' run text) :
    Quoting.escapeFrom true 2 run text = text := by
  obtain ⟨count, rfl, bound⟩ := only
  induction count generalizing run with
  | zero => rfl
  | succ count ih =>
    have room : run < 2 := by omega
    rw [List.replicate_succ, Quoting.escapeFrom, if_pos (beq_self_eq_true _), if_pos room,
      ih (by omega)]

theorem escapeChar_head (multiline : Bool) {c : Char} (noQuote : c ≠ '"') :
    ∃ d rest, Quoting.escapeChar multiline c = d :: rest ∧ d ≠ '"' := by
  rcases escapeChar_cases multiline c with ⟨written, same, _⟩ | ⟨same, _⟩
  · exact ⟨_, _, same, by decide⟩
  · exact ⟨_, _, same, noQuote⟩

theorem fewQuotes_escapeFrom {run : Nat} {text : List Char} (tail : List Char) (bound : run ≤ 2)
    (more : ¬ OnlyQuotes '"' run text) :
    FewQuotes '"' run (Quoting.escapeFrom true 2 run text ++ tail) := by
  induction text generalizing run with
  | nil => exact absurd ⟨0, rfl, bound⟩ more
  | cons c text ih =>
    by_cases quote : c = '"'
    · subst quote
      by_cases room : run < 2
      · rw [Quoting.escapeFrom, if_pos (beq_self_eq_true _), if_pos room]
        exact (ih room fun only => more only.more).more
      · rw [Quoting.escapeFrom, if_pos (beq_self_eq_true _), if_neg room]
        exact ⟨0, '\\', _, rfl, by decide, bound⟩
    · obtain ⟨d, rest, written, other⟩ := escapeChar_head true quote
      rw [Quoting.escapeFrom, if_neg (by simpa using quote), written]
      exact ⟨0, d, _, rfl, other, bound⟩

theorem plainStart?_plain {c : Char} (plain : Quoting.needsEscape c = false) (rest : List Char) :
    plainStart? (c :: rest) = some ([c], rest) := by
  by_cases line : c = '\n'
  · subst line
    rfl
  · have control : isControl c = false := by simpa [Quoting.needsEscape, line] using plain
    unfold plainStart?
    split <;> simp_all [isControl]

theorem multilineBasicBody?_plain (fuel : Nat) {c : Char} {rest : List Char}
    (opened : ∀ others, c :: rest ≠ '"' :: '"' :: '"' :: others) (noEscape : c ≠ '\\')
    (plain : Quoting.needsEscape c = false) :
    multilineBasicBody? (fuel + 1) (c :: rest) =
      (multilineBasicBody? fuel rest).map fun (body, last) => (c :: body, last) := by
  rw [multilineBasicBody?]
  · simp [plainStart?_plain plain]
  · exact opened
  · simp [noEscape]

theorem multilineBasicBody?_escapeChar (fuel : Nat) {c : Char} (noQuote : c ≠ '"') (rest : List Char) :
    multilineBasicBody? (fuel + 1) (Quoting.escapeChar true c ++ rest) =
      (multilineBasicBody? fuel rest).map fun (body, last) => (c :: body, last) := by
  rcases escapeChar_cases true c with ⟨written, same, back, apart⟩ | ⟨same, noEscape, plain⟩
  · simp [same, multilineBasicBody?, back, apart]
  · rw [same]
    refine multilineBasicBody?_plain fuel (by simp [noQuote]) noEscape ?_
    rcases plain with ⟨rfl, _⟩ | plain
    · rfl
    · simp [Quoting.needsEscape, plain]

/-- The body is read after `run` quotes of it. -/
theorem multilineBasicBody?_escaped (text : List Char) {rest : List Char} {run fuel : Nat}
    (bound : run ≤ 2) (enough : text.length < fuel) (stops : rest.head? ≠ some '"') :
    multilineBasicBody? fuel
      (Quoting.escapeFrom true 2 run text ++ '"' :: '"' :: '"' :: rest) = some (text, rest) := by
  induction text generalizing fuel run with
  | nil =>
    obtain ⟨fuel, rfl⟩ := Nat.exists_eq_add_one_of_ne_zero (Nat.ne_zero_of_lt enough)
    exact congrArg some (closing_run (Nat.zero_le 2) stops)
  | cons c text ih =>
    obtain ⟨fuel, rfl⟩ := Nat.exists_eq_add_one_of_ne_zero (Nat.ne_zero_of_lt enough)
    have inner {run : Nat} (bound : run ≤ 2) := ih bound (Nat.lt_of_succ_lt_succ enough)
    by_cases only : OnlyQuotes '"' run (c :: text)
    · -- the last quotes of the text come before the closing ones
      rw [escapeFrom_onlyQuotes only]
      obtain ⟨count, same, few⟩ := only
      rw [same, replicate_closing]
      exact congrArg some (closing_run (by omega) stops)
    · by_cases quote : c = '"'
      · subst quote
        by_cases room : run < 2
        · have few := fewQuotes_escapeFrom ('"' :: '"' :: '"' :: rest) bound only
          rw [Quoting.escapeFrom, if_pos (beq_self_eq_true _), if_pos room, List.cons_append] at few ⊢
          rw [multilineBasicBody?_plain fuel few.ne_closing (by decide) (by decide), inner room]
          rfl
        · rw [Quoting.escapeFrom, if_pos (beq_self_eq_true _), if_neg room]
          simp [multilineBasicBody?, joinedLine?, isBlank, escape?, inner]
      · rw [Quoting.escapeFrom, if_neg (by simpa using quote), List.append_assoc,
          multilineBasicBody?_escapeChar fuel quote, inner (Nat.zero_le 2)]
        rfl

theorem fewQuotes_longestRun {quote : Char} {run : Nat} {text : List Char} (tail : List Char)
    (short : Text.longestRunFrom quote run text ≤ 2) (more : ¬ OnlyQuotes quote run text) :
    FewQuotes quote run (text ++ tail) := by
  induction text generalizing run with
  | nil => exact absurd ⟨0, rfl, short⟩ more
  | cons c text ih =>
    rw [Text.longestRunFrom] at short
    by_cases same : c = quote
    · subst same
      rw [if_pos (beq_self_eq_true c)] at short
      exact (ih short fun only => more only.more).more
    · exact ⟨0, c, text ++ tail, rfl, same, by simp [same] at short; omega⟩

theorem multilineLiteralBody?_plain (fuel : Nat) {c : Char} {rest : List Char}
    (opened : ∀ others, c :: rest ≠ '\x27' :: '\x27' :: '\x27' :: others)
    (plain : Quoting.needsEscape c = false) :
    multilineLiteralBody? (fuel + 1) (c :: rest) =
      (multilineLiteralBody? fuel rest).map fun (body, last) => (c :: body, last) := by
  rw [multilineLiteralBody?]
  · simp [plainStart?_plain plain]
  · exact opened

theorem multilineLiteralBody?_text (text : List Char) {rest : List Char} {run fuel : Nat}
    (short : Text.longestRunFrom '\x27' run text ≤ 2)
    (plain : ∀ c ∈ text, Quoting.needsEscape c = false) (enough : text.length < fuel)
    (stops : rest.head? ≠ some '\x27') :
    multilineLiteralBody? fuel (text ++ '\x27' :: '\x27' :: '\x27' :: rest) = some (text, rest) := by
  induction text generalizing fuel run with
  | nil =>
    obtain ⟨fuel, rfl⟩ := Nat.exists_eq_add_one_of_ne_zero (Nat.ne_zero_of_lt enough)
    exact congrArg some (closing_run (Nat.zero_le 2) stops)
  | cons c text ih =>
    obtain ⟨fuel, rfl⟩ := Nat.exists_eq_add_one_of_ne_zero (Nat.ne_zero_of_lt enough)
    obtain ⟨here, later⟩ := List.forall_mem_cons.mp plain
    by_cases only : OnlyQuotes '\x27' run (c :: text)
    · obtain ⟨count, same, few⟩ := only
      rw [same, replicate_closing]
      exact congrArg some (closing_run (by omega) stops)
    · have few := fewQuotes_longestRun ('\x27' :: '\x27' :: '\x27' :: rest) short only
      have goesOn : ∃ run, Text.longestRunFrom '\x27' run text ≤ 2 := by
        rw [Text.longestRunFrom] at short
        split at short
        · exact ⟨_, short⟩
        · exact ⟨0, (Nat.max_le.mp short).2⟩
      obtain ⟨_, goesOn⟩ := goesOn
      rw [List.cons_append] at few ⊢
      rw [multilineLiteralBody?_plain fuel few.ne_closing here,
        ih goesOn later (Nat.lt_of_succ_lt_succ enough)]
      rfl

/-- A text that a form can write. -/
def Quoting.Fits (text : List Char) : Quoting → Prop
  | .literal => text ≠ [] ∧ ∀ c ∈ text, isControl c = false ∧ c ≠ '\x27'
  | .multilineLiteral =>
    (∀ c ∈ text, Quoting.needsEscape c = false) ∧ Text.longestRun '\x27' text ≤ 2
  | _ => True

theorem longestRunFrom_eq_zero {quote : Char} {run : Nat} {text : List Char}
    (short : Text.longestRunFrom quote run text = 0) : run = 0 ∧ ∀ c ∈ text, c ≠ quote := by
  induction text generalizing run with
  | nil => exact ⟨short, by simp⟩
  | cons c text ih =>
    rw [Text.longestRunFrom] at short
    split at short
    · exact absurd (ih short).1 (Nat.succ_ne_zero run)
    · rename_i other
      obtain ⟨zero, inner⟩ := Nat.max_eq_zero_iff.mp short
      exact ⟨zero, List.forall_mem_cons.mpr ⟨by simpa using other, (ih inner).2⟩⟩

theorem isControl_of_needsEscape {c : Char} (plain : Quoting.needsEscape c = false) (line : c ≠ '\n') :
    isControl c = false := by
  simpa [Quoting.needsEscape, line] using plain

theorem Quoting.fits_ofValue (text : List Char) : (Quoting.ofValue text).Fits text := by
  unfold Quoting.ofValue
  dsimp only
  split
  case isTrue => trivial
  case isFalse noBasic =>
    split
    case isTrue literal =>
      simp only [Bool.and_eq_true, Bool.not_eq_true', List.any_eq_false, Bool.not_eq_true,
        beq_iff_eq] at literal
      obtain ⟨⟨plain, singles⟩, newline⟩ := literal
      refine ⟨?_, fun c member => ⟨?_, (longestRunFrom_eq_zero singles).2 c member⟩⟩
      · rintro rfl
        exact noBasic rfl
      · refine isControl_of_needsEscape (plain c member) ?_
        rintro rfl
        simp [member] at newline
    case isFalse =>
      split
      case isTrue => trivial
      case isFalse =>
        split
        case isTrue literal =>
          simp only [Bool.and_eq_true, Bool.not_eq_true', List.any_eq_false, Bool.not_eq_true,
            decide_eq_true_eq] at literal
          exact literal
        case isFalse => split <;> trivial

theorem length_le_escapeFrom (multiline : Bool) (limit run : Nat) (text : List Char) :
    text.length ≤ (Quoting.escapeFrom multiline limit run text).length := by
  induction text generalizing run with
  | nil => exact Nat.le_refl 0
  | cons c text ih =>
    rw [Quoting.escapeFrom]
    split
    · split
      · simpa using ih (run + 1)
      · have inner := ih 0
        simp only [List.length_cons]
        omega
    · rename_i quote
      obtain ⟨d, rest, written, _⟩ := escapeChar_head multiline (by simpa using quote)
      have inner := ih 0
      simp only [written, List.length_append, List.length_cons]
      omega

/-- The line end after the opening quotes is dropped, and nothing else is. -/
theorem skipFirstLineEnd_opened (text : List Char) {body : List Char}
    (starts : '\n' ∉ text → body.head? ≠ some '\n') (noReturn : body.head? ≠ some '\r') :
    skipFirstLineEnd ((if text.contains '\n' then ['\n'] else []) ++ body) = body := by
  cases newline : text.contains '\n' with
  | true => rfl
  | false =>
    have head := starts (by simpa using newline)
    unfold skipFirstLineEnd
    split <;> simp_all

theorem quotedText?_basic {body : List Char} (opened : ∀ others, body ≠ '"' :: '"' :: others) :
    quotedText? ('"' :: body) = basicBody? (body.length + 1) body := by
  rw [quotedText?]
  simpa using opened

theorem quotedText?_literal {body : List Char} (opened : ∀ others, body ≠ '\x27' :: '\x27' :: others) :
    quotedText? ('\x27' :: body) = literalBody? body := by
  rw [quotedText?]
  simpa using opened

theorem escapeFrom_head {c : Char} (text : List Char) (bare : c = '\r' ∨ c = '\n' ∧ '\n' ∉ text)
    (tail : List Char) : (Quoting.escapeFrom true 2 0 text ++ '"' :: tail).head? ≠ some c := by
  have noQuote : c ≠ '"' := by rcases bare with rfl | ⟨rfl, _⟩ <;> decide
  cases text with
  | nil => simpa [Quoting.escapeFrom] using noQuote.symm
  | cons d text =>
    by_cases quote : d = '"'
    · simpa [Quoting.escapeFrom, quote] using noQuote.symm
    · rw [Quoting.escapeFrom, if_neg (by simpa using quote)]
      rcases escapeChar_cases true d with ⟨written, same, _⟩ | ⟨same, _, plain⟩
      · rw [same]
        rcases bare with rfl | ⟨rfl, _⟩ <;> simp
      · rw [same, List.append_assoc, List.singleton_append, List.head?_cons]
        rintro ⟨⟩
        rcases bare with rfl | ⟨rfl, absent⟩
        · revert plain
          decide
        · exact absent List.mem_cons_self

/-- What a form writes is read back as the text. -/
theorem quotedText?_write {quoting : Quoting} {text : List Char} (fits : quoting.Fits text)
    {rest : List Char} (noDouble : rest.head? ≠ some '"') (noSingle : rest.head? ≠ some '\x27') :
    quotedText? (quoting.write text ++ rest) = some (text, rest) := by
  cases quoting with
  | basic =>
    have whole : Quoting.basic.write text ++ rest =
        '"' :: (Quoting.escapeFrom false 0 0 text ++ '"' :: rest) := by
      simp [Quoting.write, Quoting.delimiter, Quoting.isMultiline, Quoting.hasEscapes]
    have longer := length_le_escapeFrom false 0 0 text
    rw [whole, quotedText?_basic, basicBody?_escaped text rest (by rw [List.length_append]; omega)]
    intro others same
    cases text with
    | nil => simp_all [Quoting.escapeFrom]
    | cons c text =>
      by_cases quote : c = '"'
      · simp [Quoting.escapeFrom, quote] at same
      · obtain ⟨d, tail, written, other⟩ := escapeChar_head false quote
        rw [Quoting.escapeFrom, if_neg (by simpa using quote), written] at same
        exact other (List.cons.inj same).1
  | literal =>
    obtain ⟨nonempty, plain⟩ := fits
    have whole : Quoting.literal.write text ++ rest = '\x27' :: (text ++ '\x27' :: rest) := by
      simp [Quoting.write, Quoting.delimiter, Quoting.isMultiline, Quoting.hasEscapes]
    rw [whole, quotedText?_literal, literalBody?_plain rest plain]
    intro others same
    obtain ⟨c, tail, rfl⟩ := List.exists_cons_of_ne_nil nonempty
    exact (plain c List.mem_cons_self).2 (List.cons.inj same).1
  | multilineBasic =>
    have whole : Quoting.multilineBasic.write text ++ rest = '"' :: '"' :: '"' ::
        ((if text.contains '\n' then ['\n'] else []) ++
          (Quoting.escapeFrom true 2 0 text ++ '"' :: '"' :: '"' :: rest)) := by
      simp [Quoting.write, Quoting.delimiter, Quoting.isMultiline, Quoting.hasEscapes]
    have longer := length_le_escapeFrom true 2 0 text
    rw [whole, quotedText?, skipFirstLineEnd_opened text
      (fun absent => escapeFrom_head text (.inr ⟨rfl, absent⟩) _) (escapeFrom_head text (.inl rfl) _)]
    exact multilineBasicBody?_escaped text (Nat.zero_le 2) (by simp only [List.length_append]; omega)
      noDouble
  | multilineLiteral =>
    obtain ⟨plain, short⟩ := fits
    have whole : Quoting.multilineLiteral.write text ++ rest = '\x27' :: '\x27' :: '\x27' ::
        ((if text.contains '\n' then ['\n'] else []) ++
          (text ++ '\x27' :: '\x27' :: '\x27' :: rest)) := by
      simp [Quoting.write, Quoting.delimiter, Quoting.isMultiline, Quoting.hasEscapes]
    have head (c : Char) (bare : c = '\r' ∨ c = '\n' ∧ '\n' ∉ text) :
        (text ++ '\x27' :: '\x27' :: '\x27' :: rest).head? ≠ some c := by
      cases text with
      | nil => rcases bare with rfl | ⟨rfl, _⟩ <;> simp
      | cons d text =>
        rintro ⟨⟩
        rcases bare with rfl | ⟨rfl, absent⟩
        · exact absurd (plain _ List.mem_cons_self) (by decide)
        · exact absent List.mem_cons_self
    rw [whole, quotedText?, skipFirstLineEnd_opened text (fun absent => head _ (.inr ⟨rfl, absent⟩))
      (head _ (.inl rfl))]
    exact multilineLiteralBody?_text text short plain (by simp only [List.length_append]; omega) noSingle

/-- A text is read back from the form that is chosen for it. -/
theorem quotedText?_writeText (text : String) {rest : List Char} (noDouble : rest.head? ≠ some '"')
    (noSingle : rest.head? ≠ some '\x27') :
    quotedText? (writeText text ++ rest) = some (text.toList, rest) :=
  quotedText?_write (Quoting.fits_ofValue text.toList) noDouble noSingle

theorem ofKey_cases (text : List Char) : Quoting.ofKey text = .basic ∨
    Quoting.ofKey text = .literal ∧ ∀ c ∈ text, isControl c = false ∧ c ≠ '\x27' := by
  unfold Quoting.ofKey
  dsimp only
  split
  · exact .inl rfl
  · split
    case isTrue literal =>
      simp only [Bool.and_eq_true, Bool.not_eq_true', List.any_eq_false, Bool.not_eq_true,
        List.contains_eq_mem, decide_eq_false_iff_not] at literal
      obtain ⟨plain, single⟩ := literal
      refine .inr ⟨rfl, fun c member => ⟨plain c member, ?_⟩⟩
      rintro rfl
      exact single member
    case isFalse => exact .inl rfl

/-- A key is read back, with quotes or without. -/
theorem key?_writeKey (key : String) {rest : List Char}
    (stops : ∀ c, rest.head? = some c → isBareKeyChar c = false) :
    key? (writeKey key ++ rest) = some (key, rest) := by
  unfold writeKey
  split
  case isTrue bare =>
    obtain ⟨nonempty, plain⟩ := (Bool.and_eq_true _ _).mp bare
    rw [List.all_eq_true] at plain
    have taken := Text.takeWhile_run plain stops
    have left := Text.dropWhile_run plain stops
    obtain ⟨c, others, written⟩ : ∃ c others, key.toList = c :: others :=
      List.exists_cons_of_ne_nil (by simpa using nonempty)
    have first := plain c (by simp [written])
    unfold key?
    split
    case h_1 same => rw [written] at same; cases same; cases first
    case h_2 same => rw [written] at same; cases same; cases first
    case h_3 =>
      rw [taken, left, written]
      simp [← written]
  case isFalse =>
    rcases ofKey_cases key.toList with form | ⟨form, plain⟩
    · have whole : Quoting.basic.write key.toList ++ rest =
          '"' :: (Quoting.escapeFrom false 0 0 key.toList ++ '"' :: rest) := by
        simp [Quoting.write, Quoting.delimiter, Quoting.isMultiline, Quoting.hasEscapes]
      have longer := length_le_escapeFrom false 0 0 key.toList
      rw [form, whole, key?, basicBody?_escaped key.toList rest (by rw [List.length_append]; omega)]
      simp
    · have whole : Quoting.literal.write key.toList ++ rest =
          '\x27' :: (key.toList ++ '\x27' :: rest) := by
        simp [Quoting.write, Quoting.delimiter, Quoting.isMultiline, Quoting.hasEscapes]
      rw [form, whole, key?, literalBody?_plain rest plain]
      simp

end DocComment.Toml
