import DocComment.Json.Read
import DocComment.Proofs.Text.Digits
import DocComment.Proofs.Text.Trim

namespace DocComment.Json

theorem escape?_control {c : Char} (control : c.toNat < 32) (rest : List Char) :
    escape? ('u' :: '0' :: '0' :: hexLower (c.toNat / 16) :: hexLower (c.toNat % 16) :: rest) =
      some (c, rest) := by
  have digit : ∀ n < 16, Text.hexDigit? (hexLower n) = some n := by decide
  have high := digit (c.toNat / 16) (by omega)
  have low := digit (c.toNat % 16) (by omega)
  have zero : Text.hexDigit? '0' = some 0 := by decide
  have whole : c.toNat / 16 * 16 + c.toNat % 16 = c.toNat := by omega
  have notHigh : ¬ 0xD800 ≤ c.toNat := by omega
  have notLow : ¬ 0xDC00 ≤ c.toNat := by omega
  simp [escape?, hex4?, zero, high, low, whole, notHigh, notLow]

/-- Escaping a character is undone, whatever comes after it. -/
theorem stringBody?_escapeChar (fuel : Nat) (c : Char) (rest : List Char) :
    stringBody? (fuel + 1) (escapeChar c ++ rest) =
      (stringBody? fuel rest).map fun (chars, last) => (c :: chars, last) := by
  by_cases quote : c = '"'
  · subst quote; simp [escapeChar, stringBody?, escape?]
  by_cases backslash : c = '\\'
  · subst backslash; simp [escapeChar, stringBody?, escape?]
  by_cases lineFeed : c = '\n'
  · subst lineFeed; simp [escapeChar, stringBody?, escape?]
  by_cases carriageReturn : c = '\r'
  · subst carriageReturn; simp [escapeChar, stringBody?, escape?]
  by_cases tab : c = '\t'
  · subst tab; simp [escapeChar, stringBody?, escape?]
  by_cases backspace : c = '\x08'
  · subst backspace; simp [escapeChar, stringBody?, escape?]
  by_cases formFeed : c = '\x0c'
  · subst formFeed; simp [escapeChar, stringBody?, escape?]
  by_cases control : c.toNat < 32
  · simp [escapeChar, quote, backslash, lineFeed, carriageReturn, tab, backspace, formFeed, control,
      stringBody?, escape?_control control]
  · simp [escapeChar, quote, backslash, lineFeed, carriageReturn, tab, backspace, formFeed, control,
      stringBody?]

theorem stringBody?_quoted {fuel : Nat} (text rest : List Char) (enough : text.length < fuel) :
    stringBody? fuel (text.flatMap escapeChar ++ '"' :: rest) = some (text, rest) := by
  obtain ⟨fuel, rfl⟩ := Nat.exists_eq_add_one_of_ne_zero (Nat.ne_zero_of_lt enough)
  induction text generalizing fuel with
  | nil => simp [stringBody?]
  | cons c others ih =>
    obtain ⟨fuel, rfl⟩ := Nat.exists_eq_add_one_of_ne_zero
      (Nat.ne_zero_of_lt (Nat.lt_of_succ_lt_succ enough))
    rw [List.flatMap_cons, List.append_assoc, stringBody?_escapeChar,
      ih fuel (Nat.lt_of_succ_lt_succ enough)]
    rfl

theorem length_le_flatMap_escapeChar (text : List Char) :
    text.length ≤ (text.flatMap escapeChar).length := by
  induction text with
  | nil => simp
  | cons c others ih =>
    have written : 0 < (escapeChar c).length := by
      unfold escapeChar
      repeat' split
      all_goals simp
    rw [List.flatMap_cons, List.length_append, List.length_cons]
    omega

/-- What comes after a number does not go on with it. -/
def Ends (rest : List Char) : Prop :=
  ∀ c, rest.head? = some c → c.isDigit = false ∧ c ≠ '.' ∧ c ≠ 'e' ∧ c ≠ 'E'

theorem wholeDigits?_toDigits (n : Nat) {rest : List Char} (ends : Ends rest) :
    wholeDigits? (Nat.toDigits 10 n ++ rest) = some (Nat.toDigits 10 n, rest) := by
  have digits : (Nat.toDigits 10 n ++ rest).takeWhile Char.isDigit = Nat.toDigits 10 n :=
    Text.takeWhile_run (fun c member => Text.isDigit_of_mem_toDigits member) fun c first => (ends c first).1
  have left : (Nat.toDigits 10 n ++ rest).drop (Nat.toDigits 10 n).length = rest := List.drop_left
  rw [wholeDigits?, digits]
  rcases Text.toDigits_cases n with zero | ⟨c, others, written, other⟩
  · rw [zero] at left ⊢
    exact congrArg (fun after => some (['0'], after)) left
  · rw [written] at left ⊢
    split
    case h_1 => contradiction
    case h_2 same => exact absurd (List.cons.inj same).1 other
    case h_3 same => exact absurd (List.cons.inj same).1 other
    case h_4 => rw [left]

theorem fraction?_of_ends {rest : List Char} (ends : Ends rest) : fraction? rest = some ([], rest) := by
  cases rest with
  | nil => rfl
  | cons c others =>
    obtain ⟨_, point, _⟩ := ends c rfl
    simp [fraction?, point]

theorem exponent?_of_ends {rest : List Char} (ends : Ends rest) : exponent? rest = some ([], rest) := by
  cases rest with
  | nil => rfl
  | cons c others =>
    obtain ⟨_, _, small, large⟩ := ends c rfl
    simp [exponent?, small, large]

/-- The digits of a number, after a minus sign or not. -/
theorem number?_digits (negative : Bool) (n : Nat) {rest : List Char} (ends : Ends rest)
    (whole : negative = true → n ≠ 0) :
    number? ((if negative then ['-'] else []) ++ Nat.toDigits 10 n ++ rest) =
      some (.integer (if negative then -(n : Int) else n), rest) := by
  have digits := wholeDigits?_toDigits n ends
  have value := Text.decimalValue_toDigits n
  cases negative with
  | true => simp [number?, digits, fraction?_of_ends ends, exponent?_of_ends ends, value, whole rfl]
  | false =>
    obtain ⟨c, others, written⟩ := List.exists_cons_of_ne_nil (Nat.toDigits_ne_nil (n := n) (b := 10))
    have unsigned : c ≠ '-' := by
      have digit : c.isDigit = true := Text.isDigit_of_mem_toDigits (n := n) (by simp [written])
      rintro rfl
      simp at digit
    rw [written, List.cons_append] at digits
    rw [written] at value
    simp [number?, written, unsigned, digits, fraction?_of_ends ends, exponent?_of_ends ends, value]

theorem number?_integer (value : Int) {rest : List Char} (ends : Ends rest) :
    number? ((toString value).toList ++ rest) = some (.integer value, rest) := by
  cases value with
  | ofNat n =>
    have written : (toString (Int.ofNat n)).toList = Nat.toDigits 10 n := by simp [Int.repr]
    rw [written]
    exact number?_digits false n ends nofun
  | negSucc n =>
    have written : (toString (Int.negSucc n)).toList = '-' :: Nat.toDigits 10 (n + 1) := by
      simp [Int.repr]
    rw [written]
    exact number?_digits true (n + 1) ends fun _ => Nat.succ_ne_zero n

/-- Holds no number with a fraction or an exponent, in any depth. -/
inductive Whole : Json → Prop where
  | null : Whole .null
  | bool (value : Bool) : Whole (.bool value)
  | integer (value : Int) : Whole (.integer value)
  | string (text : String) : Whole (.string text)
  | array {items : List Json} (each : ∀ item ∈ items, Whole item) : Whole (.array items)
  | object {members : List (String × Json)} (each : ∀ member ∈ members, Whole member.2) :
      Whole (.object members)

/-- The text of the value is read as the value, before anything that does not go on with it. -/
def Reads (value : Json) : Prop :=
  ∀ fuel rest, 2 * value.chars.length ≤ fuel → Ends rest →
    value? fuel (value.chars ++ rest) = some (value, rest)

/-- The text of a value starts with no blank, and with nothing that ends a list. -/
theorem Whole.chars_head {value : Json} (whole : Whole value) :
    ∃ c rest, value.chars = c :: rest ∧ isJsonBlank c = false ∧ c ≠ ']' := by
  cases whole with
  | null => exact ⟨'n', _, rfl, rfl, by decide⟩
  | bool value => cases value <;> exact ⟨_, _, rfl, rfl, by decide⟩
  | string text => exact ⟨'"', _, rfl, rfl, by decide⟩
  | array => exact ⟨'[', _, rfl, rfl, by decide⟩
  | object => exact ⟨'\x7b', _, rfl, rfl, by decide⟩
  | integer value =>
    have digit : ∀ n c, c ∈ Nat.toDigits 10 n → isJsonBlank c = false ∧ c ≠ ']' := by
      intro n c member
      have digit := Text.isDigit_of_mem_toDigits member
      constructor
      · by_contra blank
        simp only [isJsonBlank, Bool.not_eq_false, Bool.or_eq_true, beq_iff_eq] at blank
        rcases blank with ((rfl | rfl) | rfl) | rfl <;> simp at digit
      · rintro rfl
        simp at digit
    cases value with
    | ofNat n =>
      obtain ⟨c, rest, written⟩ := List.exists_cons_of_ne_nil (Nat.toDigits_ne_nil (n := n) (b := 10))
      exact ⟨c, rest, by simp [chars, Int.repr, written], digit n c (by simp [written])⟩
    | negSucc n => exact ⟨'-', _, by simp [chars, Int.repr]; rfl, rfl, by decide⟩

theorem skipBlank_of_head {c : Char} {rest : List Char} (inked : isJsonBlank c = false) :
    skipBlank (c :: rest) = c :: rest := by
  simp [skipBlank, inked]

theorem ends_of_mark {c : Char} (rest : List Char) (mark : c ∈ [',', ']', '\x7d']) : Ends (c :: rest) := by
  have marks : ∀ c ∈ [',', ']', '\x7d'], c.isDigit = false ∧ c ≠ '.' ∧ c ≠ 'e' ∧ c ≠ 'E' := by simp
  rintro d ⟨⟩
  exact marks c mark

theorem items?_itemChars {items : List Json} (nonempty : items ≠ []) (each : ∀ item ∈ items, Reads item)
    (fuel : Nat) (rest : List Char) (enough : 2 * (itemChars items).length + 1 ≤ fuel) :
    items? fuel (itemChars items ++ ']' :: rest) = some (items, rest) := by
  induction items generalizing fuel with
  | nil => contradiction
  | cons item others ih =>
    obtain ⟨fuel, rfl⟩ := Nat.exists_eq_add_one_of_ne_zero (Nat.ne_zero_of_lt enough)
    have first := each item List.mem_cons_self
    have later : ∀ other ∈ others, Reads other := fun other member =>
      each other (List.mem_cons_of_mem item member)
    cases others with
    | nil =>
      have read := first fuel (']' :: rest) (by simp [itemChars] at enough; omega)
        (ends_of_mark rest (by decide))
      simp [items?, itemChars, read, skipBlank_of_head (show isJsonBlank ']' = false from rfl)]
    | cons other more =>
      simp only [itemChars, List.length_append, List.length_cons] at enough
      have read := first fuel (',' :: (itemChars (other :: more) ++ ']' :: rest)) (by omega)
        (ends_of_mark _ (by decide))
      have remaining := ih (List.cons_ne_nil other more) later fuel (by omega)
      simp only [items?, itemChars, List.append_assoc, List.cons_append, read, Option.bind_some,
        skipBlank_of_head (show isJsonBlank ',' = false from rfl), remaining]
      rfl

/-- A string in quotes, read from behind its opening quote. -/
theorem stringBody?_ofQuoted (text : String) (rest : List Char) :
    ∃ body, quoted text ++ rest = '"' :: body ∧
      stringBody? (body.length + 1) body = some (text.toList, rest) := by
  refine ⟨text.toList.flatMap escapeChar ++ '"' :: rest, by simp [quoted], ?_⟩
  have short := length_le_flatMap_escapeChar text.toList
  exact stringBody?_quoted text.toList rest (by rw [List.length_append, List.length_cons]; omega)

theorem members?_memberChars {members : List (String × Json)} (nonempty : members ≠ [])
    (each : ∀ member ∈ members, Reads member.2) (fuel : Nat) (rest : List Char)
    (enough : 2 * (memberChars members).length + 1 ≤ fuel) :
    members? fuel (memberChars members ++ '\x7d' :: rest) = some (members, rest) := by
  induction members generalizing fuel with
  | nil => contradiction
  | cons member others ih =>
    obtain ⟨name, value⟩ := member
    obtain ⟨fuel, rfl⟩ := Nat.exists_eq_add_one_of_ne_zero (Nat.ne_zero_of_lt enough)
    have first : Reads value := each (name, value) List.mem_cons_self
    have later : ∀ other ∈ others, Reads other.2 := fun other member =>
      each other (List.mem_cons_of_mem (name, value) member)
    have quote : ∀ rest, skipBlank ('"' :: rest) = '"' :: rest := fun _ => skipBlank_of_head rfl
    have colon : ∀ rest, skipBlank (':' :: rest) = ':' :: rest := fun _ => skipBlank_of_head rfl
    cases others with
    | nil =>
      simp only [memberChars, List.length_append, List.length_cons] at enough
      have read := first fuel ('\x7d' :: rest) (by omega) (ends_of_mark rest (by decide))
      obtain ⟨body, written, named⟩ :=
        stringBody?_ofQuoted name (':' :: (value.chars ++ '\x7d' :: rest))
      simp only [memberChars, List.append_assoc, List.cons_append, written, members?, quote, named,
        Option.bind_some, colon, read, skipBlank_of_head (show isJsonBlank '\x7d' = false from rfl),
        String.ofList_toList]
    | cons other more =>
      simp only [memberChars, List.length_append, List.length_cons] at enough
      have read := first fuel (',' :: (memberChars (other :: more) ++ '\x7d' :: rest)) (by omega)
        (ends_of_mark _ (by decide))
      have remaining := ih (List.cons_ne_nil other more) later fuel (by omega)
      obtain ⟨body, written, named⟩ := stringBody?_ofQuoted name
        (':' :: (value.chars ++ ',' :: (memberChars (other :: more) ++ '\x7d' :: rest)))
      simp only [memberChars, List.append_assoc, List.cons_append, written, members?, quote, named,
        Option.bind_some, colon, read, skipBlank_of_head (show isJsonBlank ',' = false from rfl),
        remaining, Option.map_some, String.ofList_toList]

/-- A text that starts as a number does is read as one. -/
theorem value?_numeral (fuel : Nat) {c : Char} (rest : List Char) (numeral : c.isDigit = true ∨ c = '-') :
    value? (fuel + 1) (c :: rest) = number? (c :: rest) := by
  have other : ∀ d ∈ [' ', '\t', '\n', '\r', '\x7b', '[', '"', 'n', 't', 'f'], c ≠ d := by
    rintro d member rfl
    have marks : ∀ d ∈ [' ', '\t', '\n', '\r', '\x7b', '[', '"', 'n', 't', 'f'],
        d.isDigit = false ∧ d ≠ '-' := by simp
    obtain ⟨letter, signless⟩ := marks c member
    rcases numeral with digit | minus
    · exact absurd (digit.symm.trans letter) (by decide)
    · exact signless minus
  simp only [List.mem_cons, List.not_mem_nil, or_false, forall_eq_or_imp, forall_eq] at other
  obtain ⟨blank, tab, lineFeed, carriageReturn, brace, bracket, quote, n, t, f⟩ := other
  have inked : isJsonBlank c = false := by
    simp [isJsonBlank, blank, tab, lineFeed, carriageReturn]
  rw [value?, skipBlank_of_head inked]
  split <;> simp_all

theorem value?_integer (fuel : Nat) (value : Int) (rest : List Char) :
    value? (fuel + 1) ((toString value).toList ++ rest) = number? ((toString value).toList ++ rest) := by
  cases value with
  | ofNat n =>
    obtain ⟨c, others, written⟩ := List.exists_cons_of_ne_nil (Nat.toDigits_ne_nil (n := n) (b := 10))
    have digit : c.isDigit = true := Text.isDigit_of_mem_toDigits (n := n) (by simp [written])
    have text : (toString (Int.ofNat n)).toList = c :: others := by simp [Int.repr, written]
    rw [text]
    exact value?_numeral fuel (others ++ rest) (.inl digit)
  | negSucc n =>
    have text : (toString (Int.negSucc n)).toList = '-' :: Nat.toDigits 10 (n + 1) := by
      simp [Int.repr]
    rw [text]
    exact value?_numeral fuel _ (.inr rfl)

/-- The text of values in a row starts with no blank, and does not end the row. -/
theorem itemChars_head {items : List Json} (nonempty : items ≠ []) (each : ∀ item ∈ items, Whole item) :
    ∃ c rest, itemChars items = c :: rest ∧ isJsonBlank c = false ∧ c ≠ ']' := by
  match items, nonempty with
  | [item], _ => exact (each item List.mem_cons_self).chars_head
  | item :: other :: more, _ =>
    obtain ⟨c, rest, written, inked, open_⟩ := (each item List.mem_cons_self).chars_head
    exact ⟨c, rest ++ ',' :: itemChars (other :: more), by simp [itemChars, written], inked, open_⟩

theorem memberChars_head {members : List (String × Json)} (nonempty : members ≠ []) :
    ∃ rest, memberChars members = '"' :: rest := by
  match members, nonempty with
  | [(name, value)], _ => exact ⟨_, rfl⟩
  | (name, value) :: other :: more, _ => exact ⟨_, rfl⟩

/-- The text of a value is read back as the value. The induction is on the value; a list of items or
members is read by the fuel its text leaves. -/
theorem Whole.reads {value : Json} (whole : Whole value) : Reads value := by
  induction whole with
  | null =>
    rintro (_ | fuel) rest enough -
    · simp [chars] at enough
    · simp [value?, chars, skipBlank, isJsonBlank, literal?, Text.stripStart]
  | bool value =>
    rintro (_ | fuel) rest enough -
    · cases value <;> simp [chars] at enough
    · cases value <;> simp [value?, chars, skipBlank, isJsonBlank, literal?, Text.stripStart]
  | integer value =>
    rintro (_ | fuel) rest enough ends
    · obtain ⟨c, others, written, _⟩ := (Whole.integer value).chars_head
      simp [written] at enough
    · rw [chars, value?_integer, number?_integer value ends]
  | string text =>
    rintro (_ | fuel) rest enough -
    · simp [chars, quoted] at enough
    · obtain ⟨body, written, read⟩ := stringBody?_ofQuoted text rest
      rw [chars, written, value?]
      simp only [skipBlank_of_head (show isJsonBlank '"' = false from rfl), read]
      simp
  | @array items each ih =>
    rintro (_ | fuel) rest enough -
    · simp [chars] at enough
    · have start : ∀ rest, skipBlank ('[' :: rest) = '[' :: rest := fun _ => skipBlank_of_head rfl
      simp only [chars, List.cons_append, List.append_assoc, List.nil_append, value?, start]
      simp only [chars, List.length_cons, List.length_append] at enough
      rcases eq_or_ne items [] with rfl | nonempty
      · simp [itemChars, skipBlank_of_head (show isJsonBlank ']' = false from rfl)]
      · have read := items?_itemChars nonempty ih fuel rest (by omega)
        obtain ⟨c, others, written, inked, open_⟩ := itemChars_head nonempty each
        rw [written, List.cons_append] at read ⊢
        rw [skipBlank_of_head inked, read]
        split
        case h_1 same => exact absurd (List.cons.inj same).1 open_
        case h_2 => rfl
  | @object members each ih =>
    rintro (_ | fuel) rest enough -
    · simp [chars] at enough
    · have start : ∀ rest, skipBlank ('\x7b' :: rest) = '\x7b' :: rest := fun _ => skipBlank_of_head rfl
      simp only [chars, List.cons_append, List.append_assoc, List.nil_append, value?, start]
      simp only [chars, List.length_cons, List.length_append] at enough
      rcases eq_or_ne members [] with rfl | nonempty
      · simp [memberChars, skipBlank_of_head (show isJsonBlank '\x7d' = false from rfl)]
      · have read := members?_memberChars nonempty ih fuel rest (by omega)
        obtain ⟨others, written⟩ := memberChars_head nonempty
        rw [written, List.cons_append] at read ⊢
        rw [skipBlank_of_head (show isJsonBlank '"' = false from rfl), read]
        rfl

/-- A value with whole numbers only is read back from its compact text. -/
theorem read?_chars {value : Json} (whole : Whole value) : read? value.chars = some value := by
  have read := whole.reads (2 * value.chars.length + 2) [] (by omega) nofun
  rw [List.append_nil] at read
  rw [read?, read]
  rfl

end DocComment.Json
