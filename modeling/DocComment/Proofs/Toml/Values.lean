import DocComment.Proofs.Text.Digits
import DocComment.Proofs.Toml.Quotes
import DocComment.Toml.Read

namespace DocComment.Toml

theorem hexDigit?_of_isDigit {c : Char} (digit : c.isDigit = true) :
    Text.hexDigit? c = some (c.toNat - '0'.toNat) := by
  rw [Text.hexDigit?, if_pos digit]

theorem ofDigits_ten {digits : List Char} (all : ∀ c ∈ digits, c.isDigit = true) :
    ofDigits 10 digits = Text.decimalValue digits := by
  have run (start : Nat) : (digits.filterMap Text.hexDigit?).foldl
      (fun number digit => 10 * number + digit) start =
      digits.foldl (fun n c => 10 * n + (c.toNat - '0'.toNat)) start := by
    induction digits generalizing start with
    | nil => rfl
    | cons c rest ih =>
      obtain ⟨first, others⟩ := List.forall_mem_cons.mp all
      rw [List.filterMap_cons, hexDigit?_of_isDigit first]
      exact ih others _
  exact congrArg Int.ofNat (run 0)

theorem splitBy_none {isSeparator : Char → Bool} {text : List Char} (nonempty : text ≠ [])
    (none : ∀ c ∈ text, isSeparator c = false) : Text.splitBy isSeparator text = [text] := by
  induction text with
  | nil => contradiction
  | cons c rest ih =>
    obtain ⟨first, others⟩ := List.forall_mem_cons.mp none
    rw [Text.splitBy, first]
    cases rest with
    | nil => rfl
    | cons d rest => rw [ih (List.cons_ne_nil d rest) others]; rfl

theorem wholeDigits?_toDigits (n : Nat) :
    wholeDigits? (Nat.toDigits 10 n) = some (Nat.toDigits 10 n) := by
  have digits : ∀ c ∈ Nat.toDigits 10 n, c.isDigit = true := fun c member =>
    Text.isDigit_of_mem_toDigits member
  have whole : Text.splitBy (· == '_') (Nat.toDigits 10 n) = [Nat.toDigits 10 n] := by
    refine splitBy_none Nat.toDigits_ne_nil fun c member => beq_false_of_ne ?_
    rintro rfl
    exact absurd (digits _ member) (by decide)
  have joined : joinDigits? Char.isDigit (Nat.toDigits 10 n) = some (Nat.toDigits 10 n) := by
    simp only [joinDigits?, whole, List.all_cons, List.all_nil, Bool.and_true, List.flatten_cons,
      List.flatten_nil, List.append_nil]
    rw [if_pos]
    simpa [Nat.toDigits_ne_nil] using digits
  rw [wholeDigits?, joined]
  rcases Text.toDigits_cases n with zero | ⟨c, rest, written, other⟩
  · rw [zero]; rfl
  · rw [written]
    simp [other]

/-- The digits of a number are read as that number, and as none in another base. -/
theorem integer?_toDigits {n : Nat} (readable : isReadable n = true) :
    integer? (Nat.toDigits 10 n) = some (n : Int) := by
  have digit {c : Char} (member : c ∈ Nat.toDigits 10 n) : c.isDigit = true :=
    Text.isDigit_of_mem_toDigits member
  have unsigned : splitSign (Nat.toDigits 10 n) = ([], Nat.toDigits 10 n) := by
    unfold splitSign
    split
    case h_1 same => exact absurd (digit (same ▸ List.mem_cons_self)) (by decide)
    case h_2 same => exact absurd (digit (same ▸ List.mem_cons_self)) (by decide)
    case h_3 => rfl
  have second {c d : Char} {rest : List Char} (same : Nat.toDigits 10 n = c :: d :: rest) :
      d.isDigit = true := digit (by simp [same])
  have back : ofDigits 10 (Nat.toDigits 10 n) = n := by
    rw [ofDigits_ten fun c member => digit member, Text.decimalValue_toDigits]
  unfold integer?
  dsimp only
  split
  case h_1 same => exact absurd (second same) (by decide)
  case h_2 same => exact absurd (second same) (by decide)
  case h_3 same => exact absurd (second same) (by decide)
  case h_4 => simp [unsigned, wholeDigits?_toDigits, back, Option.filter, readable]

/-- The characters after a value: none goes on with it. -/
def Stops (rest : List Char) : Prop :=
  ∀ c, rest.head? = some c → isScalarChar c = false ∧ c ≠ '"' ∧ c ≠ '\x27'

theorem Stops.head_ne {rest : List Char} (stops : Stops rest) {c : Char}
    (scalar : isScalarChar c = true) : rest.head? ≠ some c := fun first => by
  rw [(stops c first).1] at scalar
  cases scalar

theorem isScalarChar_of_isDigit {c : Char} (digit : c.isDigit = true) : isScalarChar c = true := by
  simp [isScalarChar, Char.isAlphanum, digit]

theorem two?_digits {digits rest after : List Char} {number : Nat}
    (all : ∀ c ∈ digits, c.isDigit = true) (stops : Stops rest)
    (found : two? (digits ++ rest) = some (number, after)) :
    ∃ others, (∀ c ∈ others, c.isDigit = true) ∧ after = others ++ rest := by
  have outside (c : Char) (first : rest.head? = some c) : c.isDigit = false := by
    rw [← Bool.not_eq_true]
    exact fun digit => stops.head_ne (isScalarChar_of_isDigit digit) first
  match digits, all with
  | [], _ =>
    cases rest with
    | nil => cases found
    | cons c others => cases others <;> simp [two?, outside c rfl] at found
  | [c], _ =>
    cases rest with
    | nil => cases found
    | cons d others => simp [two?, outside d rfl] at found
  | c :: d :: others, all =>
    simp only [List.forall_mem_cons] at all
    simp only [List.cons_append, two?, all.1, all.2.1, Bool.and_self, if_true, Option.some.injEq,
      Prod.mk.injEq] at found
    exact ⟨others, all.2.2, found.2.symm⟩

/-- Digits that nothing goes on with are no date and no time of day. -/
theorem moment?_digits {digits rest : List Char} (all : ∀ c ∈ digits, c.isDigit = true)
    (stops : Stops rest) : moment? (digits ++ rest) = none := by
  have unmarked {others : List Char} (all : ∀ c ∈ others, c.isDigit = true) {c : Char}
      (scalar : isScalarChar c = true) (noDigit : c.isDigit = false) (after : List Char) :
      others ++ rest ≠ c :: after := by
    intro same
    cases others with
    | nil => exact stops.head_ne scalar (congrArg List.head? same)
    | cons d others =>
      obtain rfl := (List.cons.inj same).1
      rw [all d List.mem_cons_self] at noDigit
      cases noDigit
  have noDate : date? (digits ++ rest) = none := by
    cases first : two? (digits ++ rest) with
    | none => simp [date?, first]
    | some century =>
      obtain ⟨others, digits, same⟩ := two?_digits all stops first
      cases second : two? century.2 with
      | none => simp [date?, first, second]
      | some year =>
        obtain ⟨later, digits, same⟩ := two?_digits digits stops (same ▸ second)
        simp only [date?, first, second, Option.bind_eq_bind, Option.bind_some]
        split
        case h_1 marked => exact absurd (same ▸ marked) (unmarked digits (by decide) (by decide) _)
        case h_2 => rfl
  have noTime : time? (digits ++ rest) = none := by
    cases first : two? (digits ++ rest) with
    | none => simp [time?, first]
    | some hour =>
      obtain ⟨others, digits, same⟩ := two?_digits all stops first
      simp only [time?, first, Option.bind_eq_bind, Option.bind_some]
      split
      case h_1 marked => exact absurd (same ▸ marked) (unmarked digits (by decide) (by decide) _)
      case h_2 => rfl
  rw [moment?, noDate]
  exact noTime

theorem simple?_scalar {written : List Char} {value : Value} (nonempty : written ≠ [])
    (scalar : ∀ c ∈ written, isScalarChar c = true) (read : scalar? written = some value)
    {rest : List Char} (stops : Stops rest) (noMoment : moment? (written ++ rest) = none) :
    simple? (written ++ rest) = some (value, rest) := by
  have outside (c : Char) (first : rest.head? = some c) : isScalarChar c = false := (stops c first).1
  obtain ⟨c, others, same⟩ := List.exists_cons_of_ne_nil nonempty
  have first := scalar c (by simp [same])
  unfold simple?
  split
  case h_1 quoted => rw [same] at quoted; cases quoted; cases first
  case h_2 quoted => rw [same] at quoted; cases quoted; cases first
  case h_3 =>
    rw [noMoment, Text.takeWhile_run scalar outside, Text.dropWhile_run scalar outside, read]
    rfl

theorem moment?_letter {c : Char} {rest : List Char} (noDigit : c.isDigit = false) :
    moment? (c :: rest) = none := by
  have none : two? (c :: rest) = none := by cases rest <;> simp [two?, noDigit]
  simp [moment?, date?, time?, none]

theorem simple?_boolean (flag : Bool) {rest : List Char} (stops : Stops rest) :
    simple? (writeValue (.boolean flag) ++ rest) = some (.boolean flag, rest) := by
  rw [writeValue]
  cases flag <;>
    exact simple?_scalar (by decide) (List.all_eq_true.mp (by decide)) rfl stops (moment?_letter (by decide))

theorem simple?_integer {n : Nat} (readable : isReadable n = true) {rest : List Char}
    (stops : Stops rest) : simple? (writeValue (.integer n) ++ rest) = some (.integer n, rest) := by
  have written : writeValue (.integer n) = Nat.toDigits 10 n := by simp [writeValue, Int.repr]
  have digits (c : Char) (member : c ∈ Nat.toDigits 10 n) : c.isDigit = true :=
    Text.isDigit_of_mem_toDigits member
  have letters (word : List Char) (letter : ∃ c ∈ word, c.isDigit = false) :
      (Nat.toDigits 10 n == word) = false := by
    refine beq_false_of_ne fun same => ?_
    obtain ⟨c, member, noDigit⟩ := letter
    rw [digits c (same ▸ member)] at noDigit
    cases noDigit
  have read : scalar? (Nat.toDigits 10 n) = some (.integer n) := by
    rw [scalar?, letters _ ⟨'t', by decide⟩, letters _ ⟨'f', by decide⟩, integer?_toDigits readable]
    rfl
  rw [written]
  exact simple?_scalar Nat.toDigits_ne_nil
    (fun c member => isScalarChar_of_isDigit (digits c member)) read stops (moment?_digits digits stops)

theorem delimiter_head (quoting : Quoting) :
    ∃ c rest, quoting.delimiter = c :: rest ∧ (c = '"' ∨ c = '\x27') := by
  cases quoting <;> exact ⟨_, _, rfl, by decide⟩

theorem write_head (quoting : Quoting) (text : List Char) :
    ∃ c rest, quoting.write text = c :: rest ∧ (c = '"' ∨ c = '\x27') := by
  obtain ⟨c, rest, same, quote⟩ := delimiter_head quoting
  exact ⟨c, _, by rw [Quoting.write, same]; rfl, quote⟩

theorem simple?_string (text : String) {rest : List Char} (stops : Stops rest) :
    simple? (writeValue (.string text) ++ rest) = some (.string text, rest) := by
  have read := quotedText?_writeText text (fun first => (stops _ first).2.1 rfl)
    fun first => (stops _ first).2.2 rfl
  obtain ⟨c, others, same, quote⟩ := write_head (Quoting.ofValue text.toList) text.toList
  have written : writeValue (.string text) = c :: others := by rw [writeValue, writeText, same]
  rw [show writeText text = c :: others from same, List.cons_append] at read
  rw [written, List.cons_append]
  rcases quote with rfl | rfl <;> simp [simple?, read]

/-- A value that is read back, with arrays up to a depth. -/
def Value.Readable : Nat → Value → Prop
  | _, .string _ => True
  | _, .boolean _ => True
  | _, .integer number => 0 ≤ number ∧ isReadable number = true
  | depth + 1, .array items => ∀ item ∈ items, item.Readable depth
  | _, _ => False

/-- A character that no gap holds and that closes nothing. -/
def IsSolid (c : Char) : Prop :=
  isBlank c = false ∧ c ≠ '\n' ∧ c ≠ '\r' ∧ c ≠ '#' ∧ c ≠ ']'

instance (c : Char) : Decidable (IsSolid c) := inferInstanceAs (Decidable (_ ∧ _))

theorem skipGap?_end {c : Char} (blank : isBlank c = false) (line : c ≠ '\n') (carriage : c ≠ '\r')
    (comment : c ≠ '#') (rest : List Char) : skipGap? false (c :: rest) = some (c :: rest) := by
  rw [skipGap?]
  · simp [blank, comment]
  · exact line
  · simp [carriage]

theorem IsSolid.skipGap? {c : Char} (solid : IsSolid c) (rest : List Char) :
    Toml.skipGap? false (c :: rest) = some (c :: rest) :=
  skipGap?_end solid.1 solid.2.1 solid.2.2.1 solid.2.2.2.1 rest

theorem isSolid_of_isDigit {c : Char} (digit : c.isDigit = true) : IsSolid c := by
  refine ⟨?_, ?_, ?_, ?_, ?_⟩
  · rw [← Bool.not_eq_true]
    intro blank
    simp only [isBlank, Bool.or_eq_true, beq_iff_eq] at blank
    rcases blank with rfl | rfl <;> cases digit
  all_goals
    rintro rfl
    cases digit

/-- A value that is no array starts with no bracket. -/
theorem writeValue_head_simple {value : Value} (readable : value.Readable 0) :
    ∃ c rest, writeValue value = c :: rest ∧ IsSolid c ∧ c ≠ '[' ∧ c ≠ '\x7b' := by
  cases value with
  | string text =>
    obtain ⟨c, rest, same, quote⟩ := write_head (Quoting.ofValue text.toList) text.toList
    refine ⟨c, rest, by rw [writeValue, writeText, same], ?_⟩
    rcases quote with rfl | rfl <;> decide
  | integer number =>
    obtain ⟨n, rfl⟩ := Int.eq_ofNat_of_zero_le readable.1
    obtain ⟨c, rest, same⟩ := List.exists_cons_of_ne_nil (Nat.toDigits_ne_nil (n := n) (b := 10))
    have digit : c.isDigit = true := Text.isDigit_of_mem_toDigits (n := n) (by simp [same])
    refine ⟨c, rest, by simp [writeValue, Int.repr, same], isSolid_of_isDigit digit, ?_⟩
    constructor <;>
      · rintro rfl
        cases digit
  | boolean flag => cases flag <;> exact ⟨_, _, rfl, by decide⟩
  | array | float | moment | table => cases readable

theorem writeValue_head_array (items : List Value) :
    ∃ rest, writeValue (.array items) = '[' :: rest := by
  match items with
  | [] => exact ⟨_, rfl⟩
  | [item] => exact ⟨_, rfl⟩
  | first :: second :: items => exact ⟨_, rfl⟩

theorem Value.Readable.of_simple {depth : Nat} {value : Value} (readable : value.Readable depth)
    (simple : ∀ items, value ≠ .array items) : value.Readable 0 := by
  cases value with
  | array items => exact absurd rfl (simple items)
  | _ => cases depth <;> exact readable

theorem writeValue_head {depth : Nat} {value : Value} (readable : value.Readable depth) :
    ∃ c rest, writeValue value = c :: rest ∧ IsSolid c := by
  by_cases array : ∃ items, value = .array items
  · obtain ⟨items, rfl⟩ := array
    obtain ⟨rest, same⟩ := writeValue_head_array items
    exact ⟨'[', rest, same, by decide⟩
  · obtain ⟨c, rest, same, solid, _⟩ :=
      writeValue_head_simple (readable.of_simple fun items same => array ⟨items, same⟩)
    exact ⟨c, rest, same, solid⟩

theorem stops_of_not {c : Char} {rest : List Char} (noScalar : isScalarChar c = false)
    (quotes : c ≠ '"' ∧ c ≠ '\x27') : Stops (c :: rest) := by
  rintro d ⟨⟩
  exact ⟨noScalar, quotes⟩

section Items

variable {items : List Value} {item? : List Char → Option (Value × List Char)}

/-- One item and the comma after it. -/
theorem items?_step {item : Value} {first : Char} {others text rest : List Char} {fuel : Nat}
    (gap : skipGap? false text = some (writeValue item ++ ',' :: rest))
    (written : writeValue item = first :: others) (solid : IsSolid first)
    (read : ∀ rest, Stops rest → item? (writeValue item ++ rest) = some (item, rest)) :
    items? item? ']' (fuel + 1) text =
      (items? item? ']' fuel rest).map fun (items, last) => (item :: items, last) := by
  have here := read (',' :: rest) (stops_of_not (by decide) (by decide))
  have comma : skipGap? false (',' :: rest) = some (',' :: rest) :=
    skipGap?_end (by decide) (by decide) (by decide) (by decide) rest
  rw [written, List.cons_append] at gap here
  simp [items?, gap, here, comma, solid.2.2.2.2]

/-- The lines of the items of an array, up to its closing bracket. -/
theorem items?_writeItems
    (each : ∀ item ∈ items, ∀ rest, Stops rest → item? (writeValue item ++ rest) = some (item, rest))
    (heads : ∀ item ∈ items, ∃ c rest, writeValue item = c :: rest ∧ IsSolid c)
    (rest : List Char) {fuel : Nat} (enough : items.length < fuel) :
    items? item? ']' fuel (writeItems items ++ '\n' :: ']' :: rest) = some (items, rest) := by
  induction items generalizing fuel with
  | nil =>
    obtain ⟨fuel, rfl⟩ := Nat.exists_eq_add_one_of_ne_zero (Nat.ne_zero_of_lt enough)
    simp [items?, writeItems, skipGap?, isBlank]
  | cons item items ih =>
    obtain ⟨fuel, rfl⟩ := Nat.exists_eq_add_one_of_ne_zero (Nat.ne_zero_of_lt enough)
    obtain ⟨here, later⟩ := List.forall_mem_cons.mp each
    obtain ⟨⟨c, others, written, solid⟩, ends⟩ := List.forall_mem_cons.mp heads
    have inner := ih later ends (Nat.lt_of_succ_lt_succ enough)
    have gap : skipGap? false (writeItems (item :: items) ++ '\n' :: ']' :: rest) =
        some (writeValue item ++ ',' :: (writeItems items ++ '\n' :: ']' :: rest)) := by
      have start := solid.skipGap? (others ++ ',' :: (writeItems items ++ '\n' :: ']' :: rest))
      simp [writeItems, written, skipGap?, isBlank, start]
    rw [items?_step gap written solid here, inner]
    rfl

theorem items?_single {item : Value} {first : Char} {others : List Char}
    (written : writeValue item = first :: others) (solid : IsSolid first) (rest : List Char)
    (read : ∀ rest, Stops rest → item? (writeValue item ++ rest) = some (item, rest)) (fuel : Nat) :
    items? item? ']' (fuel + 1) (writeValue item ++ ']' :: rest) = some ([item], rest) := by
  have here := read (']' :: rest) (stops_of_not (by decide) (by decide))
  have gap := solid.skipGap? (others ++ ']' :: rest)
  have bracket : skipGap? false (']' :: rest) = some (']' :: rest) :=
    skipGap?_end (by decide) (by decide) (by decide) (by decide) rest
  rw [written, List.cons_append] at here ⊢
  simp [items?, gap, here, bracket, solid.2.2.2.2]

theorem length_le_writeItems (items : List Value) : items.length ≤ (writeItems items).length := by
  induction items with
  | nil => exact Nat.zero_le _
  | cons item items ih =>
    simp only [writeItems, List.length_append, List.length_cons]
    omega

end Items

theorem simple?_writeValue {value : Value} (readable : value.Readable 0) {rest : List Char}
    (stops : Stops rest) : simple? (writeValue value ++ rest) = some (value, rest) := by
  cases value with
  | string text => exact simple?_string text stops
  | integer number =>
    obtain ⟨n, rfl⟩ := Int.eq_ofNat_of_zero_le readable.1
    exact simple?_integer readable.2 stops
  | boolean flag => exact simple?_boolean flag stops
  | array | float | moment | table => cases readable

theorem value?_simple (depth : Nat) {c : Char} {rest : List Char} (noArray : c ≠ '[')
    (noTable : c ≠ '\x7b') : value? depth (c :: rest) = simple? (c :: rest) := by
  cases depth with
  | zero => rfl
  | succ depth =>
    rw [value?]
    · simp [noArray]
    · simp [noTable]

/-- A value is read back from what it writes. -/
theorem value?_writeValue {depth : Nat} {value : Value} (readable : value.Readable depth)
    {rest : List Char} (stops : Stops rest) :
    value? depth (writeValue value ++ rest) = some (value, rest) := by
  induction depth generalizing value rest with
  | zero => exact simple?_writeValue readable stops
  | succ depth ih =>
    by_cases array : ∃ items, value = .array items
    · obtain ⟨items, rfl⟩ := array
      have each (item : Value) (member : item ∈ items) (rest : List Char) (stops : Stops rest) :
          value? depth (writeValue item ++ rest) = some (item, rest) := ih (readable item member) stops
      have heads (item : Value) (member : item ∈ items) := writeValue_head (readable item member)
      match items with
      | [] => simp [writeValue, value?, items?, skipGap?_end, isBlank]
      | [item] =>
        obtain ⟨c, others, written, solid⟩ := heads item List.mem_cons_self
        have read := items?_single written solid rest (each item List.mem_cons_self)
        simp [writeValue, value?, read]
      | first :: second :: items =>
        have longer := length_le_writeItems (first :: second :: items)
        have read := items?_writeItems each heads rest
          (show _ < (writeItems (first :: second :: items) ++ '\n' :: ']' :: rest).length + 1 by
            rw [List.length_append]; omega)
        have whole : writeValue (.array (first :: second :: items)) ++ rest =
            '[' :: (writeItems (first :: second :: items) ++ '\n' :: ']' :: rest) := by
          simp [writeValue]
        rw [whole, value?, read]
        rfl
    · have simple := readable.of_simple fun items same => array ⟨items, same⟩
      obtain ⟨c, others, written, _, noArray, noTable⟩ := writeValue_head_simple simple
      have read := simple?_writeValue simple stops
      rw [written, List.cons_append] at read ⊢
      rw [value?_simple (depth + 1) noArray noTable, read]

end DocComment.Toml
