import DocComment.Text.Basic
import DocComment.Text.Percent

namespace DocComment.Text

theorem ofUtf8?_utf8Bytes (text : String) : ofUtf8? (utf8Bytes text) = some text := by
  rw [ofUtf8?, utf8Bytes, Array.toArray_toList]
  exact dif_pos text.isValidUTF8

theorem toNat_ofNat_ascii : ∀ n < 128, (Char.ofNat n).toNat = n := by decide

theorem utf8EncodeChar_ascii {c : Char} (ascii : c.toNat < 128) :
    String.utf8EncodeChar c = [UInt8.ofNat c.toNat] := by
  have small : c.val ≤ 127 := UInt32.le_iff_toNat_le.mpr (Nat.le_of_lt_succ ascii)
  rw [String.utf8EncodeChar_eq_singleton (by simp [Char.utf8Size, small])]
  rfl

theorem utf8Bytes_ofList (chars : List Char) :
    utf8Bytes (String.ofList chars) = chars.flatMap String.utf8EncodeChar := by
  simp [utf8Bytes, List.utf8Encode]

/-- The bytes of ASCII text are its characters. -/
theorem utf8Bytes_ascii {chars : List Char} (ascii : ∀ c ∈ chars, c.toNat < 128) :
    utf8Bytes (String.ofList chars) = chars.map fun c => UInt8.ofNat c.toNat := by
  rw [utf8Bytes_ofList]
  induction chars with
  | nil => rfl
  | cons c rest ih =>
    rw [List.flatMap_cons, utf8EncodeChar_ascii (ascii c List.mem_cons_self),
      ih fun d member => ascii d (List.mem_cons_of_mem c member)]
    rfl

theorem percentDecode_percentByte (byte : UInt8) (rest : List UInt8) :
    percentDecode ((percentByte byte).map (fun c => UInt8.ofNat c.toNat) ++ rest) =
      byte :: percentDecode rest := by
  have digit : ∀ n < 16, hexByte? (UInt8.ofNat (hexUpper n).toNat) = some n := by decide
  have inRange := byte.toNat_lt
  have high := digit (byte.toNat / 16) (by omega)
  have low := digit (byte.toNat % 16) (by omega)
  have whole : UInt8.ofNat (16 * (byte.toNat / 16) + byte.toNat % 16) = byte := by
    rw [Nat.div_add_mod]
    exact UInt8.ofNat_toNat
  simp only [percentByte, List.map_cons, List.map_nil, List.cons_append, List.nil_append]
  rw [percentDecode]
  simp [high, low, whole]

theorem percentDecode_other {byte : UInt8} (rest : List UInt8) (other : byte ≠ 37) :
    percentDecode (byte :: rest) = byte :: percentDecode rest := by
  match rest with
  | [] => rfl
  | [_] => rfl
  | _ :: _ :: _ => simp [percentDecode, other]

variable {keep : UInt8 → Bool}

/-- Every byte but the percent sign itself may be kept, if it is ASCII. -/
theorem percentDecode_percentEncode
    (kept : ∀ byte, keep byte = true → byte.toNat < 128 ∧ byte ≠ 37) (bytes : List UInt8) :
    percentDecode ((percentEncode keep bytes).map fun c => UInt8.ofNat c.toNat) = bytes := by
  induction bytes with
  | nil => rfl
  | cons byte rest ih =>
    rw [percentEncode, List.flatMap_cons, List.map_append]
    split
    case isTrue keeps =>
      obtain ⟨ascii, other⟩ := kept byte keeps
      have same : UInt8.ofNat (Char.ofNat byte.toNat).toNat = byte := by
        rw [toNat_ofNat_ascii _ ascii, UInt8.ofNat_toNat]
      rw [List.map_singleton, same]
      exact (percentDecode_other _ other).trans (congrArg _ ih)
    case isFalse => exact (percentDecode_percentByte byte _).trans (congrArg _ ih)

theorem mem_percentEncode {bytes : List UInt8} {c : Char} (member : c ∈ percentEncode keep bytes) :
    (∃ byte, keep byte = true ∧ c = Char.ofNat byte.toNat) ∨ c = '%' ∨ ∃ n < 16, c = hexUpper n := by
  obtain ⟨byte, _, written⟩ := List.mem_flatMap.mp member
  split at written
  case isTrue keeps => exact .inl ⟨byte, keeps, List.mem_singleton.mp written⟩
  case isFalse =>
    have inRange := byte.toNat_lt
    simp only [percentByte, List.mem_cons, List.not_mem_nil, or_false] at written
    rcases written with mark | high | low
    · exact .inr (.inl mark)
    · exact .inr (.inr ⟨byte.toNat / 16, by omega, high⟩)
    · exact .inr (.inr ⟨byte.toNat % 16, by omega, low⟩)

/-- If letters and digits are kept, nothing else is written but percent signs. -/
theorem mem_percentEncode_alphanumeric {bytes : List UInt8} {c : Char}
    (member : c ∈ percentEncode isAlphanumericByte bytes) : c.isAlphanum = true ∨ c = '%' := by
  have digit : ∀ n < 16, (hexUpper n).isAlphanum = true := by decide
  rcases mem_percentEncode member with ⟨byte, keeps, rfl⟩ | rfl | ⟨n, small, rfl⟩
  · simp only [isAlphanumericByte, Bool.and_eq_true] at keeps
    exact .inl keeps.2
  · exact .inr rfl
  · exact .inl (digit n small)

theorem ascii_of_isAlphanum {c : Char} (letter : c.isAlphanum = true) : c.toNat < 128 := by
  have last : 'Z'.val.toNat = 90 ∧ 'z'.val.toNat = 122 ∧ '9'.val.toNat = 57 := by decide
  unfold Char.isAlphanum Char.isAlpha Char.isUpper Char.isLower Char.isDigit at letter
  simp only [Bool.or_eq_true, Bool.and_eq_true, decide_eq_true_eq, ge_iff_le,
    UInt32.le_iff_toNat_le] at letter
  change c.val.toNat < 128
  omega

theorem isAlphanumericByte_kept (byte : UInt8) (keeps : isAlphanumericByte byte = true) :
    byte.toNat < 128 ∧ byte ≠ 37 := by
  rw [isAlphanumericByte, Bool.and_eq_true, decide_eq_true_eq] at keeps
  refine ⟨keeps.1, ?_⟩
  rintro rfl
  exact absurd keeps.2 (by decide)

theorem foldl_utf8Size (text : List Char) (total : Nat) :
    text.foldl (fun total c => total + c.utf8Size) total = total + byteLength text := by
  induction text generalizing total with
  | nil => rfl
  | cons c rest ih => rw [byteLength, List.foldl_cons, List.foldl_cons, ih, ih, Nat.zero_add, Nat.add_assoc]

theorem byteLength_append (front rest : List Char) :
    byteLength (front ++ rest) = byteLength front + byteLength rest :=
  List.foldl_append.trans (foldl_utf8Size rest _)

theorem byteLength_cons (c : Char) (rest : List Char) :
    byteLength (c :: rest) = c.utf8Size + byteLength rest := by
  have first : byteLength [c] = c.utf8Size := Nat.zero_add _
  rw [← List.singleton_append, byteLength_append, first]

theorem byteLength_le_of_suffix {rest text : List Char} (ending : rest <:+ text) :
    byteLength rest ≤ byteLength text := by
  obtain ⟨front, rfl⟩ := ending
  rw [byteLength_append]
  exact Nat.le_add_left _ _

theorem length_utf8Bytes (chars : List Char) : (utf8Bytes (String.ofList chars)).length = byteLength chars := by
  rw [utf8Bytes_ofList]
  induction chars with
  | nil => rfl
  | cons c chars ih =>
    rw [List.flatMap_cons, List.length_append, String.length_utf8EncodeChar, ih, byteLength_cons]

theorem utf8Bytes_of_ofUtf8? {bytes : List UInt8} {text : String} (read : ofUtf8? bytes = some text) :
    utf8Bytes text = bytes := by
  unfold ofUtf8? String.fromUTF8? at read
  split at read <;> cases read
  rfl

/-- A percent form stands for one byte. -/
theorem length_percentDecode_le (bytes : List UInt8) : (percentDecode bytes).length ≤ bytes.length := by
  fun_induction percentDecode bytes with
  | case1 => exact Nat.le_refl 0
  | case2 byte high low rest mark h l first second ih =>
    simp only [List.length_cons]
    omega
  | case3 byte high low rest mark incomplete ih => exact Nat.succ_le_succ ih
  | case4 byte high low rest other ih => exact Nat.succ_le_succ ih
  | case5 byte rest short ih => exact Nat.succ_le_succ ih

theorem stripStart_eq_some {start text rest : List Char} (stripped : stripStart start text = some rest) :
    text = start ++ rest := by
  induction start generalizing text with
  | nil => exact Option.some.inj stripped
  | cons s start ih =>
    cases text with
    | nil => cases stripped
    | cons c text =>
      rw [stripStart] at stripped
      split at stripped
      · rename_i same
        rw [beq_iff_eq.mp same, ih stripped, List.cons_append]
      · cases stripped

end DocComment.Text
