namespace DocComment.Text

def hexUpper (n : Nat) : Char :=
  if n < 10 then Char.ofNat ('0'.toNat + n) else Char.ofNat ('A'.toNat + n - 10)

/-- A percent sign and two hexadecimal digits. -/
def percentByte (byte : UInt8) : List Char :=
  ['%', hexUpper (byte.toNat / 16), hexUpper (byte.toNat % 16)]

def isAlphanumericByte (byte : UInt8) : Bool :=
  byte.toNat < 128 && (Char.ofNat byte.toNat).isAlphanum

/-- Writes every byte that does not satisfy `keep` in percent form. -/
def percentEncode (keep : UInt8 → Bool) (bytes : List UInt8) : List Char :=
  bytes.flatMap fun byte => if keep byte then [Char.ofNat byte.toNat] else percentByte byte

def hexByte? (byte : UInt8) : Option Nat :=
  let n := byte.toNat
  if 48 ≤ n && n ≤ 57 then some (n - 48)
  else if 65 ≤ n && n ≤ 70 then some (n - 55)
  else if 97 ≤ n && n ≤ 102 then some (n - 87)
  else none

/-- Undoes percent forms; a percent sign that starts none stays. -/
def percentDecode : List UInt8 → List UInt8
  | [] => []
  | byte :: high :: low :: rest =>
    if byte == 37 then
      match hexByte? high, hexByte? low with
      | some h, some l => UInt8.ofNat (16 * h + l) :: percentDecode rest
      | _, _ => byte :: percentDecode (high :: low :: rest)
    else byte :: percentDecode (high :: low :: rest)
  | byte :: rest => byte :: percentDecode rest

def utf8Bytes (text : String) : List UInt8 :=
  text.toUTF8.data.toList

/-- The text of a UTF-8 sequence; none if the bytes are no such sequence. -/
def ofUtf8? (bytes : List UInt8) : Option String :=
  String.fromUTF8? ⟨bytes.toArray⟩

end DocComment.Text
