import DocComment.Text.Basic
import DocComment.Text.Percent
import DocComment.Unicode.Case
import DocComment.Url.Punycode

namespace DocComment.Url

/-- Parts of a number of version four. Octal and hexadecimal parts start with a zero. -/
def hostNumber? (part : List Char) : Option Nat :=
  let (radix, digits) : Nat × List Char := match part with
    | '0' :: 'x' :: rest => (16, rest)
    | '0' :: 'X' :: rest => (16, rest)
    | '0' :: c :: rest => (8, c :: rest)
    | other => (10, other)
  if part.isEmpty then none
  else digits.foldl (fun value c => value.bind fun n => (Text.hexDigit? c).bind fun d =>
    if d < radix then some (radix * n + d) else none) (some 0)

/-- The parts of a dotted name, an empty last one left out. -/
private def dottedParts (name : List Char) : List (List Char) :=
  let parts := Text.splitBy (· == '.') name
  if parts.getLast? == some [] && 1 < parts.length then parts.dropLast else parts

/-- Whether a name has to be a number because its last part is one. -/
def endsInNumber (name : List Char) : Bool :=
  match (dottedParts name).getLast? with
  | none => false
  | some last => !last.isEmpty && (last.all Char.isDigit || (hostNumber? last).isSome)

/-- The number of a host of version four. The last part fills the bytes that are left. -/
def version4? (name : List Char) : Option Nat := do
  let parts := dottedParts name
  if 4 < parts.length then none
  else
    let numbers ← parts.mapM hostNumber?
    let leading := numbers.dropLast
    let last ← numbers.getLast?
    if leading.any (255 < ·) || Nat.pow 256 (4 - leading.length) ≤ last then none
    else some (leading.zipIdx.foldl (fun total (n, i) => total + n * Nat.pow 256 (3 - i)) last)

def version4Text (number : Nat) : List Char :=
  List.intercalate ['.'] ([3, 2, 1, 0].map fun place =>
    (toString (number / Nat.pow 256 place % 256)).toList)

private def decimalByte? (part : List Char) : Option Nat :=
  if part.isEmpty || !part.all Char.isDigit || (part.head? == some '0' && part != ['0']) then none
  else
    let value := Text.decimalValue part
    if value ≤ 255 then some value else none

/-- Four decimal bytes as the last two pieces of a number of version six. -/
private def embedded4? (text : List Char) : Option (List Nat) :=
  match (Text.splitBy (· == '.') text).map decimalByte? with
  | [some a, some b, some c, some d] => some [256 * a + b, 256 * c + d]
  | _ => none

private def piece? (text : List Char) : Option Nat :=
  if text.isEmpty || 4 < text.length then none
  else text.foldl (fun value c => value.bind fun n => (Text.hexDigit? c).map fun d => 16 * n + d) (some 0)

/-- Pieces between colons; only the last part may be four decimal bytes. -/
private def pieces? : List (List Char) → Option (List Nat)
  | [] => some []
  | [last] => if last.contains '.' then embedded4? last else (piece? last).map fun n => [n]
  | part :: rest => (piece? part).bind fun n => (pieces? rest).map (n :: ·)

/-- Splits at the first pair of colons. -/
private def splitCompressed : List Char → Option (List Char × List Char)
  | ':' :: ':' :: rest => some ([], rest)
  | [] => none
  | c :: rest => (splitCompressed rest).map fun (before, after) => (c :: before, after)

private def colonPieces? (text : List Char) : Option (List Nat) :=
  if text.isEmpty then some [] else pieces? (Text.splitBy (· == ':') text)

/-- The eight pieces of a number of version six. A pair of colons stands for one or more zeros. -/
def version6? (text : List Char) : Option (List Nat) :=
  match splitCompressed text with
  | none =>
    (colonPieces? text).bind fun pieces => if pieces.length == 8 then some pieces else none
  | some (before, after) =>
    if before.contains '.' then none
    else (colonPieces? before).bind fun left => (colonPieces? after).bind fun right =>
      if left.length + right.length < 8 then
        some (left ++ List.replicate (8 - left.length - right.length) 0 ++ right)
      else none

private def hexText (n : Nat) : List Char :=
  Nat.toDigits 16 n

/-- The start and length of the first longest run of zeros. -/
private def longestZeros (pieces : List Nat) : Nat × Nat :=
  ((List.range pieces.length).map fun start =>
    (start, ((pieces.drop start).takeWhile (· == 0)).length)).foldl
      (fun best run => if best.2 < run.2 then run else best) (0, 0)

def version6Text (pieces : List Nat) : List Char :=
  let joined (part : List Nat) := List.intercalate [':'] (part.map hexText)
  let (start, length) := longestZeros pieces
  if length < 2 then joined pieces
  else joined (pieces.take start) ++ [':', ':'] ++ joined (pieces.drop (start + length))

/-- Characters that no name of a host may have. -/
def isForbiddenInName (c : Char) : Bool :=
  c.toNat < 33 || c.toNat == 127 || c == '\uFFFD' ||
    ['%', '#', '/', ':', '<', '>', '?', '@', '[', '\\', ']', '^', '|'].contains c ||
    Unicode.isWhite c

/-- Small letters, plain forms of wide ones, and plain dots. -/
private def plainForm (c : Char) : List Char :=
  if c == '\u3002' || c == '\uFF61' then ['.']
  else if c == '\u00AD' || c == '\u200B' || c == '\u2060' || c == '\uFEFF' then []
  else if 0xFF01 ≤ c.toNat && c.toNat ≤ 0xFF5E then Unicode.lowerChar (Char.ofNat (c.toNat - 0xFEE0))
  else Unicode.lowerChar c

private def asciiLabel (label : List Char) : List Char :=
  if label.all fun c => c.toNat < 128 then label else "xn--".toList ++ Punycode.encode label

/-- The ASCII form of a host name. -/
def asciiName? (name : List Char) : Option (List Char) :=
  let plain := name.flatMap plainForm
  if plain.any isForbiddenInName then none
  else some (List.intercalate ['.'] ((Text.splitBy (· == '.') plain).map asciiLabel))

private def bracketed? (text : List Char) : Option (List Char) :=
  if text.getLast? == some ']' then
    (version6? text.dropLast).map fun pieces => '[' :: version6Text pieces ++ [']']
  else none

/-- The written form of a host of the well-known schemes. -/
def specialHost? (text : List Char) : Option (List Char) :=
  match text with
  | '[' :: rest => bracketed? rest
  | _ => do
    let decoded ← Text.ofUtf8? (Text.percentDecode (Text.utf8Bytes (String.ofList text)))
    let name ← asciiName? decoded.toList
    if name.isEmpty then none
    else if endsInNumber name then (version4? name).map version4Text
    else some name

private def isForbiddenInOpaque (c : Char) : Bool :=
  ['\x00', '\t', '\n', '\r', ' ', '#', '/', ':', '<', '>', '?', '@', '[', '\\', ']', '^', '|'].contains c

/-- Every byte of a character outside ASCII is coded, and those characters that `coded` names. -/
def percentText (coded : Char → Bool) (text : List Char) : List Char :=
  text.flatMap fun c =>
    if c.toNat < 32 || 127 ≤ c.toNat || coded c then
      (Text.utf8Bytes (String.singleton c)).flatMap Text.percentByte
    else [c]

/-- The written form of a host of any other scheme. -/
def opaqueHost? (text : List Char) : Option (List Char) :=
  match text with
  | '[' :: rest => bracketed? rest
  | _ => if text.any isForbiddenInOpaque then none else some (percentText (fun _ => false) text)

end DocComment.Url
