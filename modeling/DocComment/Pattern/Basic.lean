import DocComment.Unicode.Case
import DocComment.Unicode.Word

namespace DocComment.Pattern

/-- A set of characters. -/
inductive CharSet where
  | none
  | range (first last : Char)
  | word
  | digit
  | blank
  | union (left right : CharSet)
  | inter (left right : CharSet)
  | diff (left right : CharSet)
  | symmDiff (left right : CharSet)
  | compl (set : CharSet)
  /-- The set and all characters that differ from its members in case only. -/
  | caseless (set : CharSet)
  deriving Repr, DecidableEq

/-- A character and its other cases. -/
def caseVariants (c : Char) : List Char :=
  let single (chars : List Char) := if chars.length == 1 then chars else []
  let lowered := single (Unicode.lowerChar c)
  let raised := single (Unicode.upperChar c)
  c :: lowered ++ raised ++ lowered.flatMap (fun d => single (Unicode.upperChar d)) ++
    raised.flatMap (fun d => single (Unicode.lowerChar d))

def CharSet.contains : CharSet → Char → Bool
  | .none, _ => false
  | .range first last, c => first ≤ c && c ≤ last
  | .word, c => Unicode.isWord c
  | .digit, c => Unicode.isDecimalDigit c
  | .blank, c => Unicode.isWhite c
  | .union left right, c => left.contains c || right.contains c
  | .inter left right, c => left.contains c && right.contains c
  | .diff left right, c => left.contains c && !right.contains c
  | .symmDiff left right, c => left.contains c != right.contains c
  | .compl set, c => !set.contains c
  | .caseless set, c => (caseVariants c).any set.contains

/-- Conditions on a position. -/
inductive Anchor where
  | textStart
  | textEnd
  | lineStart
  | lineEnd
  | wordBoundary
  | noWordBoundary
  | wordStart
  | wordEnd
  | wordStartHalf
  | wordEndHalf
  deriving Repr, DecidableEq

inductive Regex where
  | empty
  | set (set : CharSet)
  | anchor (anchor : Anchor)
  | cat (first second : Regex)
  | alt (first second : Regex)
  /-- At least `least` and at most `most` times; a greedy repetition tries more before fewer. -/
  | loop (body : Regex) (least : Nat) (most : Option Nat) (greedy : Bool)
  | capture (index : Nat) (body : Regex)
  deriving Repr, DecidableEq

def Regex.literal (c : Char) : Regex :=
  .set (.range c c)

end DocComment.Pattern
