namespace DocComment.Unicode

/-- Inclusive code point ranges in increasing order. -/
abbrev Ranges := List (Nat × Nat)

/-- Membership of a code point. The scan stops at the first range that ends past it. -/
def Ranges.containsCode : Ranges → Nat → Bool
  | [], _ => false
  | (first, last) :: rest, code =>
    if code ≤ last then first ≤ code else Ranges.containsCode rest code

def Ranges.contains (ranges : Ranges) (c : Char) : Bool :=
  ranges.containsCode c.toNat

/-- The property `White_Space`. -/
def whiteSpace : Ranges :=
  [(9, 13), (32, 32), (133, 133), (160, 160), (5760, 5760), (8192, 8202), (8232, 8233),
   (8239, 8239), (8287, 8287), (12288, 12288)]

def isWhite (c : Char) : Bool :=
  whiteSpace.contains c

end DocComment.Unicode
