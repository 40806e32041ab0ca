import DocComment.Template.Value

namespace DocComment.Template

inductive BinaryOp where
  | or | and
  | equal | unequal | less | lessEqual | greater | greaterEqual
  | isIn | notIn
  | add | subtract
  | concat
  | multiply | divide | floorDivide | remainder
  | power
  deriving Repr, DecidableEq

namespace Value

private def impossible (what : String) : Except Fault Value :=
  .error (.failed ("tried to use " ++ what ++ " on unsupported values"))

/-- The range of whole numbers: 128 bits with a sign. -/
def integerResult (value : Int) : Except Fault Value :=
  let bound : Int := Int.pow 2 127
  if -bound ≤ value && value < bound then .ok (.integer value)
  else .error (.failed "integer overflow")

private def arithmetic (what : String) (onIntegers : Int → Int → Except Fault Value)
    (onDecimals : Float → Float → Float) (left right : Value) : Except Fault Value :=
  match numbers? left right with
  | some (.integers a b) => onIntegers a b
  | some (.decimals a b) => .ok (.decimal (onDecimals a b))
  | none => impossible what

/-- Quotient rounded so that the remainder is not negative. -/
def floorQuotient (a b : Float) : Float :=
  let quotient := a / b
  let whole := if quotient < 0 then quotient.ceil else quotient.floor
  let rest := a - b * whole
  if rest < 0 then (if 0 < b then whole - 1 else whole + 1) else whole

def decimalRemainder (a b : Float) : Float :=
  let quotient := a / b
  let whole := if quotient < 0 then quotient.ceil else quotient.floor
  let rest := a - b * whole
  if rest < 0 then rest + b.abs else rest

private def wholeOperation (operate : Int → Int → Int) (a b : Int) : Except Fault Value :=
  if b == 0 then .error (.failed "tried to divide by zero") else integerResult (operate a b)

/-- Whether a container holds a value. -/
def contains? (container value : Value) : Except Fault Bool :=
  match container with
  | .undefined => .ok false
  | .text written _ => .ok (Text.containsText value.display.toList written.toList)
  | .list items => .ok (items.any fun item => item.equal value)
  | .map entries => .ok (entries.any fun (key, _) => key.equal value)
  | _ => .error (.failed "cannot perform a containment check on this value")

private def repeated (count : Int) : Value → Except Fault Value
  | .text written _ =>
    if 0 ≤ count && count * (written.length : Int) ≤ 10000000 then
      .ok (ofString (String.join (List.replicate count.toNat written)))
    else .error (.failed "cannot repeat text that often")
  | .list items =>
    if 0 ≤ count && count * (items.length : Int) ≤ 10000000 then
      .ok (.list (List.replicate count.toNat items).flatten)
    else .error (.failed "cannot repeat a list that often")
  | _ => impossible "*"

private def isSequence : Value → Bool
  | .text .. | .list _ => true
  | _ => false

def multiply (left right : Value) : Except Fault Value :=
  if left.isSequence then
    match right with
    | .integer count => repeated count left
    | _ => impossible "*"
  else if right.isSequence then
    match left with
    | .integer count => repeated count right
    | _ => impossible "*"
  else arithmetic "*" (fun a b => integerResult (a * b)) (· * ·) left right

private def power (a b : Int) : Except Fault Value :=
  if b < 0 then impossible "**"
  else if a.natAbs ≤ 1 then integerResult (a.pow (b.toNat % 2 + (if b == 0 then 0 else 2)))
  else if 127 < b then .error (.failed "integer overflow")
  else integerResult (a.pow b.toNat)

/-- The value of an operator on two values. The logical ones are here without their shortcut. -/
def apply (operator : BinaryOp) (left right : Value) : Except Fault Value :=
  match operator with
  | .or => .ok (if left.isTrue then left else right)
  | .and => .ok (if left.isTrue then right else left)
  | .equal => .ok (.bool (left.equal right))
  | .unequal => .ok (.bool (!left.equal right))
  | .less => .ok (.bool (left.order right == .lt))
  | .lessEqual => .ok (.bool (left.order right != .gt))
  | .greater => .ok (.bool (left.order right == .gt))
  | .greaterEqual => .ok (.bool (left.order right != .lt))
  | .isIn => (contains? right left).map .bool
  | .notIn => (contains? right left).map fun found => .bool !found
  | .concat => .ok (ofString (left.display ++ right.display))
  | .add =>
    match left, right with
    | .text a _, .text b _ => .ok (ofString (a ++ b))
    | .list a, .list b => .ok (.list (a ++ b))
    | _, _ => arithmetic "+" (fun a b => integerResult (a + b)) (· + ·) left right
  | .subtract => arithmetic "-" (fun a b => integerResult (a - b)) (· - ·) left right
  | .multiply => multiply left right
  | .divide =>
    match left.asFloat?, right.asFloat? with
    | some a, some b => .ok (.decimal (a / b))
    | _, _ => impossible "/"
  | .floorDivide => arithmetic "//" (wholeOperation fun a b => a / b) floorQuotient left right
  | .remainder => arithmetic "%" (wholeOperation fun a b => a % b) decimalRemainder left right
  | .power => arithmetic "**" power Float.pow left right

/-- The number with the opposite sign. -/
def negate : Value → Except Fault Value
  | .integer value => integerResult (-value)
  | .decimal value => .ok (.decimal (-value))
  | _ => impossible "unary -"

private def sliceBound (bound : Value) (fallback : Int) : Except Fault Int :=
  match bound with
  | .undefined | .null => .ok fallback
  | other =>
    match other.asInt? with
    | some value => .ok value
    | none => .error (.failed "slice bounds must be whole numbers")

private def takeEvery (step : Nat) : Nat → List α → List α
  | _, [] => []
  | 0, item :: rest => item :: takeEvery step (step - 1) rest
  | skip + 1, _ :: rest => takeEvery step skip rest

private def cut (start : Int) (stop : Option Int) (step : Nat) (items : List α) : List α :=
  let length : Int := items.length
  let place (bound : Int) : Nat := (if bound < 0 then max 0 (length + bound) else bound).toNat
  let first := place start
  let last := match stop with
    | some stop => min (place stop) items.length
    | none => items.length
  takeEvery step 0 ((items.take last).drop first)

/-- A part of text or of a list. -/
def slice (container start stop step : Value) : Except Fault Value := do
  let first ← sliceBound start 0
  let last ← match stop with
    | .undefined | .null => .ok none
    | other => (sliceBound other 0).map some
  let stride ← sliceBound step 1
  if stride ≤ 0 then .error (.failed "cannot slice by step size of 0")
  else match container with
    | .undefined | .null => .ok (.list [])
    | .text written _ => .ok (ofString (String.ofList (cut first last stride.toNat written.toList)))
    | .list items => .ok (.list (cut first last stride.toNat items))
    | _ => .error (.failed "value cannot be sliced")

end Value

end DocComment.Template
