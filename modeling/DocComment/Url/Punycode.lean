/-! Punycode: labels of host names written in ASCII. Code points outside ASCII are written in
increasing order, each as the distance from the last one in a system of digits whose thresholds adapt. -/
namespace DocComment.Url.Punycode

def digit (value : Nat) : Char :=
  if value < 26 then Char.ofNat ('a'.toNat + value) else Char.ofNat ('0'.toNat + value - 26)

def threshold (place bias : Nat) : Nat :=
  if place ≤ bias then 1 else if bias + 26 ≤ place then 26 else place - bias

private def shrink (delta places : Nat) : Nat :=
  if 455 < delta then shrink (delta / 35) (places + 36) else places + 36 * delta / (delta + 38)
termination_by delta
decreasing_by omega

/-- The bias after a distance was written; `count` code points are written then. -/
def adapt (delta count : Nat) (first : Bool) : Nat :=
  let damped := if first then delta / 700 else delta / 2
  shrink (damped + damped / count) 0

/-- The digits of a distance, least significant first. The fuel is more than there are digits. -/
private def digitsFrom (bias : Nat) : Nat → Nat → Nat → List Char
  | 0, _, _ => []
  | fuel + 1, place, value =>
    let t := threshold place bias
    if value < t then [digit value]
    else digit (t + (value - t) % (36 - t)) :: digitsFrom bias fuel (place + 36) ((value - t) / (36 - t))

structure State where
  /-- Code points below it are written. -/
  point : Nat := 128
  delta : Nat := 0
  bias : Nat := 72
  /-- Number of code points written. -/
  written : Nat
  output : List Char

/-- Passes over the label once for one code point. -/
private def writePoint (basic : Nat) (state : State) (c : Nat) : State :=
  if c < state.point then { state with delta := state.delta + 1 }
  else if c == state.point then
    { state with
      output := state.output ++ digitsFrom state.bias (state.delta + 2) 36 state.delta
      bias := adapt state.delta (state.written + 1) (state.written == basic)
      delta := 0
      written := state.written + 1 }
  else state

/-- The label in ASCII, without the mark that tells that it is coded. -/
def encode (label : List Char) : List Char :=
  let points := label.map Char.toNat
  let basic := label.filter fun c => c.toNat < 128
  let start : State :=
    { written := basic.length, output := basic ++ if basic.isEmpty then [] else ['-'] }
  let extended := ((points.filter (128 ≤ ·)).mergeSort).eraseDups
  let final := extended.foldl (fun state point =>
    let moved := { state with
      delta := state.delta + (point - state.point) * (state.written + 1)
      point }
    let done := points.foldl (writePoint basic.length) moved
    { done with delta := done.delta + 1, point := point + 1 }) start
  final.output

end DocComment.Url.Punycode
