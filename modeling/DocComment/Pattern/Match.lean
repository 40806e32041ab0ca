import DocComment.Pattern.Basic

namespace DocComment.Pattern

/-- A place in a text, with the groups captured on the way to it. -/
structure Spot where
  offset : Nat := 0
  /-- The characters before, nearest first. -/
  before : List Char := []
  rest : List Char
  /-- Captured groups as index, start and end. The last capture of a group comes first. -/
  captures : List (Nat × Nat × Nat) := []
  deriving Repr, DecidableEq

def Anchor.holds (anchor : Anchor) (spot : Spot) : Bool :=
  let wordBefore := spot.before.head?.any Unicode.isWord
  let wordAfter := spot.rest.head?.any Unicode.isWord
  match anchor with
  | .textStart => spot.before.isEmpty
  | .textEnd => spot.rest.isEmpty
  | .lineStart => spot.before.head?.all (· == '\n')
  | .lineEnd => spot.rest.head?.all (· == '\n')
  | .wordBoundary => wordBefore != wordAfter
  | .noWordBoundary => wordBefore == wordAfter
  | .wordStart => !wordBefore && wordAfter
  | .wordEnd => wordBefore && !wordAfter
  | .wordStartHalf => !wordBefore
  | .wordEndHalf => !wordAfter

/-- Keeps the first of the spots at each offset. What follows can only depend on the offset, so the
others would never be preferred. -/
def distinctSpots (spots : List Spot) : List Spot :=
  (spots.foldl (fun (seen, kept) spot =>
    if seen.contains spot.offset then (seen, kept) else (spot.offset :: seen, spot :: kept))
    (([], []) : List Nat × List Spot)).2.reverse

/-- Exactly `count` times. -/
def repeatExactly (step : Spot → List Spot) : Nat → List Spot → List Spot
  | 0, spots => spots
  | count + 1, spots => repeatExactly step count (distinctSpots (spots.flatMap step))

/-- At most `count` times. -/
def repeatAtMost (step : Spot → List Spot) (greedy : Bool) : Nat → Spot → List Spot
  | 0, spot => [spot]
  | count + 1, spot =>
    let more := (step spot).flatMap (repeatAtMost step greedy count)
    distinctSpots (if greedy then more ++ [spot] else spot :: more)

/-- One or more times from a spot. Visited offsets are not started from again; the ends found so
far come in order of preference. -/
def repeatOnward (step : Spot → List Spot) (greedy : Bool) :
    Nat → Spot → List Nat × List Spot → List Nat × List Spot
  | 0, _, found => found
  | fuel + 1, spot, (visited, ends) =>
    if visited.contains spot.offset then (visited, ends)
    else (step spot).foldl (fun found next =>
      if greedy then
        let (visited, ends) := repeatOnward step greedy fuel next found
        (visited, ends ++ [next])
      else repeatOnward step greedy fuel next (found.1, found.2 ++ [next]))
      (spot.offset :: visited, ends)

def repeatSome (step : Spot → List Spot) (greedy : Bool) (spot : Spot) : List Spot :=
  distinctSpots (repeatOnward step greedy (spot.rest.length + 2) spot ([], [])).2

def repeatAny (step : Spot → List Spot) (greedy : Bool) (spot : Spot) : List Spot :=
  let more := repeatSome step greedy spot
  distinctSpots (if greedy then more ++ [spot] else spot :: more)

/-- The ends of matches from a spot, the preferred one first and one for each offset. -/
def Regex.ends : Regex → Spot → List Spot
  | .empty, spot => [spot]
  | .set members, spot =>
    match spot.rest with
    | c :: rest =>
      if members.contains c then
        [{ spot with offset := spot.offset + 1, before := c :: spot.before, rest }]
      else []
    | [] => []
  | .anchor condition, spot => if condition.holds spot then [spot] else []
  | .cat first second, spot => distinctSpots ((first.ends spot).flatMap second.ends)
  | .alt first second, spot => distinctSpots (first.ends spot ++ second.ends spot)
  | .capture index body, spot =>
    (body.ends spot).map fun last =>
      { last with captures := (index, spot.offset, last.offset) :: last.captures }
  | .loop body least most greedy, spot =>
    match most with
    | some most =>
      distinctSpots ((repeatExactly body.ends least [spot]).flatMap
        (repeatAtMost body.ends greedy (most - least)))
    | none =>
      if least == 0 then repeatAny body.ends greedy spot
      else distinctSpots ((repeatExactly body.ends (least - 1) [spot]).flatMap
        (repeatSome body.ends greedy))

/-- The preferred match that starts at a spot, or else at the next one. -/
def searchFrom (regex : Regex) : (rest : List Char) → Nat → List Char → Option (Nat × Spot)
  | rest, offset, before =>
    match regex.ends { offset, before, rest } with
    | last :: _ => some (offset, last)
    | [] =>
      match rest with
      | [] => none
      | c :: rest => searchFrom regex rest (offset + 1) (c :: before)

/-- The leftmost match, as the offset where it starts and the spot where it ends. -/
def Regex.search (regex : Regex) (text : List Char) : Option (Nat × Spot) :=
  searchFrom regex text 0 []

def Regex.occursIn (regex : Regex) (text : List Char) : Bool :=
  (regex.search text).isSome

/-- The span of a captured group. -/
def Spot.group? (spot : Spot) (index : Nat) : Option (Nat × Nat) :=
  spot.captures.lookup index

end DocComment.Pattern
