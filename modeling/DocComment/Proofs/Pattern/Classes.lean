import DocComment.Proofs.Pattern.Reading
import DocComment.Proofs.Text.Percent
import Mathlib.Data.List.TakeWhile

/-! Blanks, escapes and classes of a pattern that stands inside a longer one: what is read from the whole of a
text is read in the same way if the end of a group follows the text. -/
namespace DocComment.Pattern

/-- A text that closes a group. It has no line end, which a comment could stop at, and no name of a class
ends in it. -/
structure Closes (tail : List Char) : Prop where
  head : tail.head? = some ')'
  oneLine : '\n' ∉ tail
  noName : Text.stripStart [':', ']'] (tail.dropWhile (· != ':')) = none

variable {tail text rest after : List Char} {flags : Flags} {c : Char}

namespace Closes

theorem dropWhile_newline (closes : Closes tail) : tail.dropWhile (· != '\n') = [] := by
  rw [List.dropWhile_eq_nil_iff]
  intro c member
  exact bne_iff_ne.mpr fun same => closes.oneLine (same ▸ member)

end Closes

theorem skipVerbose_nil (fuel : Nat) : skipVerbose flags fuel [] = [] := by
  cases fuel <;> rfl

theorem skipVerbose_closes (closes : Closes tail) (fuel : Nat) : skipVerbose flags fuel tail = tail := by
  obtain ⟨head, -, -⟩ := closes
  cases fuel with
  | zero => rfl
  | succ fuel =>
    cases tail with
    | nil => rfl
    | cons c rest =>
      cases head
      rw [skipVerbose]
      simp [(by decide : Unicode.isWhite ')' = false)]

/-- What is skipped in a text is skipped if more follows. A comment at the end of the text may go on, and
then it reaches the end of the longer text as well. -/
theorem skipVerbose_append (closes : Closes tail) {n m : Nat} (enough : text.length ≤ n)
    (longer : (text ++ tail).length ≤ m) :
    skipVerbose flags m (text ++ tail) = skipVerbose flags n text ++ tail ∨
      skipVerbose flags n text = [] ∧ skipVerbose flags m (text ++ tail) = [] := by
  induction n generalizing m text with
  | zero =>
    rw [List.eq_nil_of_length_eq_zero (Nat.le_zero.mp enough)]
    exact .inl (skipVerbose_closes closes m)
  | succ n ih =>
    cases text with
    | nil => exact .inl (skipVerbose_closes closes m)
    | cons c rest =>
      simp only [List.cons_append, List.length_cons] at enough longer ⊢
      obtain ⟨m, rfl⟩ : ∃ k, m = k + 1 := ⟨m - 1, by omega⟩
      rw [skipVerbose, skipVerbose]
      split
      · exact .inl rfl
      split
      · exact ih (by omega) (by omega)
      split
      · rw [List.dropWhile_append, closes.dropWhile_newline]
        have shorter : (rest.dropWhile (· != '\n')).length ≤ rest.length := List.length_dropWhile_le ..
        cases comment : rest.dropWhile (· != '\n') with
        | nil => exact .inr (by simp [skipVerbose_nil])
        | cons d others =>
          rw [comment] at shorter
          simp only [List.length_cons, List.length_append] at shorter longer
          exact @ih others m (by omega) (by simp; omega)
      · exact .inl rfl

theorem skipVerbose_length_le (flags : Flags) (fuel : Nat) (text : List Char) :
    (skipVerbose flags fuel text).length ≤ text.length := by
  induction fuel generalizing text with
  | zero => exact Nat.le_refl _
  | succ fuel ih =>
    cases text with
    | nil => exact Nat.le_refl _
    | cons c rest =>
      have comment : ((rest.dropWhile (· != '\n')).drop 1).length ≤ rest.length := by
        rw [List.length_drop]
        exact (Nat.sub_le ..).trans (List.length_dropWhile_le ..)
      rw [skipVerbose]
      split
      · exact Nat.le_refl _
      split
      · exact (ih rest).trans (Nat.le_succ _)
      split
      · exact (ih _).trans (comment.trans (Nat.le_succ _))
      · exact Nat.le_refl _

theorem skipSpace_length_le (flags : Flags) (text : List Char) : (skipSpace flags text).length ≤ text.length :=
  skipVerbose_length_le flags text.length text

theorem skipSpace_append (closes : Closes tail) (more : skipSpace flags text ≠ []) :
    skipSpace flags (text ++ tail) = skipSpace flags text ++ tail :=
  (skipVerbose_append closes (Nat.le_refl _) (Nat.le_refl _)).resolve_right fun gone => more gone.1

theorem skipSpace_append_cons (closes : Closes tail) (next : skipSpace flags text = c :: rest) :
    skipSpace flags (text ++ tail) = c :: (rest ++ tail) := by
  rw [skipSpace_append closes (by simp [next]), next, List.cons_append]

theorem skipSpace_append_nil (closes : Closes tail) (stop : skipSpace flags text = []) :
    skipSpace flags (text ++ tail) = tail ∨ skipSpace flags (text ++ tail) = [] :=
  (skipVerbose_append closes (Nat.le_refl _) (Nat.le_refl _)).imp
    (fun same => by rw [skipSpace, same, ← skipSpace, stop, List.nil_append]) And.right

theorem drop_length_takeWhile (stays : Char → Bool) (text : List Char) :
    text.drop (text.takeWhile stays).length = text.dropWhile stays := by
  induction text with
  | nil => rfl
  | cons c rest ih =>
    by_cases stay : stays c = true
    · simpa [stay] using ih
    · simp [stay]

/-- What stops before the end of a text stops there in a longer one, too. -/
theorem takeWhile_append_of_stop {stays : Char → Bool} (stop : text.dropWhile stays ≠ []) (tail : List Char) :
    (text ++ tail).takeWhile stays = text.takeWhile stays ∧
      (text ++ tail).dropWhile stays = text.dropWhile stays ++ tail := by
  have inside : (text.takeWhile stays).length ≠ text.length := by
    intro all
    have parts := congrArg List.length (List.takeWhile_append_dropWhile (p := stays) (l := text))
    rw [List.length_append, all, Nat.add_eq_left, List.length_eq_zero_iff] at parts
    exact stop parts
  rw [List.takeWhile_append, if_neg inside, List.dropWhile_append, if_neg (by simpa using stop)]
  exact ⟨rfl, rfl⟩

theorem braced_append (closes : Closes tail) {n m : Nat} (enough : n ≤ m) {written : List Char}
    (read : braced flags n text = some (written, after)) :
    braced flags m (text ++ tail) = some (written, after ++ tail) := by
  induction n generalizing m text written with
  | zero => cases read
  | succ n ih =>
    obtain ⟨m, rfl⟩ : ∃ k, m = k + 1 := ⟨m - 1, by omega⟩
    cases next : skipSpace flags text with
    | nil => simp [braced, next] at read
    | cons c rest =>
      simp only [braced, next] at read
      simp only [braced, skipSpace_append_cons closes next]
      split at read
      case isTrue close =>
        rw [if_pos close]
        cases read
        rfl
      case isFalse inside =>
        obtain ⟨⟨more, rest⟩, later, same⟩ := Option.map_eq_some_iff.mp read
        cases same
        rw [if_neg inside, ih (by omega) later]
        rfl

theorem counted_append (closes : Closes tail) {count : Nat} {written : List Char}
    (read : counted flags count text = some (written, after)) :
    counted flags count (text ++ tail) = some (written, after ++ tail) := by
  induction count generalizing text written with
  | zero =>
    cases read
    rfl
  | succ count ih =>
    cases next : skipSpace flags text with
    | nil => simp [counted, next] at read
    | cons c rest =>
      simp only [counted, next] at read
      simp only [counted, skipSpace_append_cons closes next]
      obtain ⟨⟨more, rest⟩, later, same⟩ := Option.map_eq_some_iff.mp read
      cases same
      rw [ih later]
      rfl

theorem codeDigits_append (closes : Closes tail) {width : Nat} {digits : List Char} (positive : 0 < width)
    (read : codeDigits flags width text = some (digits, after)) :
    codeDigits flags width (text ++ tail) = some (digits, after ++ tail) := by
  obtain ⟨width, rfl⟩ : ∃ k, width = k + 1 := ⟨width - 1, by omega⟩
  cases next : skipSpace flags text with
  | nil => simp [codeDigits, counted, next] at read
  | cons c rest =>
    rw [codeDigits, next] at read
    rw [codeDigits, skipSpace_append_cons closes next]
    by_cases brace : c = '\x7b'
    · subst brace
      exact braced_append closes (by simp) read
    · split at read
      case h_1 same => exact absurd (List.cons.inj same).1 brace
      case h_2 =>
        split
        case h_1 same => exact absurd (List.cons.inj same).1 brace
        case h_2 => exact counted_append closes read

theorem hexAtom_append (closes : Closes tail) {width : Nat} {atom : Atom} (positive : 0 < width)
    (read : hexAtom flags width text = .ok (atom, after)) :
    hexAtom flags width (text ++ tail) = .ok (atom, after ++ tail) := by
  rw [hexAtom] at read ⊢
  split at read
  case h_2 => cases read
  case h_1 digits rest written =>
    rw [codeDigits_append closes positive written]
    split at read
    case h_2 => cases read
    case h_1 c number =>
      cases read
      simp only [number]

theorem propertyAfter_append (closes : Closes tail) {property : PropertyName × Bool}
    (read : propertyAfter flags text = some (property, after)) :
    propertyAfter flags (text ++ tail) = some (property, after ++ tail) := by
  cases next : skipSpace flags text with
  | nil => simp [propertyAfter, next] at read
  | cons c rest =>
    rw [propertyAfter, next] at read
    rw [propertyAfter, skipSpace_append_cons closes next]
    split at read
    case h_1 | h_2 => cases read
    case h_3 same =>
      cases same
      obtain ⟨⟨written, more⟩, braces, same⟩ := Option.map_eq_some_iff.mp read
      cases same
      have braces := braced_append (m := (rest ++ tail).length + 1) closes (by simp) braces
      simp only [braces, Option.map_some]
    case h_4 c rest noBackslash noBrace same =>
      cases same
      cases read
      split
      case h_1 none => cases none
      case h_2 same => exact (noBackslash (List.cons.inj same).1).elim
      case h_3 same => exact (noBrace (List.cons.inj same).1).elim
      case h_4 same =>
        cases same
        rfl

theorem propertyAtom_append (closes : Closes tail) {negated : Bool} {atom : Atom}
    (read : propertyAtom flags negated text = .ok (atom, after)) :
    propertyAtom flags negated (text ++ tail) = .ok (atom, after ++ tail) := by
  rw [propertyAtom] at read ⊢
  split at read
  case h_2 => cases read
  case h_1 property without rest named =>
    rw [propertyAfter_append closes named]
    obtain ⟨set, found, same⟩ := Except.exists_of_map read
    cases same
    simp only [found]
    rfl

theorem namedBoundary_append (closes : Closes tail) {atom : Atom}
    (read : namedBoundary flags text = .ok (atom, after)) :
    namedBoundary flags (text ++ tail) = .ok (atom, after ++ tail) := by
  rw [namedBoundary] at read ⊢
  split at read
  case h_2 => cases read
  case h_1 written rest braces =>
    rw [braced_append closes (by simp) braces]
    split at read
    case h_2 => cases read
    case h_1 anchor found =>
      cases read
      simp only [found]

theorem boundaryAtom_append (closes : Closes tail) {atom : Atom}
    (read : boundaryAtom flags text = .ok (atom, after)) :
    boundaryAtom flags (text ++ tail) = .ok (atom, after ++ tail) := by
  obtain ⟨more, rfl⟩ := List.head?_eq_some_iff.mp closes.head
  cases text with
  | nil =>
    cases read
    rfl
  | cons c rest =>
    by_cases brace : c = '\x7b'
    · subst brace
      rw [List.cons_append]
      cases next : skipSpace flags rest with
      | nil =>
        simp only [boundaryAtom, next] at read
        cases read
      | cons d others =>
        simp only [boundaryAtom, next] at read
        simp only [boundaryAtom, skipSpace_append_cons closes next]
        split at read
        case isTrue letter =>
          rw [if_pos letter]
          exact namedBoundary_append closes read
        case isFalse bounds =>
          rw [if_neg bounds]
          cases read
          rfl
    · have plain (others : List Char) : boundaryAtom flags (c :: others) = .ok (.anchor .wordBoundary, c :: others) := by
        rw [boundaryAtom]
        exact fun rest same => brace (List.cons.inj same).1
      rw [plain] at read
      cases read
      exact plain _

theorem stripStart_append {start : List Char} (closes : Closes tail) (noClose : ')' ∉ start)
    (text : List Char) :
    Text.stripStart start (text ++ tail) = (Text.stripStart start text).map (· ++ tail) := by
  induction start generalizing text with
  | nil => rfl
  | cons s start ih =>
    rw [List.mem_cons, not_or] at noClose
    cases text with
    | nil =>
      obtain ⟨rest, rfl⟩ := List.head?_eq_some_iff.mp closes.head
      simp [Text.stripStart, Ne.symm noClose.1]
    | cons c rest =>
      simp only [List.cons_append, Text.stripStart]
      split
      · exact ih noClose.2 rest
      · rfl

theorem escapeAtom_append (closes : Closes tail) {atom : Atom} (read : escapeAtom flags text = .ok (atom, after)) :
    escapeAtom flags (text ++ tail) = .ok (atom, after ++ tail) := by
  cases text with
  | nil => cases read
  | cons c rest =>
    rw [List.cons_append]
    simp only [escapeAtom] at read ⊢
    split at read
    case h_9 => exact boundaryAtom_append closes read
    case h_19 | h_20 | h_21 => exact hexAtom_append closes (by decide) read
    case h_22 | h_23 => exact propertyAtom_append closes read
    case h_24 =>
      split at read
      case isFalse => cases read
      case isTrue plain =>
        cases read
        simp [*]
    all_goals
      cases read
      rfl

theorem classAtom_append (closes : Closes tail) {atom : Atom} (read : classAtom flags text = .ok (atom, after)) :
    classAtom flags (text ++ tail) = .ok (atom, after ++ tail) := by
  cases text with
  | nil => cases read
  | cons c rest =>
    by_cases escaped : c = '\\'
    · subst escaped
      exact escapeAtom_append closes read
    · have plain (others : List Char) : classAtom flags (c :: others) = .ok (.char c, others) := by
        rw [classAtom]
        exact escaped
      rw [plain] at read
      cases read
      exact plain (after ++ tail)

/-- A character or an escaped class that is no start of a range. -/
def singleItem (flags : Flags) (atom : Atom) (next : List Char) : Except Fault (CharSet × List Char) :=
  (atomSet flags atom).map fun set => (set, next)

/-- A range, after its hyphen. -/
def rangeItem (flags : Flags) (first : Atom) (start : List Char) : Except Fault (CharSet × List Char) :=
  (classAtom flags start).bind fun (last, after) =>
    match first, last with
    | .char low, .char high => if low ≤ high then .ok (charSet flags low high, after) else .error .badRange
    | _, _ => .error .badRange

section Item

variable {atom : Atom} {first : List Char} {d : Char} {others : List Char}

theorem classItem_single (begins : classAtom flags text = .ok (atom, first))
    (next : skipSpace flags first = c :: rest)
    (single : c = '-' → ∃ d others, skipSpace flags rest = d :: others ∧ (d = ']' ∨ d = '-')) :
    classItem flags text = singleItem flags atom (c :: rest) := by
  have item : classItem flags text = (atomSet flags atom).bind fun set => .ok (set, c :: rest) := by
    rw [classItem, begins]
    simp only [bind, Except.bind, next]
    split
    case h_1 none => cases none
    case h_2 same =>
      cases same
      obtain ⟨d, others, start, bracket | hyphen⟩ := single rfl
      · rw [start, bracket]
        rfl
      · rw [start, hyphen]
        rfl
    case h_3 => rfl
  rw [item, singleItem]
  cases atomSet flags atom <;> rfl

theorem classItem_range (begins : classAtom flags text = .ok (atom, first))
    (next : skipSpace flags first = '-' :: rest) (start : skipSpace flags rest = d :: others)
    (range : ¬ (d = ']' ∨ d = '-')) : classItem flags text = rangeItem flags atom (d :: others) := by
  rw [not_or] at range
  rw [classItem, begins]
  simp only [bind, Except.bind]
  rw [next]
  simp [start, range, rangeItem]
  rfl

theorem singleItem_append {set : CharSet} (read : singleItem flags atom rest = .ok (set, after))
    (tail : List Char) : singleItem flags atom (rest ++ tail) = .ok (set, after ++ tail) := by
  obtain ⟨found, made, same⟩ := Except.exists_of_map read
  cases same
  rw [singleItem, made]
  rfl

theorem rangeItem_append (closes : Closes tail) {set : CharSet}
    (read : rangeItem flags atom text = .ok (set, after)) :
    rangeItem flags atom (text ++ tail) = .ok (set, after ++ tail) := by
  obtain ⟨⟨last, next⟩, high, read⟩ := Except.exists_of_bind read
  rw [rangeItem, classAtom_append closes high, Except.bind]
  dsimp only at read ⊢
  split at read
  case h_2 => cases read
  case h_1 low high =>
    split at read
    case isFalse => cases read
    case isTrue rising =>
      cases read
      exact if_pos rising

theorem classItem_append (closes : Closes tail) {set : CharSet} (read : classItem flags text = .ok (set, after)) :
    classItem flags (text ++ tail) = .ok (set, after ++ tail) := by
  obtain ⟨⟨atom, first⟩, begins, more⟩ := Except.exists_of_bind read
  have begins' := classAtom_append closes begins
  cases next : skipSpace flags first with
  | nil =>
    simp only [next] at more
    cases more
  | cons c rest =>
    have next' := skipSpace_append_cons closes next
    by_cases hyphen : c = '-'
    case neg =>
      rw [classItem_single begins next fun same => absurd same hyphen] at read
      rw [classItem_single begins' next' fun same => absurd same hyphen]
      exact singleItem_append read tail
    subst hyphen
    cases start : skipSpace flags rest with
    | nil =>
      simp only [next, start] at more
      cases more
    | cons d others =>
      have start' := skipSpace_append_cons closes start
      by_cases single : d = ']' ∨ d = '-'
      · rw [classItem_single begins next fun _ => ⟨d, others, start, single⟩] at read
        rw [classItem_single begins' next' fun _ => ⟨d, _, start', single⟩]
        exact singleItem_append read tail
      · rw [classItem_range begins next start single] at read
        rw [classItem_range begins' next' start' single]
        exact rangeItem_append closes read

end Item

/-- The class that a text names up to a colon and a bracket. -/
def classNamed? (body : List Char) : Option (CharSet × List Char) :=
  (Text.stripStart [':', ']'] (body.dropWhile (· != ':'))).bind fun after =>
    (asciiClass? (String.ofList (body.takeWhile (· != ':')))).map fun set => (set, after)

theorem classNamed?_append (closes : Closes tail) :
    classNamed? (text ++ tail) = (classNamed? text).map fun found => (found.1, found.2 ++ tail) := by
  rw [classNamed?, classNamed?]
  by_cases stop : text.dropWhile (· != ':') = []
  · simp [List.dropWhile_append, stop, closes.noName, Text.stripStart]
  · obtain ⟨same, longer⟩ := takeWhile_append_of_stop stop tail
    rw [same, longer, stripStart_append closes (by decide : ')' ∉ [':', ']'])]
    cases Text.stripStart [':', ']'] (text.dropWhile (· != ':')) with
    | none => rfl
    | some after =>
      simp only [Option.map_some, Option.bind_some]
      cases asciiClass? (String.ofList (text.takeWhile (· != ':'))) <;> rfl

theorem match_classNamed? (text : List Char) (build : CharSet → CharSet) :
    (match text.drop (text.takeWhile (· != ':')).length,
        asciiClass? (String.ofList (text.takeWhile (· != ':'))) with
      | ':' :: ']' :: after, some set => some (build set, after)
      | _, _ => none) = (classNamed? text).map fun found => (build found.1, found.2) := by
  rw [classNamed?, drop_length_takeWhile]
  generalize text.dropWhile (· != ':') = stop
  generalize asciiClass? _ = named
  split
  case h_1 => rfl
  case h_2 other =>
    cases named with
    | none => cases Text.stripStart [':', ']'] stop <;> rfl
    | some set =>
      cases stripped : Text.stripStart [':', ']'] stop with
      | none => rfl
      | some after => exact absurd (Text.stripStart_eq_some stripped) fun same => other after set same rfl

/-- A caret in front, and what follows it. -/
def negation : List Char → Bool × List Char
  | '^' :: body => (true, body)
  | body => (false, body)

theorem negation_append (closes : Closes tail) (text : List Char) :
    negation (text ++ tail) = ((negation text).1, (negation text).2 ++ tail) := by
  obtain ⟨more, rfl⟩ := List.head?_eq_some_iff.mp closes.head
  cases text with
  | nil => rfl
  | cons c rest =>
    by_cases caret : c = '^'
    · subst caret
      rfl
    · have plain (others : List Char) : negation (c :: others) = (false, c :: others) := by
        rw [negation]
        exact fun body same => caret (List.cons.inj same).1
      rw [List.cons_append, plain, plain, List.cons_append]

def namedSet (flags : Flags) (negated : Bool) (set : CharSet) : CharSet :=
  let set := if flags.caseless then .caseless set else set
  if negated then .compl set else set

theorem namedClass?_colon (rest : List Char) : namedClass? flags (':' :: rest) =
    (classNamed? (negation rest).2).map fun found => (namedSet flags (negation rest).1 found.1, found.2) := by
  rw [← match_classNamed?]
  rfl

theorem namedClass?_append (closes : Closes tail) (text : List Char) :
    namedClass? flags (text ++ tail) = (namedClass? flags text).map fun found => (found.1, found.2 ++ tail) := by
  cases text with
  | nil =>
    obtain ⟨more, rfl⟩ := List.head?_eq_some_iff.mp closes.head
    rfl
  | cons c rest =>
    rw [List.cons_append]
    by_cases colon : c = ':'
    · subst colon
      rw [namedClass?_colon, namedClass?_colon, negation_append closes, classNamed?_append closes]
      cases classNamed? (negation rest).2 <;> rfl
    · have none (others : List Char) : namedClass? flags (c :: others) = none := by
        rw [namedClass?]
        exact fun body same => colon (List.cons.inj same).1
      rw [none, none]
      rfl

/-- What a class starts with after its caret. -/
def opening (flags : Flags) (negated : Bool) (text : List Char) : Bool × ClassPart × List Char :=
  let hyphens := (text.takeWhile (· == '-')).length
  let rest := skipSpace flags (text.drop hyphens)
  let part : ClassPart := if hyphens == 0 then {} else { set := charSet flags '-' '-' }
  match if hyphens == 0 then rest else [] with
  | ']' :: after => (negated, part.add (charSet flags ']' ']'), after)
  | _ => (negated, part, rest)

def afterCaret (flags : Flags) (text : List Char) : Bool × List Char :=
  match text with
  | '^' :: rest => (true, skipSpace flags rest)
  | _ => (false, text)

theorem classStart_eq : classStart flags text =
    opening flags (afterCaret flags (skipSpace flags text)).1 (afterCaret flags (skipSpace flags text)).2 :=
  rfl

theorem opening_append (closes : Closes tail) {negated first : Bool} {part : ClassPart}
    (start : opening flags negated text = (first, part, rest)) (more : rest ≠ []) :
    text ≠ [] ∧ opening flags negated (text ++ tail) = (first, part, rest ++ tail) := by
  simp only [opening, drop_length_takeWhile] at start ⊢
  cases next : skipSpace flags (text.dropWhile (· == '-')) with
  | nil =>
    rw [next] at start
    split at start
    case h_1 after bracket => split at bracket <;> cases bracket
    case h_2 => cases start; exact absurd rfl more
  | cons c others =>
    rw [next] at start
    have stop : text.dropWhile (· == '-') ≠ [] := by
      intro none
      rw [none] at next
      cases next
    have inside : text ≠ [] := by
      rintro rfl
      exact stop rfl
    obtain ⟨same, longer⟩ := takeWhile_append_of_stop stop tail
    refine ⟨inside, ?_⟩
    rw [longer, skipSpace_append_cons closes next, same]
    generalize (text.takeWhile (· == '-')).length = hyphens at start
    cases hyphens with
    | succ hyphens =>
      cases start
      rfl
    | zero =>
      by_cases bracket : c = ']'
      · subst bracket
        cases start
        rfl
      · split at start
        case h_1 same => exact absurd (List.cons.inj same).1 bracket
        case h_2 =>
          cases start
          split
          case h_1 same => exact absurd (List.cons.inj same).1 bracket
          case h_2 => rfl

theorem afterCaret_append (closes : Closes tail) (inside : (afterCaret flags (skipSpace flags text)).2 ≠ []) :
    afterCaret flags (skipSpace flags (text ++ tail)) =
      ((afterCaret flags (skipSpace flags text)).1, (afterCaret flags (skipSpace flags text)).2 ++ tail) := by
  cases next : skipSpace flags text with
  | nil => rw [next] at inside; exact absurd rfl inside
  | cons c rest =>
    rw [next] at inside
    rw [skipSpace_append_cons closes next]
    by_cases caret : c = '^'
    · subst caret
      exact congrArg (Prod.mk true) (skipSpace_append closes inside)
    · have plain (others : List Char) : afterCaret flags (c :: others) = (false, c :: others) := by
        rw [afterCaret]
        exact fun body same => caret (List.cons.inj same).1
      rw [plain, plain, List.cons_append]

theorem classStart_append (closes : Closes tail) {negated : Bool} {part : ClassPart}
    (start : classStart flags text = (negated, part, rest)) (more : rest ≠ []) :
    classStart flags (text ++ tail) = (negated, part, rest ++ tail) := by
  rw [classStart_eq] at start ⊢
  obtain ⟨inside, longer⟩ := opening_append closes start more
  rw [afterCaret_append closes inside, longer]

/-- An operator is a character that stands twice. -/
def IsOperator (c : Char) (rest : List Char) : Prop :=
  rest.head? = some c ∧ (c = '&' ∨ c = '-' ∨ c = '~')

section Body

variable {n : Nat} {negated : Bool} {part : ClassPart} {set : CharSet}

theorem classBody_item (next : skipSpace flags text = c :: rest) (plain : c ≠ ']' ∧ c ≠ '[')
    (single : ¬ IsOperator c rest) : classBody flags (n + 1) negated part text =
      (classItem flags (c :: rest)).bind fun (set, after) => classBody flags n negated (part.add set) after := by
  rw [classBody, next]
  split
  case h_1 none => cases none
  case h_2 same => exact absurd (List.cons.inj same).1 plain.1
  case h_3 same => cases same; exact absurd ⟨rfl, by decide⟩ single
  case h_4 same => cases same; exact absurd ⟨rfl, by decide⟩ single
  case h_5 same => cases same; exact absurd ⟨rfl, by decide⟩ single
  case h_6 same => exact absurd (List.cons.inj same).1 plain.2
  case h_7 => cases classItem flags (c :: rest) <;> rfl

theorem classBody_named (next : skipSpace flags text = '[' :: rest)
    (named : namedClass? flags rest = some (set, after)) :
    classBody flags (n + 1) negated part text = classBody flags n negated (part.add set) after := by
  rw [classBody, next]
  simp only [named]

theorem classBody_nested {inner : Bool} {opened : ClassPart} {start : List Char}
    (next : skipSpace flags text = '[' :: rest) (unnamed : namedClass? flags rest = none)
    (opens : classStart flags rest = (inner, opened, start)) :
    classBody flags (n + 1) negated part text = (classBody flags n inner opened start).bind
      fun (set, after) => classBody flags n negated (part.add set) after := by
  rw [classBody, next]
  simp only [unnamed, opens]
  cases classBody flags n inner opened start <;> rfl

end Body

theorem nonempty_of_classBody {n : Nat} {negated : Bool} {part : ClassPart} {found : CharSet × List Char}
    (read : classBody flags n negated part text = .ok found) : text ≠ [] := by
  rintro rfl
  cases n <;> cases read

/-- Nothing that follows a class makes an operator of its last character. -/
theorem not_isOperator_append (closes : Closes tail) (single : ¬ IsOperator c rest) :
    ¬ IsOperator c (rest ++ tail) := by
  rintro ⟨doubled, kind⟩
  cases rest with
  | nil =>
    rw [List.nil_append, closes.head] at doubled
    cases doubled
    revert kind
    decide
  | cons d others => exact single ⟨doubled, kind⟩

theorem classBody_append (closes : Closes tail) {n m : Nat} (enough : n ≤ m) {negated : Bool} {part : ClassPart}
    {set : CharSet} (read : classBody flags n negated part text = .ok (set, after)) :
    classBody flags m negated part (text ++ tail) = .ok (set, after ++ tail) := by
  induction n generalizing m negated part text set after with
  | zero => cases read
  | succ n ih =>
    obtain ⟨m, rfl⟩ : ∃ k, m = k + 1 := ⟨m - 1, by omega⟩
    have enough : n ≤ m := by omega
    cases next : skipSpace flags text with
    | nil =>
      rw [classBody, next] at read
      cases read
    | cons c rest =>
      have longer := skipSpace_append_cons closes next
      by_cases bracket : c = ']'
      · subst bracket
        rw [classBody, next] at read
        rw [classBody, longer]
        cases read
        rfl
      by_cases nested : c = '['
      · subst nested
        have lookup : namedClass? flags (rest ++ tail) = _ := namedClass?_append closes rest
        cases named : namedClass? flags rest with
        | some found =>
          rw [classBody_named next named] at read
          rw [classBody_named longer (lookup.trans (by rw [named]; rfl))]
          exact ih enough read
        | none =>
          rcases opens : classStart flags rest with ⟨inner, opened, start⟩
          rw [classBody_nested next named opens] at read
          obtain ⟨found, inside, read⟩ := Except.exists_of_bind read
          have opens' := classStart_append closes opens (nonempty_of_classBody inside)
          rw [classBody_nested longer (lookup.trans (by rw [named]; rfl)) opens', ih enough inside]
          exact ih enough read
      by_cases operator : IsOperator c rest
      · obtain ⟨doubled, kind⟩ := operator
        obtain ⟨others, rfl⟩ := List.head?_eq_some_iff.mp doubled
        rcases kind with rfl | rfl | rfl
        all_goals
          rw [classBody, next] at read
          rw [classBody, longer]
          exact ih enough read
      · rw [classBody_item next ⟨bracket, nested⟩ operator] at read
        rw [classBody_item longer ⟨bracket, nested⟩ (not_isOperator_append closes operator)]
        obtain ⟨found, member, read⟩ := Except.exists_of_bind read
        rw [← List.cons_append, classItem_append closes member]
        exact ih enough read

theorem charClass_append (closes : Closes tail) {set : CharSet} (read : charClass flags text = .ok (set, after)) :
    charClass flags (text ++ tail) = .ok (set, after ++ tail) := by
  rw [charClass] at read ⊢
  cases opens : classStart flags text with
  | mk negated opened =>
    obtain ⟨part, start⟩ := opened
    rw [opens] at read
    rw [classStart_append closes opens (nonempty_of_classBody read)]
    exact classBody_append closes (by simp) read

end DocComment.Pattern
