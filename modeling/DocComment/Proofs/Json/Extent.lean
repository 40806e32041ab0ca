import DocComment.Json.Read
import DocComment.Proofs.Text.Percent

/-! How much of a text the readers of JSON use up. What they leave is an end of the text, and a string that
they read is no longer than the text, whatever escapes it is written with. -/
namespace DocComment.Json

open Text (byteLength byteLength_cons byteLength_le_of_suffix)

theorem hex4?_extent {text rest : List Char} {code : Nat} (read : hex4? text = some (code, rest)) :
    rest <:+ text ∧ 4 + byteLength rest ≤ byteLength text := by
  unfold hex4? at read
  split at read
  · rename_i a b c d others
    split at read <;> cases read
    have sizes : 0 < a.utf8Size ∧ 0 < b.utf8Size ∧ 0 < c.utf8Size ∧ 0 < d.utf8Size :=
      ⟨a.utf8Size_pos, b.utf8Size_pos, c.utf8Size_pos, d.utf8Size_pos⟩
    refine ⟨⟨[a, b, c, d], rfl⟩, ?_⟩
    simp only [byteLength_cons]
    omega
  · cases read

/-- No character is longer than its escape. -/
theorem escape?_extent {text rest : List Char} {c : Char} (read : escape? text = some (c, rest)) :
    rest <:+ text ∧ c.utf8Size + byteLength rest ≤ byteLength text := by
  have longest := c.utf8Size_le_four
  unfold escape? at read
  split at read
  case h_9 body =>
    obtain ⟨⟨high, after⟩, digits, found⟩ := Option.bind_eq_some_iff.mp read
    obtain ⟨afterEnds, size⟩ := hex4?_extent digits
    have marked := afterEnds.trans (List.suffix_cons 'u' body)
    rw [byteLength_cons]
    dsimp only at found
    split at found
    · split at found
      · rename_i lowText
        obtain ⟨⟨low, last⟩, lowDigits, kept⟩ := Option.bind_eq_some_iff.mp found
        obtain ⟨lastEnds, lowSize⟩ := hex4?_extent lowDigits
        dsimp only at kept
        split at kept
        · obtain ⟨-, rfl⟩ := Prod.mk.inj (Option.some.inj kept)
          have escaped : lowText <:+ '\\' :: 'u' :: lowText := ⟨['\\', 'u'], rfl⟩
          have shorter := byteLength_le_of_suffix escaped
          exact ⟨(lastEnds.trans escaped).trans marked, by omega⟩
        · cases kept
      · cases found
    · split at found <;> cases found
      exact ⟨marked, by omega⟩
  case h_10 => cases read
  all_goals
    cases read
    refine ⟨List.suffix_cons _ _, Nat.le_trans ?_ (Nat.le_of_eq (byteLength_cons _ _).symm)⟩
    exact Nat.add_le_add_right (by decide) _

theorem stringBody?_extent {fuel : Nat} {text chars rest : List Char}
    (read : stringBody? fuel text = some (chars, rest)) :
    rest <:+ text ∧ byteLength chars ≤ byteLength text := by
  induction fuel generalizing text chars with
  | zero => cases read
  | succ fuel ih =>
    cases text with
    | nil => cases read
    | cons c text =>
      rw [stringBody?] at read
      split at read
      · cases read
        exact ⟨List.suffix_cons _ _, Nat.zero_le _⟩
      · split at read
        · obtain ⟨⟨d, after⟩, escaped, read⟩ := Option.bind_eq_some_iff.mp read
          obtain ⟨⟨others, last⟩, body, same⟩ := Option.map_eq_some_iff.mp read
          cases same
          obtain ⟨afterEnds, size⟩ := escape?_extent escaped
          obtain ⟨restEnds, shorter⟩ := ih body
          refine ⟨(restEnds.trans afterEnds).trans (List.suffix_cons _ _), ?_⟩
          rw [byteLength_cons, byteLength_cons]
          omega
        · split at read
          · cases read
          · obtain ⟨⟨others, last⟩, body, same⟩ := Option.map_eq_some_iff.mp read
            cases same
            obtain ⟨restEnds, shorter⟩ := ih body
            refine ⟨restEnds.trans (List.suffix_cons _ _), ?_⟩
            rw [byteLength_cons, byteLength_cons]
            omega

theorem skipBlank_suffix (text : List Char) : skipBlank text <:+ text :=
  List.dropWhile_suffix _

theorem suffix_of_skipBlank {text rest : List Char} {c : Char} (skipped : skipBlank text = c :: rest) :
    rest <:+ text := by
  have ending := skipBlank_suffix text
  rw [skipped] at ending
  exact (List.suffix_cons c rest).trans ending

theorem wholeDigits?_suffix {text digits rest : List Char} (read : wholeDigits? text = some (digits, rest)) :
    rest <:+ text := by
  unfold wholeDigits? at read
  split at read <;> cases read <;> exact List.drop_suffix _ _

theorem fraction?_suffix {text digits rest : List Char} (read : fraction? text = some (digits, rest)) :
    rest <:+ text := by
  unfold fraction? at read
  split at read
  · split at read <;> cases read
    exact (List.drop_suffix _ _).trans (List.suffix_cons _ _)
  · cases read
    exact List.suffix_rfl

theorem exponent?_suffix {text digits rest : List Char} (read : exponent? text = some (digits, rest)) :
    rest <:+ text := by
  unfold exponent? at read
  split at read
  · rename_i c body
    split at read
    · dsimp only at read
      split at read <;> cases read
      refine (List.drop_suffix _ _).trans (List.IsSuffix.trans ?_ (List.suffix_cons c body))
      split
      · exact List.suffix_cons _ _
      · exact List.suffix_cons _ _
      · exact List.suffix_rfl
    · cases read
      exact List.suffix_rfl
  · cases read
    exact List.suffix_rfl

/-- No string in a value is longer than this, the names of members left aside. -/
inductive Within (room : Nat) : Json → Prop where
  | null : Within room .null
  | bool (value : Bool) : Within room (.bool value)
  | integer (value : Int) : Within room (.integer value)
  | decimal (written : String) : Within room (.decimal written)
  | string {text : String} (fits : byteLength text.toList ≤ room) : Within room (.string text)
  | array {items : List Json} (each : ∀ item ∈ items, Within room item) : Within room (.array items)
  | object {members : List (String × Json)} (each : ∀ member ∈ members, Within room member.2) :
      Within room (.object members)

theorem Within.mono {value : Json} {room more : Nat} (within : value.Within room) (grows : room ≤ more) :
    value.Within more := by
  induction within with
  | null => exact .null
  | bool value => exact .bool value
  | integer value => exact .integer value
  | decimal written => exact .decimal written
  | string fits => exact .string (Nat.le_trans fits grows)
  | array _ ih => exact .array ih
  | object _ ih => exact .object ih

theorem unsigned_suffix (text : List Char) :
    (match text with | '-' :: rest => (true, rest) | _ => (false, text)).2 <:+ text := by
  split
  · exact List.suffix_cons _ _
  · exact List.suffix_rfl

theorem number?_extent {text rest : List Char} {value : Json} (read : number? text = some (value, rest))
    (room : Nat) : rest <:+ text ∧ value.Within room := by
  unfold number? at read
  dsimp only at read
  obtain ⟨⟨digits, afterWhole⟩, whole, found⟩ := Option.bind_eq_some_iff.mp read
  obtain ⟨⟨fraction, afterFraction⟩, part, found⟩ := Option.bind_eq_some_iff.mp found
  obtain ⟨⟨exponent, after⟩, power, same⟩ := Option.map_eq_some_iff.mp found
  have ending := ((exponent?_suffix power).trans (fraction?_suffix part)).trans
    ((wholeDigits?_suffix whole).trans (unsigned_suffix text))
  split at same
  all_goals
    dsimp only at same
    split at same <;> cases same
    · exact ⟨ending, .integer _⟩
    · exact ⟨ending, .decimal _⟩

theorem literal?_extent {word : String} {value literal : Json} {text rest : List Char}
    (read : literal? word literal text = some (value, rest)) : rest <:+ text ∧ value = literal := by
  obtain ⟨after, stripped, same⟩ := Option.map_eq_some_iff.mp read
  cases same
  exact ⟨⟨_, (Text.stripStart_eq_some stripped).symm⟩, rfl⟩

/-- What a reader leaves is an end of the text, and what it gives is within the text. -/
def Confined (reader : List Char → Option (α × List Char)) (within : Nat → α → Prop) : Prop :=
  ∀ text value rest, reader text = some (value, rest) →
    rest <:+ text ∧ within (byteLength text) value

def ItemsWithin (room : Nat) (items : List Json) : Prop :=
  ∀ item ∈ items, item.Within room

def MembersWithin (room : Nat) (members : List (String × Json)) : Prop :=
  ∀ member ∈ members, member.2.Within room

variable {fuel : Nat}

theorem value?_confined (items : Confined (items? fuel) ItemsWithin)
    (members : Confined (members? fuel) MembersWithin) :
    Confined (value? (fuel + 1)) fun room value => value.Within room := by
  intro text value rest read
  unfold value? at read
  dsimp only at read
  split at read
  case h_1 body start =>
    have inner := suffix_of_skipBlank start
    split at read
    · rename_i closed
      cases read
      exact ⟨(suffix_of_skipBlank closed).trans inner, .object (by simp)⟩
    · obtain ⟨⟨_, after⟩, found, same⟩ := Option.map_eq_some_iff.mp read
      cases same
      obtain ⟨ending, all⟩ := members _ _ _ found
      refine ⟨ending.trans inner, .object fun member among => ?_⟩
      exact (all member among).mono (byteLength_le_of_suffix inner)
  case h_2 body start =>
    have inner := suffix_of_skipBlank start
    split at read
    · rename_i closed
      cases read
      exact ⟨(suffix_of_skipBlank closed).trans inner, .array (by simp)⟩
    · obtain ⟨⟨_, after⟩, found, same⟩ := Option.map_eq_some_iff.mp read
      cases same
      obtain ⟨ending, all⟩ := items _ _ _ found
      refine ⟨ending.trans inner, .array fun item among => ?_⟩
      exact (all item among).mono (byteLength_le_of_suffix inner)
  case h_3 body start =>
    have inner := suffix_of_skipBlank start
    obtain ⟨⟨chars, after⟩, found, same⟩ := Option.map_eq_some_iff.mp read
    cases same
    obtain ⟨ending, size⟩ := stringBody?_extent found
    refine ⟨ending.trans inner, .string ?_⟩
    rw [String.toList_ofList]
    exact Nat.le_trans size (byteLength_le_of_suffix inner)
  case h_4 | h_5 | h_6 =>
    obtain ⟨ending, rfl⟩ := literal?_extent read
    exact ⟨ending.trans (skipBlank_suffix text), by constructor⟩
  case h_7 =>
    obtain ⟨ending, within⟩ := number?_extent read (byteLength text)
    exact ⟨ending.trans (skipBlank_suffix text), within⟩

theorem items?_confined (values : Confined (value? fuel) fun room value => value.Within room)
    (later : Confined (items? fuel) ItemsWithin) : Confined (items? (fuel + 1)) ItemsWithin := by
  intro text items rest read
  rw [items?] at read
  obtain ⟨⟨item, after⟩, first, found⟩ := Option.bind_eq_some_iff.mp read
  obtain ⟨afterEnds, within⟩ := values text item after first
  dsimp only at found
  split at found
  · rename_i separated
    obtain ⟨⟨others, last⟩, more, same⟩ := Option.map_eq_some_iff.mp found
    cases same
    have inner := (suffix_of_skipBlank separated).trans afterEnds
    obtain ⟨ending, all⟩ := later _ _ _ more
    refine ⟨ending.trans inner, List.forall_mem_cons.mpr ⟨within, fun other member => ?_⟩⟩
    exact (all other member).mono (byteLength_le_of_suffix inner)
  · rename_i closed
    cases found
    exact ⟨(suffix_of_skipBlank closed).trans afterEnds, List.forall_mem_singleton.mpr within⟩
  · cases found

theorem members?_confined (values : Confined (value? fuel) fun room value => value.Within room)
    (later : Confined (members? fuel) MembersWithin) :
    Confined (members? (fuel + 1)) MembersWithin := by
  intro text members rest read
  rw [members?] at read
  split at read
  · rename_i quoted
    obtain ⟨⟨name, afterName⟩, named, found⟩ := Option.bind_eq_some_iff.mp read
    have nameEnds := (stringBody?_extent named).1.trans (suffix_of_skipBlank quoted)
    dsimp only at found
    split at found
    · rename_i valueText marked
      have valueEnds := (suffix_of_skipBlank marked).trans nameEnds
      obtain ⟨⟨value, after⟩, first, found⟩ := Option.bind_eq_some_iff.mp found
      obtain ⟨afterEnds, within⟩ := values valueText value after first
      have own := within.mono (byteLength_le_of_suffix valueEnds)
      dsimp only at found
      split at found
      · rename_i separated
        obtain ⟨⟨others, last⟩, more, same⟩ := Option.map_eq_some_iff.mp found
        cases same
        have inner := ((suffix_of_skipBlank separated).trans afterEnds).trans valueEnds
        obtain ⟨ending, all⟩ := later _ _ _ more
        refine ⟨ending.trans inner, List.forall_mem_cons.mpr ⟨own, fun other member => ?_⟩⟩
        exact (all other member).mono (byteLength_le_of_suffix inner)
      · rename_i closed
        cases found
        exact ⟨((suffix_of_skipBlank closed).trans afterEnds).trans valueEnds,
          List.forall_mem_singleton.mpr own⟩
      · cases found
    · cases found
  · cases read

/-- All the readers are, since each calls the others with less fuel. -/
theorem readers_confined (fuel : Nat) :
    Confined (value? fuel) (fun room value => value.Within room) ∧
      Confined (items? fuel) ItemsWithin ∧ Confined (members? fuel) MembersWithin := by
  induction fuel with
  | zero =>
    refine ⟨?_, ?_, ?_⟩ <;> intro text value rest read <;> cases read
  | succ fuel ih =>
    obtain ⟨values, items, members⟩ := ih
    exact ⟨value?_confined items members, items?_confined values items,
      members?_confined values members⟩

theorem read?_within {text : List Char} {value : Json} (read : read? text = some value) :
    value.Within (byteLength text) := by
  obtain ⟨⟨found, rest⟩, reads, ends⟩ := Option.bind_eq_some_iff.mp read
  dsimp only at ends
  split at ends <;> cases ends
  exact ((readers_confined _).1 text value rest reads).2

end DocComment.Json
