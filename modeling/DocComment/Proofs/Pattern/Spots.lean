import DocComment.Pattern.Match

/-! What all spots of a match have in common: what holds where a match starts and is kept by taking a
character and by capturing a group holds at every end of it. -/
namespace DocComment.Pattern

theorem mem_of_mem_distinctSpots {spots : List Spot} (member : spot ∈ distinctSpots spots) :
    spot ∈ spots := by
  have kept : ∀ (seen : List Nat) (found rest : List Spot),
      ∀ spot ∈ (rest.foldl (fun state spot =>
        if state.1.contains spot.offset then (state.1, state.2)
        else (spot.offset :: state.1, spot :: state.2))
        ((seen, found) : List Nat × List Spot)).2, spot ∈ found ∨ spot ∈ rest := by
    intro seen found rest
    induction rest generalizing seen found with
    | nil => exact fun spot member => .inl member
    | cons next rest ih =>
      intro spot member
      rw [List.foldl_cons] at member
      dsimp only at member
      split at member
      · exact (ih _ _ spot member).imp_right (List.mem_cons_of_mem _)
      · rcases ih _ _ spot member with before | later
        · rcases List.mem_cons.mp before with same | older
          · exact .inr (same ▸ List.mem_cons_self)
          · exact .inl older
        · exact .inr (List.mem_cons_of_mem _ later)
  rcases kept [] [] spots spot (List.mem_reverse.mp member) with none | found
  · cases none
  · exact found

section Keeps

variable {P : Spot → Prop} {step : Spot → List Spot}

theorem repeatExactly_forall (keeps : ∀ spot, P spot → ∀ last ∈ step spot, P last) (count : Nat)
    {spots : List Spot} (start : ∀ spot ∈ spots, P spot) :
    ∀ last ∈ repeatExactly step count spots, P last := by
  induction count generalizing spots with
  | zero => exact start
  | succ count ih =>
    refine ih fun last member => ?_
    obtain ⟨spot, inside, reached⟩ := List.mem_flatMap.mp (mem_of_mem_distinctSpots member)
    exact keeps spot (start spot inside) last reached

theorem repeatAtMost_forall (keeps : ∀ spot, P spot → ∀ last ∈ step spot, P last) (greedy : Bool)
    (count : Nat) {spot : Spot} (start : P spot) :
    ∀ last ∈ repeatAtMost step greedy count spot, P last := by
  induction count generalizing spot with
  | zero => exact fun last member => List.mem_singleton.mp member ▸ start
  | succ count ih =>
    intro last member
    have found : last = spot ∨ last ∈ (step spot).flatMap (repeatAtMost step greedy count) := by
      have member := mem_of_mem_distinctSpots member
      cases greedy <;> simpa [or_comm] using member
    rcases found with same | more
    · exact same ▸ start
    · obtain ⟨next, inside, reached⟩ := List.mem_flatMap.mp more
      exact ih (keeps spot start next inside) last reached

theorem repeatOnward_forall (keeps : ∀ spot, P spot → ∀ last ∈ step spot, P last) (greedy : Bool)
    (fuel : Nat) {spot : Spot} {found : List Nat × List Spot} (start : P spot)
    (before : ∀ last ∈ found.2, P last) :
    ∀ last ∈ (repeatOnward step greedy fuel spot found).2, P last := by
  induction fuel generalizing spot found with
  | zero => exact before
  | succ fuel ih =>
    rw [repeatOnward]
    split
    · exact before
    · have nexts := keeps spot start
      revert nexts
      generalize step spot = ends
      generalize state : (spot.offset :: found.1, found.2) = visited
      have before : ∀ last ∈ visited.2, P last := by rw [← state]; exact before
      clear state
      intro nexts
      induction ends generalizing visited with
      | nil => exact before
      | cons next rest more =>
        have here := nexts next List.mem_cons_self
        rw [List.foldl_cons]
        refine more _ ?_ fun last member => nexts last (List.mem_cons_of_mem _ member)
        cases greedy with
        | false =>
          refine ih here fun last member => ?_
          rcases List.mem_append.mp member with older | own
          · exact before last older
          · exact List.mem_singleton.mp own ▸ here
        | true =>
          intro last member
          rcases List.mem_append.mp member with older | own
          · exact ih here before last older
          · exact List.mem_singleton.mp own ▸ here

theorem repeatSome_forall (keeps : ∀ spot, P spot → ∀ last ∈ step spot, P last) (greedy : Bool)
    {spot : Spot} (start : P spot) : ∀ last ∈ repeatSome step greedy spot, P last := fun last member =>
  repeatOnward_forall keeps greedy _ start (by simp) last (mem_of_mem_distinctSpots member)

theorem repeatAny_forall (keeps : ∀ spot, P spot → ∀ last ∈ step spot, P last) (greedy : Bool)
    {spot : Spot} (start : P spot) : ∀ last ∈ repeatAny step greedy spot, P last := by
  intro last member
  have found : last = spot ∨ last ∈ repeatSome step greedy spot := by
    have member := mem_of_mem_distinctSpots member
    cases greedy <;> simpa [or_comm] using member
  rcases found with same | more
  · exact same ▸ start
  · exact repeatSome_forall keeps greedy start last more

end Keeps

/-- What holds at a spot holds at every end of a match from there. -/
theorem Regex.ends_forall {P : Spot → Prop}
    (taken : ∀ spot c rest, P spot → spot.rest = c :: rest →
      P { spot with offset := spot.offset + 1, before := c :: spot.before, rest })
    (captured : ∀ first last index, P first → P last →
      P { last with captures := (index, first.offset, last.offset) :: last.captures })
    (regex : Regex) (spot : Spot) (start : P spot) : ∀ last ∈ regex.ends spot, P last := by
  induction regex generalizing spot with
  | empty => exact fun last member => List.mem_singleton.mp member ▸ start
  | set members =>
    intro last member
    rw [Regex.ends] at member
    split at member
    · rename_i c rest more
      split at member
      · exact List.mem_singleton.mp member ▸ taken spot c rest start more
      · cases member
    · cases member
  | anchor condition =>
    intro last member
    rw [Regex.ends] at member
    split at member
    · exact List.mem_singleton.mp member ▸ start
    · cases member
  | cat first second firstKeeps secondKeeps =>
    intro last member
    obtain ⟨middle, inside, reached⟩ := List.mem_flatMap.mp (mem_of_mem_distinctSpots member)
    exact secondKeeps middle (firstKeeps spot start middle inside) last reached
  | alt first second firstKeeps secondKeeps =>
    intro last member
    rcases List.mem_append.mp (mem_of_mem_distinctSpots member) with left | right
    · exact firstKeeps spot start last left
    · exact secondKeeps spot start last right
  | loop body least most greedy keeps =>
    intro last member
    have single : ∀ first ∈ [spot], P first := fun first own => List.mem_singleton.mp own ▸ start
    cases most with
    | some most =>
      rw [Regex.ends] at member
      obtain ⟨middle, inside, reached⟩ := List.mem_flatMap.mp (mem_of_mem_distinctSpots member)
      exact repeatAtMost_forall keeps greedy _ (repeatExactly_forall keeps least single middle inside)
        last reached
    | none =>
      rw [Regex.ends] at member
      split at member
      · exact repeatAny_forall keeps greedy start last member
      · obtain ⟨middle, inside, reached⟩ := List.mem_flatMap.mp (mem_of_mem_distinctSpots member)
        exact repeatSome_forall keeps greedy
          (repeatExactly_forall keeps (least - 1) single middle inside) last reached
  | capture index body keeps =>
    intro last member
    obtain ⟨inner, inside, same⟩ := List.mem_map.mp member
    exact same ▸ captured spot inner index start (keeps spot start inner inside)

/-- Every group of a match in an empty text is empty. -/
theorem Regex.search_nil_group {regex : Regex} (found : regex.search [] = some (start, last))
    (captured : last.group? index = some (first, stop)) : first = stop := by
  let still (spot : Spot) : Prop :=
    spot.offset = 0 ∧ spot.rest = [] ∧ ∀ capture ∈ spot.captures, capture.2.1 = capture.2.2
  have ends : ∀ last ∈ regex.ends { rest := [] }, still last := by
    refine regex.ends_forall ?_ ?_ _ ⟨rfl, rfl, by simp⟩
    · intro spot c rest here more
      rw [here.2.1] at more
      cases more
    · intro first last index before here
      refine ⟨here.1, here.2.1, fun capture member => ?_⟩
      rcases List.mem_cons.mp member with same | older
      · rw [same, before.1, here.1]
      · exact here.2.2 capture older
  have reached : last ∈ regex.ends { rest := [] } := by
    simp only [Regex.search, searchFrom] at found
    split at found
    · rename_i ahead others more
      simp only [Option.some.injEq, Prod.mk.injEq] at found
      obtain ⟨_, same⟩ := found
      subst last
      rw [more]
      exact List.mem_cons_self
    · cases found
  have member : (index, first, stop) ∈ last.captures := by
    obtain ⟨before, after, split, _⟩ := List.lookup_eq_some_iff.mp captured
    rw [split]
    simp
  exact (ends last reached).2.2 _ member

end DocComment.Pattern
