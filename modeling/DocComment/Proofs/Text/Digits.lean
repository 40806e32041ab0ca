import DocComment.Text.Basic

namespace DocComment.Text

theorem toString_digits (n : Nat) : (toString n).toList = Nat.toDigits 10 n := by
  simp

theorem decimalValue_toDigits (n : Nat) : decimalValue (Nat.toDigits 10 n) = n :=
  Nat.ofDigitChars_ten_toDigits

theorem isDigit_of_mem_toDigits {n : Nat} {c : Char} (member : c ∈ Nat.toDigits 10 n) :
    c.isDigit = true :=
  Nat.isDigit_of_mem_toDigits (by decide) (by decide) member

/-- A first digit and digits after it; the first is a zero only if it is all of the number. -/
theorem toDigits_cases (n : Nat) :
    Nat.toDigits 10 n = ['0'] ∨ ∃ c rest, Nat.toDigits 10 n = c :: rest ∧ c ≠ '0' := by
  induction n using Nat.strongRecOn with
  | ind n ih =>
    by_cases small : n < 10
    · rw [Nat.toDigits_of_lt_base small]
      by_cases zero : n = 0
      · exact .inl (by simp [zero])
      · exact .inr ⟨_, [], rfl, by simpa using zero⟩
    · have large := Nat.le_of_not_lt small
      have fewer : 0 < n / 10 ∧ n / 10 < n := by omega
      have first : ∃ c rest, Nat.toDigits 10 (n / 10) = c :: rest ∧ c ≠ '0' := by
        rcases ih (n / 10) fewer.2 with zero | found
        · have none : decimalValue (Nat.toDigits 10 (n / 10)) = 0 := by rw [zero]; rfl
          rw [decimalValue_toDigits] at none
          omega
        · exact found
      obtain ⟨c, rest, written, other⟩ := first
      rw [Nat.toDigits_of_base_le (by decide) large, written]
      exact .inr ⟨c, _, rfl, other⟩

end DocComment.Text
