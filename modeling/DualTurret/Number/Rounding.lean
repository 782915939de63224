/-!
# Division to the nearest integer

Every conversion between decimal and binary numbers in the library rounds once,
here: to the nearest integer, and from a half to the even neighbour.
-/

namespace DualTurret

/-- The quotient rounded to the nearest integer, a half to the even one. -/
def roundDiv (num den : Nat) : Nat :=
  if 2 * (num % den) < den then num / den
  else if den < 2 * (num % den) then num / den + 1
  else num / den + num / den % 2

/-- The rounded quotient is within half a unit of the exact one. -/
theorem roundDiv_near
    (num den : Nat)
    (hden : 0 < den) :
    2 * num ≤ 2 * (den * roundDiv num den) + den ∧
      2 * (den * roundDiv num den) ≤ 2 * num + den := by
  have hsplit : den * (num / den) + num % den = num := Nat.div_add_mod num den
  have hlt : num % den < den := Nat.mod_lt num hden
  unfold roundDiv
  split
  · omega
  · split
    · rw [Nat.mul_add]
      omega
    · rcases Nat.mod_two_eq_zero_or_one (num / den) with h | h
      · rw [h, Nat.add_zero]
        omega
      · rw [h, Nat.mul_add]
        omega

/-- A quotient that is exact stays as it is. -/
theorem roundDiv_mul_left
    (n den : Nat)
    (hden : 0 < den) :
    roundDiv (den * n) den = n := by
  simp [roundDiv, Nat.mul_div_cancel_left n hden, hden]

end DualTurret
