import DualTurret.Number.Numeral
import Mathlib.Data.List.Induction
import Mathlib.Tactic.Common
import Mathlib.Tactic.Ring

/-!
# Nearest ranks

The rank nearest to a fraction depends on its value alone, and a magnitude that has a rank is
nearest to that rank.  Values far outside the finite ranks need no rounding to see where they
go, so a decimal number may be turned away by its power of ten alone.

Main facts:
* `Binary64.nearestRank_units`: ranks are exact on the magnitudes they stand for;
* `Binary64.ofDecimal_eq`: a decimal number is read as the number of its nearest rank;
* `Binary64.rankOfDecimal_shortest`: the shortest digits of a rank read back as that rank.
-/

namespace DualTurret

theorem roundDiv_mul_right
    (num den : Nat)
    {k : Nat}
    (hk : 0 < k) :
    roundDiv (num * k) (den * k) = roundDiv num den := by
  have hlow : 2 * (num % den * k) < den * k ↔ 2 * (num % den) < den := by
    rw [← Nat.mul_assoc]
    exact Nat.mul_lt_mul_right hk
  have hhigh : den * k < 2 * (num % den * k) ↔ den < 2 * (num % den) := by
    rw [← Nat.mul_assoc]
    exact Nat.mul_lt_mul_right hk
  simp only [roundDiv, Nat.mul_mod_mul_right, Nat.mul_div_mul_right num den hk, hlow, hhigh]

namespace Binary64

theorem unitsPerOne_pos : 0 < unitsPerOne := by
  decide +kernel

/-- The nearest rank depends on the value of a fraction alone. -/
theorem nearestRank_mul_right
    (num den : Nat)
    {k : Nat}
    (hk : 0 < k) :
    nearestRank (num * k) (den * k) = nearestRank num den := by
  have hquotient : num * k * unitsPerOne / (den * k) = num * unitsPerOne / den := by
    rw [Nat.mul_right_comm, Nat.mul_div_mul_right _ _ hk]
  unfold nearestRank
  rw [hquotient, Nat.mul_right_comm num k, Nat.mul_right_comm den k, roundDiv_mul_right _ _ hk]

theorem lostBits_of_lt {n : Nat} (h : n < 2 ^ 53) : lostBits n = 0 := by
  unfold lostBits
  by_cases hzero : n = 0
  · subst hzero
    rfl
  · have hlog := (Nat.log2_lt hzero).mpr h
    omega

/-- A magnitude of 53 bits and some more loses just these. -/
theorem lostBits_eq
    {n shift : Nat}
    (hlow : 2 ^ (52 + shift) ≤ n)
    (hhigh : n < 2 ^ (53 + shift)) :
    lostBits n = shift := by
  have hpos : n ≠ 0 := Nat.ne_of_gt (Nat.lt_of_lt_of_le (Nat.two_pow_pos _) hlow)
  have hlog : n.log2 = 52 + shift := by
    rw [Nat.log2_eq_iff hpos, Nat.add_right_comm]
    exact ⟨hlow, hhigh⟩
  unfold lostBits
  omega

/-- A magnitude whose highest bits are those of a significand loses the bits below them. -/
theorem lostBits_of_significand
    {significand : Nat}
    (hlow : 2 ^ 52 ≤ significand)
    (hhigh : significand < 2 ^ 53)
    (shift : Nat) :
    lostBits (significand * 2 ^ shift) = shift := by
  apply lostBits_eq
  · rw [Nat.pow_add]
    exact Nat.mul_le_mul_right _ hlow
  · rw [Nat.pow_add]
    exact Nat.mul_lt_mul_of_pos_right hhigh (Nat.two_pow_pos shift)

/-- A significand with its unit is the quotient by that unit. -/
theorem roundDiv_significand
    (significand : Nat)
    {unit one : Nat}
    (hunit : 0 < unit)
    (hone : 0 < one) :
    roundDiv (significand * unit * one) (one * unit) = significand := by
  rw [Nat.mul_assoc, Nat.mul_comm significand, Nat.mul_comm unit]
  exact roundDiv_mul_left _ _ (Nat.mul_pos hone hunit)

/-- The rank nearest to the magnitude of a rank is that rank. -/
theorem nearestRank_units (rank : Nat) : nearestRank (units rank) unitsPerOne = rank := by
  have hpos := unitsPerOne_pos
  have hsplit : 2 ^ 52 * (rank / 2 ^ 52) + rank % 2 ^ 52 = rank := Nat.div_add_mod rank (2 ^ 52)
  have hlow : rank % 2 ^ 52 < 2 ^ 52 := Nat.mod_lt _ (Nat.two_pow_pos 52)
  unfold nearestRank
  rw [Nat.mul_div_cancel _ hpos]
  simp only [units, Nat.pow_eq]
  generalize unitsPerOne = one at hpos ⊢
  generalize rank / 2 ^ 52 = field at hsplit ⊢
  generalize rank % 2 ^ 52 = low at hsplit hlow ⊢
  by_cases hfield : field = 0
  · have hlost : lostBits low = 0 := lostBits_of_lt (by omega)
    have hquotient := roundDiv_significand low Nat.one_pos hpos
    rw [Nat.mul_one] at hquotient
    rw [if_pos hfield, hlost, Nat.pow_zero, hquotient, Nat.zero_mul, Nat.zero_add]
    rw [hfield, Nat.mul_zero, Nat.zero_add] at hsplit
    exact hsplit
  · have hlost : lostBits ((2 ^ 52 + low) * 2 ^ (field - 1)) = field - 1 :=
      lostBits_of_significand (by omega) (by omega) _
    rw [if_neg hfield, hlost, roundDiv_significand _ (Nat.two_pow_pos (field - 1)) hpos]
    omega

/-- A magnitude loses at least the bits by which it is too long. -/
theorem le_lostBits {n k : Nat} (h : 2 ^ (k + 52) ≤ n) : k ≤ lostBits n := by
  have hpos : n ≠ 0 := Nat.ne_of_gt (Nat.lt_of_lt_of_le (Nat.two_pow_pos _) h)
  have hlog := (Nat.le_log2 hpos).mpr h
  unfold lostBits
  omega

/-- Values from `10 ^ 310` on lie past the finite ranks. -/
theorem infinityRank_le_nearestRank
    {num den : Nat}
    (hden : 0 < den)
    (h : 10 ^ 310 * den ≤ num) :
    infinityRank ≤ nearestRank num den := by
  have hpower : 2 ^ (2047 + 52) ≤ 10 ^ 310 * unitsPerOne := by decide +kernel
  have hunits : 10 ^ 310 * unitsPerOne ≤ num * unitsPerOne / den := by
    rw [Nat.le_div_iff_mul_le hden, Nat.mul_right_comm]
    exact Nat.mul_le_mul_right _ h
  have hlost : 2047 ≤ lostBits (num * unitsPerOne / den) :=
    le_lostBits (Nat.le_trans hpower hunits)
  exact Nat.le_add_right_of_le (Nat.mul_le_mul_right _ hlost)

/-- Values up to `10 ^ -331` round to zero. -/
theorem nearestRank_eq_zero
    {num den : Nat}
    (hden : 0 < den)
    (h : num * 10 ^ 331 ≤ den) :
    nearestRank num den = 0 := by
  have hpower : 2 * unitsPerOne < 10 ^ 331 := by decide +kernel
  have hhalf : 2 * (num * unitsPerOne) < den := by
    rcases Nat.eq_zero_or_pos num with rfl | hnum
    · rw [Nat.zero_mul, Nat.mul_zero]
      exact hden
    · rw [Nat.mul_left_comm]
      exact Nat.lt_of_lt_of_le (Nat.mul_lt_mul_of_pos_left hpower hnum) h
  unfold nearestRank
  generalize num * unitsPerOne = units at hhalf ⊢
  have hless : units < den := by omega
  rw [Nat.div_eq_of_lt hless, lostBits_of_lt (Nat.two_pow_pos 53)]
  simp [roundDiv, Nat.mod_eq_of_lt hless, Nat.div_eq_of_lt hless, hhalf]

/-- Any two powers of ten whose quotient is the power of a decimal number give its rank. -/
theorem rankOfDecimal_eq
    (n : Nat)
    {exponent : Int}
    {a b : Nat}
    (h : (a : Int) - b = exponent) :
    rankOfDecimal n exponent = nearestRank (n * 10 ^ a) (10 ^ b) := by
  unfold rankOfDecimal
  split_ifs with hsign
  · have ha : a = exponent.toNat + b := by omega
    have hpos : 0 < 10 ^ b := Nat.pow_pos (by decide)
    have hscale := nearestRank_mul_right (n * 10 ^ exponent.toNat) 1 hpos
    rw [Nat.one_mul] at hscale
    rw [ha, Nat.pow_add, ← Nat.mul_assoc]
    exact hscale.symm
  · have hb : b = (-exponent).toNat + a := by omega
    rw [hb, Nat.pow_add]
    exact (nearestRank_mul_right n (10 ^ (-exponent).toNat) (Nat.pow_pos (by decide))).symm

/-- Zeros at the end of a decimal number move into its power of ten. -/
theorem rankOfDecimal_mul
    (n k : Nat)
    (exponent : Int) :
    rankOfDecimal (n * 10 ^ k) (exponent - k) = rankOfDecimal n exponent := by
  have hleft : ((exponent - k).toNat : Int) - (k - exponent).toNat = exponent - k := by omega
  have hright : (((exponent - k).toNat + k : Nat) : Int) - (k - exponent).toNat = exponent := by
    omega
  rw [rankOfDecimal_eq _ hleft, rankOfDecimal_eq _ hright, Nat.pow_add, Nat.mul_comm (10 ^ _),
    Nat.mul_assoc]

theorem nearestRank_zero (den : Nat) (hden : 0 < den) : nearestRank 0 den = 0 := by
  apply nearestRank_eq_zero hden
  rw [Nat.zero_mul]
  exact Nat.zero_le den

theorem rankOfDecimal_zero (exponent : Int) : rankOfDecimal 0 exponent = 0 := by
  unfold rankOfDecimal
  split_ifs
  · rw [Nat.zero_mul, nearestRank_zero 1 Nat.one_pos]
  · exact nearestRank_zero _ (Nat.pow_pos (by decide))

/-- The exact decimal expansion of a rank reads back as that rank. -/
theorem rankOfDecimal_expansion
    (rank : Nat) :
    rankOfDecimal (units rank * Nat.pow 5 1074) (-1074) = rank := by
  have hten : unitsPerOne * Nat.pow 5 1074 = 10 ^ 1074 := by decide +kernel
  have hpos : 0 < Nat.pow 5 1074 := by decide +kernel
  have hexponent : ((0 : Nat) : Int) - (1074 : Nat) = -1074 := by decide
  rw [rankOfDecimal_eq _ hexponent, Nat.pow_zero, Nat.mul_one, ← hten,
    nearestRank_mul_right _ _ hpos, nearestRank_units]

theorem of_getD
    {α : Type}
    (holds : α → Prop)
    {found : Option α}
    {other : α}
    (hfound : ∀ a, found = some a → holds a)
    (hother : holds other) :
    holds (found.getD other) := by
  cases found with
  | none => exact hother
  | some a => exact hfound a rfl

/-- The shortest digits of a rank read back as that rank. -/
theorem rankOfDecimal_shortest
    (rank : Nat) :
    rankOfDecimal (shortest rank).1 (shortest rank).2 = rank := by
  unfold shortest
  apply of_getD fun found : Nat × Int => rankOfDecimal found.1 found.2 = rank
  · intro found hfound
    obtain ⟨i, _, hi⟩ := List.exists_of_findSome?_eq_some hfound
    obtain ⟨n, hn, rfl⟩ := Option.map_eq_some_iff.mp hi
    have htest := List.find?_some hn
    exact eq_of_beq htest
  · exact rankOfDecimal_expansion rank

/-! ## Decimal digits -/

/-- The value of two runs of digits one after the other. -/
theorem digitsValue_append
    (ds es : List Nat) :
    digitsValue (ds ++ es) = digitsValue ds * 10 ^ es.length + digitsValue es := by
  induction es using List.reverseRecOn with
  | nil => simp [digitsValue]
  | append_singleton es e ih =>
      have hconcat : ∀ xs : List Nat, digitsValue (xs ++ [e]) = 10 * digitsValue xs + e := by
        intro xs
        simp [digitsValue]
      rw [← List.append_assoc, hconcat, hconcat, ih, List.length_append, List.length_singleton,
        Nat.pow_succ]
      ring

theorem digitsValue_cons
    (d : Nat)
    (ds : List Nat) :
    digitsValue (d :: ds) = d * 10 ^ ds.length + digitsValue ds := by
  have hsingle : digitsValue [d] = d := by simp [digitsValue]
  rw [← List.singleton_append, digitsValue_append, hsingle]

theorem digitsValue_lt
    {ds : List Nat}
    (h : ∀ d ∈ ds, d < 10) :
    digitsValue ds < 10 ^ ds.length := by
  induction ds with
  | nil => decide
  | cons d ds ih =>
      have hd := h d List.mem_cons_self
      have hrest := ih fun e he => h e (List.mem_cons_of_mem _ he)
      rw [digitsValue_cons, List.length_cons, Nat.pow_succ]
      have htop : d * 10 ^ ds.length ≤ 9 * 10 ^ ds.length := Nat.mul_le_mul_right _ (by omega)
      omega

theorem digitsValue_dropZeros
    (ds : List Nat) :
    digitsValue (ds.dropWhile (· == 0)) = digitsValue ds := by
  induction ds with
  | nil => rfl
  | cons d ds ih =>
      by_cases hd : d = 0
      · subst hd
        rw [List.dropWhile_cons_of_pos (by rfl), ih, digitsValue_cons, Nat.zero_mul, Nat.zero_add]
      · rw [List.dropWhile_cons_of_neg (by simpa using hd)]

/-- The first of the digits that are left is not zero. -/
theorem pow_le_digitsValue
    {d : Nat}
    (hd : d ≠ 0)
    (ds : List Nat) :
    10 ^ ds.length ≤ digitsValue (d :: ds) := by
  rw [digitsValue_cons]
  exact Nat.le_add_right_of_le (Nat.le_mul_of_pos_left _ (Nat.pos_of_ne_zero hd))

/-- A decimal number is a fraction of powers of ten. -/
theorem rankOfDecimal_eq_split
    (n : Nat)
    (exponent : Int) :
    rankOfDecimal n exponent =
      nearestRank (n * 10 ^ exponent.toNat) (10 ^ (-exponent).toNat) :=
  rankOfDecimal_eq n (by omega)

/-- A decimal number with its point far to the right lies past the finite ranks. -/
theorem infinityRank_le_rankOfDecimal
    {n length : Nat}
    (hn : 10 ^ length ≤ n)
    {exponent : Int}
    (h : 310 ≤ exponent + length) :
    infinityRank ≤ rankOfDecimal n exponent := by
  rw [rankOfDecimal_eq_split]
  apply infinityRank_le_nearestRank (Nat.pow_pos (by decide))
  calc 10 ^ 310 * 10 ^ (-exponent).toNat = 10 ^ (310 + (-exponent).toNat) := by rw [Nat.pow_add]
    _ ≤ 10 ^ (length + exponent.toNat) := Nat.pow_le_pow_right (by decide) (by omega)
    _ = 10 ^ length * 10 ^ exponent.toNat := Nat.pow_add ..
    _ ≤ n * 10 ^ exponent.toNat := Nat.mul_le_mul_right _ hn

/-- A decimal number with its point far to the left rounds to zero. -/
theorem rankOfDecimal_eq_zero
    {n length : Nat}
    (hn : n ≤ 10 ^ length)
    {exponent : Int}
    (h : exponent + length ≤ -331) :
    rankOfDecimal n exponent = 0 := by
  rw [rankOfDecimal_eq_split]
  apply nearestRank_eq_zero (Nat.pow_pos (by decide))
  calc n * 10 ^ exponent.toNat * 10 ^ 331 ≤ 10 ^ length * 10 ^ exponent.toNat * 10 ^ 331 :=
        Nat.mul_le_mul_right _ (Nat.mul_le_mul_right _ hn)
    _ = 10 ^ (length + exponent.toNat + 331) := by rw [Nat.pow_add, Nat.pow_add]
    _ ≤ 10 ^ (-exponent).toNat := Nat.pow_le_pow_right (by decide) (by omega)

/-- A decimal number is read as the number of its nearest rank: the values that are turned away
by their power of ten would round there too. -/
theorem ofDecimal_eq
    (negative : Bool)
    {digits : List Nat}
    (h : ∀ d ∈ digits, d < 10)
    (exponent : Int) :
    ofDecimal negative digits exponent =
      ofRank negative (rankOfDecimal (digitsValue digits) exponent) := by
  have hdigits : ∀ d ∈ digits.dropWhile (· == 0), d < 10 :=
    fun d hd => h d ((List.dropWhile_sublist _).subset hd)
  rw [← digitsValue_dropZeros digits]
  unfold ofDecimal
  dsimp only
  cases hsignificant : digits.dropWhile (· == 0) with
  | nil =>
      have hvalue : digitsValue [] = 0 := rfl
      rw [if_pos (by rfl), hvalue, rankOfDecimal_zero, zero]
  | cons d ds =>
      have hd : d ≠ 0 := by
        have hhead := List.head?_dropWhile_not (· == 0) digits
        rw [hsignificant] at hhead
        simpa using hhead
      have hlow := pow_le_digitsValue hd ds
      have hhigh := digitsValue_lt (hsignificant ▸ hdigits)
      rw [if_neg (by simp)]
      split_ifs with hlarge hsmall hsign
      · have hrank := infinityRank_le_rankOfDecimal hlow (by
          rw [List.length_cons] at hlarge
          omega : 310 ≤ exponent + ds.length)
        rw [ofRank, dif_neg (Nat.not_lt.mpr hrank)]
      · rw [rankOfDecimal_eq_zero (Nat.le_of_lt hhigh) (by omega), zero]
      · rw [nearest, rankOfDecimal, if_pos hsign]
      · rw [nearest, rankOfDecimal, if_neg hsign]

end Binary64
end DualTurret
