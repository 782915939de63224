import DualTurret.Proofs.Number.Nearest

/-!
# Numbers rounded to decimal places

A number that was read from a decimal number with few places is found again by rounding it to
that many places.  The rounded number need not be the one that was read: where floating-point
numbers lie farther apart than the decimal ones, several of those are read alike.  Then rounding
gives the nearest of them, which is not farther from the floating-point number than the one that
was read, so it is read as the same number.  This needs care at a power of two, where the
distance to the neighbours differs on the two sides; but a power of two of that size has no more
places itself.

Main facts:
* `RoundsTo.roundDiv_eq`: what the rounded quotient is;
* `Binary64.exists_significand`: the significand of the rank nearest to a fraction;
* `Binary64.nearestRank_fixedMultiple`: rounding to places undoes reading from places.
-/

namespace DualTurret

/-- The number is nearest to the quotient, and even where the quotient lies halfway to a
neighbour. -/
structure RoundsTo (num den n : Nat) : Prop where
  below : 2 * num ≤ 2 * (den * n) + den
  above : 2 * (den * n) ≤ 2 * num + den
  even : 2 * num = 2 * (den * n) + den ∨ 2 * (den * n) = 2 * num + den → n % 2 = 0

/-- The rounded quotient is a nearest one. -/
theorem roundsTo_roundDiv
    (num : Nat)
    {den : Nat}
    (hden : 0 < den) :
    RoundsTo num den (roundDiv num den) := by
  obtain ⟨hbelow, habove⟩ := roundDiv_near num den hden
  refine ⟨hbelow, habove, ?_⟩
  have hsplit : den * (num / den) + num % den = num := Nat.div_add_mod num den
  have hlt : num % den < den := Nat.mod_lt num hden
  unfold roundDiv
  split
  · omega
  · split
    · rw [Nat.mul_add]
      omega
    · omega

/-- No nearest quotient lies above another: of two neighbours only one is even. -/
theorem RoundsTo.le
    {num den a b : Nat}
    (hden : 0 < den)
    (ha : RoundsTo num den a)
    (hb : RoundsTo num den b) :
    a ≤ b := by
  by_contra hlt
  have hstep : den * b + den ≤ den * a := Nat.mul_le_mul_left den (Nat.lt_of_not_le hlt)
  have hbelow := hb.below
  have habove := ha.above
  have hnext : den * a ≤ den * (b + 1) := by
    rw [Nat.mul_add]
    omega
  have hneighbour := Nat.le_of_mul_le_mul_left hnext hden
  have hevenA := ha.even (by omega)
  have hevenB := hb.even (by omega)
  omega

/-- Only one number is nearest in this sense. -/
theorem RoundsTo.roundDiv_eq
    {num den n : Nat}
    (hden : 0 < den)
    (h : RoundsTo num den n) :
    roundDiv num den = n :=
  have hround := roundsTo_roundDiv num hden
  Nat.le_antisymm (hround.le hden h) (h.le hden hround)

/-- A quotient rounds to zero up to a half. -/
theorem roundDiv_eq_zero_iff
    {num den : Nat}
    (hden : 0 < den) :
    roundDiv num den = 0 ↔ 2 * num ≤ den := by
  constructor
  · intro hzero
    have hbelow := (roundsTo_roundDiv num hden).below
    rwa [hzero, Nat.mul_zero, Nat.mul_zero, Nat.zero_add] at hbelow
  · intro hhalf
    refine RoundsTo.roundDiv_eq hden ⟨?_, ?_, fun _ => rfl⟩
    · omega
    · rw [Nat.mul_zero]
      omega

/-- Two grids, with steps of `one` and of `step`.  A point of the first is rounded to a point of
the second, and that point to another one of the first.  Then the first grid is the finer one, and
both points of it are rounded to the same point. -/
theorem RoundsTo.of_ne
    {n n' m one step : Nat}
    (hn : RoundsTo (n * one) step m)
    (hn' : RoundsTo (step * m) one n')
    (hne : n' ≠ n) :
    one ≤ step ∧ RoundsTo (n' * one) step m := by
  have hbelow := hn.below
  have habove := hn.above
  have hbelow' := hn'.below
  have habove' := hn'.above
  rw [Nat.mul_comm one n'] at hbelow' habove'
  have hapart : n * one + one ≤ n' * one ∨ n' * one + one ≤ n * one := by
    rcases Nat.lt_or_gt_of_ne hne with hlt | hgt
    · exact Or.inr (Nat.succ_mul n' one ▸ Nat.mul_le_mul_right one hlt)
    · exact Or.inl (Nat.succ_mul n one ▸ Nat.mul_le_mul_right one hgt)
  have hfine : one ≤ step := by omega
  refine ⟨hfine, ?_, ?_, ?_⟩
  · omega
  · omega
  · intro hhalf
    exact hn.even (by omega)

namespace Binary64

/-! ## Significands -/

theorem lt_pow_lostBits (n : Nat) : n < 2 ^ (53 + lostBits n) := by
  refine Nat.lt_of_lt_of_le Nat.lt_log2_self (Nat.pow_le_pow_right (by decide) ?_)
  unfold lostBits
  omega

theorem pow_lostBits_le {n : Nat} (h : lostBits n ≠ 0) : 2 ^ (52 + lostBits n) ≤ n := by
  unfold lostBits at h ⊢
  have hpos : n ≠ 0 := by
    rintro rfl
    exact h rfl
  have hlog : 52 + (n.log2 + 1 - 53) = n.log2 := by omega
  rw [hlog]
  exact Nat.log2_self_le hpos

/-- The magnitude of a rank by its fields. -/
theorem units_field
    (field : Nat)
    {low : Nat}
    (hlow : low < 2 ^ 52) :
    units ((field + 1) * 2 ^ 52 + low) = (2 ^ 52 + low) * 2 ^ field := by
  have hfield : ((field + 1) * 2 ^ 52 + low) / 2 ^ 52 = field + 1 := by omega
  have hrest : ((field + 1) * 2 ^ 52 + low) % 2 ^ 52 = low := by omega
  simp only [units, Nat.pow_eq, hfield, hrest, Nat.succ_ne_zero, if_false, Nat.add_sub_cancel]

/-- The magnitude of a rank that is given by a significand and its shift.  The significand may be
that of the next shift. -/
theorem units_significand
    {shift significand : Nat}
    (hhigh : significand ≤ 2 ^ 53)
    (hlow : shift ≠ 0 → 2 ^ 52 ≤ significand) :
    units (shift * 2 ^ 52 + significand) = significand * 2 ^ shift := by
  by_cases hsmall : significand < 2 ^ 52
  · have hzero : shift = 0 := by
      by_contra hshift
      exact Nat.not_le_of_lt hsmall (hlow hshift)
    rw [hzero, Nat.zero_mul, Nat.zero_add, Nat.pow_zero, Nat.mul_one]
    simp only [units, Nat.pow_eq, Nat.div_eq_of_lt hsmall, Nat.mod_eq_of_lt hsmall, if_true]
  · rcases Nat.lt_or_eq_of_le hhigh with hlt | rfl
    · obtain ⟨low, rfl⟩ := Nat.exists_eq_add_of_le (Nat.le_of_not_lt hsmall)
      have hrank : shift * 2 ^ 52 + (2 ^ 52 + low) = (shift + 1) * 2 ^ 52 + low := by omega
      rw [hrank, units_field shift (by omega)]
    · have hrank : shift * 2 ^ 52 + 2 ^ 53 = (shift + 1 + 1) * 2 ^ 52 + 0 := by omega
      rw [hrank, units_field (shift + 1) (Nat.two_pow_pos 52)]
      ring

/-- The rank nearest to a fraction has a significand and a shift: the fraction, counted in
shifted units, is rounded to the significand. -/
theorem exists_significand
    (num : Nat)
    {den : Nat}
    (hden : 0 < den) :
    ∃ shift significand, nearestRank num den = shift * 2 ^ 52 + significand ∧
      units (nearestRank num den) = significand * 2 ^ shift ∧
      (shift ≠ 0 → 2 ^ 52 ≤ significand) ∧ significand ≤ 2 ^ 53 ∧
      RoundsTo (num * unitsPerOne) (den * 2 ^ shift) significand := by
  have hhigh := lt_pow_lostBits (num * unitsPerOne / den)
  have hlow := @pow_lostBits_le (num * unitsPerOne / den)
  have hrank : nearestRank num den = lostBits (num * unitsPerOne / den) * 2 ^ 52 +
      roundDiv (num * unitsPerOne) (den * 2 ^ lostBits (num * unitsPerOne / den)) := rfl
  generalize lostBits (num * unitsPerOne / den) = shift at hhigh hlow hrank
  have hstep : 0 < den * 2 ^ shift := Nat.mul_pos hden (Nat.two_pow_pos shift)
  have hround := roundsTo_roundDiv (num * unitsPerOne) hstep
  rw [Nat.div_lt_iff_lt_mul hden, Nat.pow_add, Nat.mul_assoc, Nat.mul_comm (2 ^ shift)] at hhigh
  rw [Nat.le_div_iff_mul_le hden, Nat.pow_add, Nat.mul_assoc, Nat.mul_comm (2 ^ shift)] at hlow
  generalize roundDiv (num * unitsPerOne) (den * 2 ^ shift) = significand at hrank hround
  have hbelow := hround.below
  have habove := hround.above
  have hsmall : significand ≤ 2 ^ 53 := by
    by_contra hlarge
    have hmore := Nat.mul_le_mul_left (den * 2 ^ shift) (Nat.lt_of_not_le hlarge)
    rw [Nat.mul_succ, Nat.mul_comm _ (2 ^ 53)] at hmore
    omega
  have hlarge : shift ≠ 0 → 2 ^ 52 ≤ significand := by
    intro hshift
    by_contra hless
    have hmore := Nat.mul_le_mul_left (den * 2 ^ shift) (Nat.lt_of_not_le hless)
    have hlow := hlow hshift
    rw [Nat.mul_succ, Nat.mul_comm _ (2 ^ 52)] at hmore
    omega
  refine ⟨shift, significand, hrank, ?_, hlarge, hsmall, hround⟩
  rw [hrank, units_significand hsmall hlarge]

/-- A fraction that is rounded to a significand between two powers of two has its rank. -/
theorem nearestRank_eq
    {num den shift significand : Nat}
    (hden : 0 < den)
    (hlow : 2 ^ 52 < significand)
    (hhigh : significand < 2 ^ 53)
    (hround : RoundsTo (num * unitsPerOne) (den * 2 ^ shift) significand) :
    nearestRank num den = shift * 2 ^ 52 + significand := by
  have hstep : 0 < den * 2 ^ shift := Nat.mul_pos hden (Nat.two_pow_pos shift)
  have hfrom := Nat.mul_le_mul_left (den * 2 ^ shift) hlow
  have hto := Nat.mul_le_mul_left (den * 2 ^ shift) hhigh
  rw [Nat.mul_succ, Nat.mul_comm _ (2 ^ 52)] at hfrom
  rw [Nat.mul_succ, Nat.mul_comm _ (2 ^ 53)] at hto
  have hbelow := hround.below
  have habove := hround.above
  have hlost : lostBits (num * unitsPerOne / den) = shift := by
    apply lostBits_eq
    · rw [Nat.le_div_iff_mul_le hden, Nat.pow_add, Nat.mul_assoc, Nat.mul_comm (2 ^ shift)]
      omega
    · rw [Nat.div_lt_iff_lt_mul hden, Nat.pow_add, Nat.mul_assoc, Nat.mul_comm (2 ^ shift)]
      omega
  simp only [nearestRank, hlost, Nat.pow_eq]
  rw [hround.roundDiv_eq hstep]

/-! ## Decimal places -/

/-- The rank of a magnitude that has that many places is found from its multiple. -/
theorem nearestRank_fixedMultiple_of_dvd
    {places rank : Nat}
    (h : unitsPerOne ∣ units rank * 10 ^ places) :
    nearestRank (fixedMultiple places rank) (10 ^ places) = rank := by
  obtain ⟨n, hn⟩ := h
  have hmultiple : fixedMultiple places rank = n := by
    rw [fixedMultiple, Nat.pow_eq, hn]
    exact roundDiv_mul_left n unitsPerOne unitsPerOne_pos
  calc nearestRank (fixedMultiple places rank) (10 ^ places)
      = nearestRank (n * unitsPerOne) (10 ^ places * unitsPerOne) := by
        rw [hmultiple, nearestRank_mul_right _ _ unitsPerOne_pos]
    _ = nearestRank (units rank * 10 ^ places) (unitsPerOne * 10 ^ places) := by
        rw [Nat.mul_comm n, ← hn, Nat.mul_comm (10 ^ places) unitsPerOne]
    _ = nearestRank (units rank) unitsPerOne :=
        nearestRank_mul_right _ _ (Nat.pow_pos (by decide))
    _ = rank := nearestRank_units rank

theorem unitsPerOne_eq : unitsPerOne = 2 ^ 1074 := by
  decide +kernel

/-- Where shifted units are not smaller than the places, the shift is large. -/
theorem lt_shift_of_le
    {places shift : Nat}
    (hplaces : places ≤ 22)
    (h : unitsPerOne ≤ 10 ^ places * 2 ^ shift) :
    1074 < 53 + (places + shift) := by
  have hfive : 5 ^ places < 2 ^ 53 :=
    Nat.lt_of_le_of_lt (Nat.pow_le_pow_right (by decide) hplaces) (by decide)
  refine (Nat.pow_lt_pow_iff_right (by decide : 1 < 2)).mp ?_
  rw [unitsPerOne_eq] at h
  calc 2 ^ 1074 ≤ 10 ^ places * 2 ^ shift := h
    _ = 5 ^ places * 2 ^ (places + shift) := by
        rw [Nat.pow_add, ← Nat.mul_assoc, ← Nat.mul_pow]
    _ < 2 ^ 53 * 2 ^ (places + shift) :=
        Nat.mul_lt_mul_of_pos_right hfive (Nat.two_pow_pos _)
    _ = 2 ^ (53 + (places + shift)) := (Nat.pow_add ..).symm

/-- A power of two that is not too small has few places. -/
theorem two_pow_dvd
    {e places shift k : Nat}
    (h : e ≤ k + (places + shift)) :
    2 ^ e ∣ 2 ^ k * 2 ^ shift * 10 ^ places := by
  have hsplit : 2 ^ k * 2 ^ shift * 10 ^ places = 2 ^ (k + (places + shift)) * 5 ^ places := by
    rw [Nat.pow_add, Nat.pow_add, show 10 = 2 * 5 from rfl, Nat.mul_pow]
    ring
  rw [hsplit]
  exact Nat.dvd_mul_right_of_dvd (Nat.pow_dvd_pow 2 h) _

/-- A number that is read from a decimal number with some places, at most 22, is read again from
its own rounding to these places.  The neighbours of a power of two differ in distance, but such a
number has few places itself. -/
theorem nearestRank_fixedMultiple
    {places : Nat}
    (hplaces : places ≤ 22)
    (n : Nat) :
    nearestRank (fixedMultiple places (nearestRank n (10 ^ places))) (10 ^ places) =
      nearestRank n (10 ^ places) := by
  have hten : 0 < 10 ^ places := Nat.pow_pos (by decide)
  obtain ⟨shift, significand, hrank, hunits, hlow, hhigh, hround⟩ := exists_significand n hten
  have hpoint : units (nearestRank n (10 ^ places)) * 10 ^ places =
      10 ^ places * 2 ^ shift * significand := by
    rw [hunits]
    ring
  by_cases hsame : fixedMultiple places (nearestRank n (10 ^ places)) = n
  · rw [hsame]
  · have hmultiple : RoundsTo (10 ^ places * 2 ^ shift * significand) unitsPerOne
        (fixedMultiple places (nearestRank n (10 ^ places))) := by
      rw [← hpoint]
      exact roundsTo_roundDiv _ unitsPerOne_pos
    obtain ⟨hcoarse, hnearest⟩ := hround.of_ne hmultiple hsame
    have hshift := lt_shift_of_le hplaces hcoarse
    have hlow := hlow (by omega)
    by_cases hpower : significand = 2 ^ 52 ∨ significand = 2 ^ 53
    · apply nearestRank_fixedMultiple_of_dvd
      rw [hunits]
      refine (dvd_of_eq unitsPerOne_eq).trans ?_
      rcases hpower with rfl | rfl
      · exact two_pow_dvd (by omega)
      · exact two_pow_dvd (by omega)
    · rw [nearestRank_eq hten (by omega) (by omega) hnearest, hrank]

/-- A number shows as zero up to half of the last place. -/
theorem fixedMultiple_eq_zero_iff
    (places rank : Nat) :
    fixedMultiple places rank = 0 ↔ 2 * (units rank * 10 ^ places) ≤ unitsPerOne := by
  rw [fixedMultiple, roundDiv_eq_zero_iff unitsPerOne_pos, Nat.pow_eq]

end Binary64
end DualTurret
