import DualTurret.Proofs.Block.Places
import Mathlib.Algebra.Order.Field.Basic
import Mathlib.Data.List.DropRight
import Mathlib.Data.Rat.Cast.Order
import Mathlib.Tactic.FieldSimp
import Mathlib.Tactic.Linarith

/-!
# Numbers written with a fixed number of places

A finite number is written as the nearest multiple of the last place, and from a point halfway
between two as the even one.  The zeros at the end of the fraction are left out, and the point
if no fraction is left.  So the text has one form for each sign and multiple: it keeps all
digits of the whole part, denotes the multiple exactly, and two numbers of one sign are written
alike if and only if the same multiple is nearest to both.

Main facts:
* `Binary64.exactValue_eq`: the exact value of a number, as a fraction of units;
* `Binary64.NearestMultiple.unique`: only one multiple is nearest;
* `Binary64.denoted_pointText`: what a written multiple denotes;
* `Binary64.rdropWhile_point`: which characters are left out;
* `Binary64.fixedText_denotes_nearest`: the text of a finite number.
-/

namespace DualTurret
namespace Binary64

/-! ## Exact values -/

/-- The magnitude of a finite number by the fields of its encoding: the exponent is the rank's
quotient by `2 ^ 52` and the fraction the remainder. -/
def magnitude (rank : Nat) : ℚ :=
  if rank / 2 ^ 52 = 0 then ((rank % 2 ^ 52 : Nat) / 2 ^ 52) * 2 ^ (-1022 : ℤ)
  else (1 + (rank % 2 ^ 52 : Nat) / 2 ^ 52) * 2 ^ ((rank / 2 ^ 52 : Nat) - 1023 : ℤ)

def exactValue (negative : Bool) (rank : Nat) : ℚ :=
  if negative then -magnitude rank else magnitude rank

theorem two_zpow_sub (a b : Nat) : (2 : ℚ) ^ ((a : ℤ) - b) = 2 ^ a / 2 ^ b := by
  rw [zpow_sub₀ (by norm_num), zpow_natCast, zpow_natCast]

/-- A magnitude is its number of units. -/
theorem magnitude_eq (rank : Nat) : magnitude rank = (units rank : ℚ) / unitsPerOne := by
  have hone : (unitsPerOne : ℚ) = 2 ^ 1022 * 2 ^ 52 := by
    rw [unitsPerOne_eq, Nat.cast_pow, Nat.cast_ofNat]
    exact pow_add 2 1022 52
  simp only [hone, magnitude, units, Nat.pow_eq]
  generalize rank % 2 ^ 52 = fraction
  split
  · rw [show (-1022 : ℤ) = (0 : Nat) - (1022 : Nat) from rfl, two_zpow_sub, pow_zero]
    field_simp
  · rename_i hfield
    obtain ⟨field, hrank⟩ := Nat.exists_eq_succ_of_ne_zero hfield
    rw [hrank, show ((field.succ : Nat) - 1023 : ℤ) = (field : Nat) - (1022 : Nat) by omega,
      two_zpow_sub, Nat.succ_sub_one, Nat.cast_mul, Nat.cast_add, Nat.cast_pow, Nat.cast_pow,
      Nat.cast_ofNat]
    field_simp

theorem exactValue_eq
    (negative : Bool)
    (rank : Nat) :
    exactValue negative rank =
      if negative then -((units rank : ℚ) / unitsPerOne) else (units rank : ℚ) / unitsPerOne := by
  rw [exactValue, magnitude_eq]

/-! ## Nearest multiples -/

/-- No multiple of `10 ^ -places` is nearer, and if another one is as near, this one is even. -/
structure NearestMultiple (places : Nat) (x : ℚ) (n : ℤ) : Prop where
  nearest : ∀ k : ℤ, |x - n / 10 ^ places| ≤ |x - k / 10 ^ places|
  even : ∀ k : ℤ, k ≠ n → |x - k / 10 ^ places| = |x - n / 10 ^ places| → Even n

/-- Distances from a multiple, counted in the last place. -/
theorem abs_sub_div_pow
    (places : Nat)
    (x : ℚ)
    (n : ℤ) :
    |x - n / 10 ^ places| = |x * 10 ^ places - n| / 10 ^ places := by
  have hten : (0 : ℚ) < 10 ^ places := pow_pos (by norm_num) places
  rw [← abs_of_pos hten, ← abs_div, abs_of_pos hten, sub_div, mul_div_cancel_right₀ _ hten.ne']

/-- Different whole numbers lie at least one apart, so half of that decides which is nearer. -/
theorem half_le_abs_sub
    {y : ℚ}
    {n k : ℤ}
    (hne : k ≠ n)
    (hhalf : |y - n| ≤ 1 / 2) :
    1 / 2 ≤ |y - k| := by
  have hapart : (1 : ℚ) ≤ |(k : ℚ) - n| := by
    have hint : (1 : ℤ) ≤ |k - n| := Int.one_le_abs (sub_ne_zero.mpr hne)
    exact_mod_cast hint
  have htriangle := abs_sub_le (k : ℚ) y n
  rw [abs_sub_comm (k : ℚ) y] at htriangle
  linarith

/-- A multiple is nearest if it is at most half a place away, and even if it is just that. -/
theorem nearestMultiple_iff
    {places : Nat}
    {x : ℚ}
    {n : ℤ} :
    NearestMultiple places x n ↔
      |x * 10 ^ places - n| ≤ 1 / 2 ∧ (|x * 10 ^ places - n| = 1 / 2 → Even n) := by
  have hten : (0 : ℚ) < 10 ^ places := pow_pos (by norm_num) places
  have hle : ∀ k : ℤ, |x - n / 10 ^ places| ≤ |x - k / 10 ^ places| ↔
      |x * 10 ^ places - n| ≤ |x * 10 ^ places - k| := by
    intro k
    rw [abs_sub_div_pow, abs_sub_div_pow, div_le_div_iff_of_pos_right hten]
  have heq : ∀ k : ℤ, |x - k / 10 ^ places| = |x - n / 10 ^ places| ↔
      |x * 10 ^ places - k| = |x * 10 ^ places - n| := by
    intro k
    rw [abs_sub_div_pow, abs_sub_div_pow, div_left_inj' hten.ne']
  constructor
  · rintro ⟨hnearest, heven⟩
    simp only [hle] at hnearest
    simp only [heq] at heven
    generalize x * 10 ^ places = y at hnearest heven ⊢
    have hup := sq_le_sq.mpr (hnearest (n + 1))
    have hdown := sq_le_sq.mpr (hnearest (n - 1))
    push_cast at hup hdown
    have hhalf : |y - n| ≤ 1 / 2 := by
      rw [abs_le]
      constructor <;> linarith
    refine ⟨hhalf, ?_⟩
    intro htie
    rcases eq_or_eq_neg_of_abs_eq htie with hupper | hlower
    · refine heven (n + 1) (by omega) ?_
      push_cast
      rw [htie, show y - (n + 1) = -(1 / 2) by linarith, abs_neg, abs_of_pos (by norm_num)]
    · refine heven (n - 1) (by omega) ?_
      push_cast
      rw [htie, show y - (n - 1) = 1 / 2 by linarith, abs_of_pos (by norm_num)]
  · rintro ⟨hhalf, heven⟩
    constructor
    · intro k
      rw [hle]
      by_cases hk : k = n
      · rw [hk]
      · exact hhalf.trans (half_le_abs_sub hk hhalf)
    · intro k hk htie
      rw [heq] at htie
      exact heven (le_antisymm hhalf (htie ▸ half_le_abs_sub hk hhalf))

/-- Two nearest multiples would lie half a place away, one on each side, so they would be
neighbours and both even. -/
theorem NearestMultiple.unique
    {places : Nat}
    {x : ℚ}
    {n n' : ℤ}
    (h : NearestMultiple places x n)
    (h' : NearestMultiple places x n') :
    n = n' := by
  obtain ⟨hhalf, heven⟩ := nearestMultiple_iff.mp h
  obtain ⟨hhalf', heven'⟩ := nearestMultiple_iff.mp h'
  by_contra hne
  have hevenN := heven (le_antisymm hhalf (half_le_abs_sub hne hhalf'))
  have hevenN' := heven' (le_antisymm hhalf' (half_le_abs_sub (Ne.symm hne) hhalf))
  have hnear : |(n : ℚ) - n'| ≤ 1 := by
    have htriangle := abs_sub_le (n : ℚ) (x * 10 ^ places) n'
    rw [abs_sub_comm (n : ℚ) (x * 10 ^ places)] at htriangle
    linarith
  have hnear : |n - n'| ≤ 1 := by exact_mod_cast hnear
  obtain ⟨a, rfl⟩ := hevenN
  obtain ⟨b, rfl⟩ := hevenN'
  rw [abs_le] at hnear
  omega

/-- Rounding does not see the sign. -/
theorem NearestMultiple.neg
    {places : Nat}
    {x : ℚ}
    {n : ℤ}
    (h : NearestMultiple places x n) :
    NearestMultiple places (-x) (-n) := by
  obtain ⟨hhalf, heven⟩ := nearestMultiple_iff.mp h
  have hsame : |-x * 10 ^ places - ((-n : ℤ) : ℚ)| = |x * 10 ^ places - n| := by
    rw [← abs_neg]
    congr 1
    push_cast
    ring
  rw [nearestMultiple_iff, hsame, even_neg]
  exact ⟨hhalf, heven⟩

/-- A quotient of whole numbers, rounded, is the nearest multiple. -/
theorem nearestMultiple_of_roundsTo
    {places num den n : Nat}
    (hden : 0 < den)
    (h : RoundsTo (num * 10 ^ places) den n) :
    NearestMultiple places ((num : ℚ) / den) n := by
  obtain ⟨hbelow, habove, heven⟩ := h
  have hpos : (0 : ℚ) < den := Nat.cast_pos.mpr hden
  have hscaled : (num : ℚ) / den * 10 ^ places - (n : ℤ) =
      ((num * 10 ^ places : Nat) - (den * n : Nat)) / den := by
    push_cast
    field_simp
  generalize num * 10 ^ places = scaled at hbelow habove heven hscaled
  generalize den * n = multiple at hbelow habove heven hscaled
  have hbelow : 2 * (scaled : ℚ) ≤ 2 * multiple + den := by exact_mod_cast hbelow
  have habove : 2 * (multiple : ℚ) ≤ 2 * scaled + den := by exact_mod_cast habove
  rw [nearestMultiple_iff, hscaled, abs_div, abs_of_pos hpos, div_le_iff₀ hpos, abs_le,
    div_eq_iff hpos.ne']
  refine ⟨⟨by linarith, by linarith⟩, ?_⟩
  intro htie
  have htie : 2 * scaled = 2 * multiple + den ∨ 2 * multiple = 2 * scaled + den := by
    rcases eq_or_eq_neg_of_abs_eq htie with hupper | hlower
    · left
      exact_mod_cast (by linarith : 2 * (scaled : ℚ) = 2 * multiple + den)
    · right
      exact_mod_cast (by linarith : 2 * (multiple : ℚ) = 2 * scaled + den)
  have hparity : Even n := Nat.even_iff.mpr (heven htie)
  exact_mod_cast hparity

def withSign (negative : Bool) (n : Nat) : ℤ :=
  if negative then -n else n

theorem natAbs_withSign (negative : Bool) (n : Nat) : (withSign negative n).natAbs = n := by
  cases negative with
  | true => exact Int.natAbs_neg n
  | false => rfl

theorem withSign_inj
    {negative : Bool}
    {n n' : Nat} :
    withSign negative n = withSign negative n' ↔ n = n' := by
  constructor
  · intro h
    rw [← natAbs_withSign negative n, h, natAbs_withSign]
  · rintro rfl
    rfl

/-- The multiple of a rank is nearest to its value. -/
theorem nearestMultiple_fixedMultiple
    (places : Nat)
    (negative : Bool)
    (rank : Nat) :
    NearestMultiple places (exactValue negative rank)
      (withSign negative (fixedMultiple places rank)) := by
  have hround : RoundsTo (units rank * 10 ^ places) unitsPerOne (fixedMultiple places rank) :=
    roundsTo_roundDiv _ unitsPerOne_pos
  have hnearest := nearestMultiple_of_roundsTo unitsPerOne_pos hround
  rw [exactValue_eq]
  cases negative with
  | false => exact hnearest
  | true => exact hnearest.neg

/-! ## What a text denotes -/

def unsigned (t : Text) : Text :=
  if t.head? = some '-' then t.tail else t

/-- The number that digits denote, with a point among them and a minus sign in front or not. -/
def denoted (t : Text) : ℚ :=
  (if t.head? = some '-' then -1 else 1) *
    (Document.numeralValue (Block.allDigits (unsigned t)) /
      10 ^ (Block.decimals (unsigned t)).length)

theorem head?_signed
    (negative : Bool)
    (n : Nat)
    (t : Text) :
    (signed negative (natText n ++ t)).head? = some '-' ↔ negative = true := by
  cases negative with
  | true => simp [signed]
  | false =>
      obtain ⟨c, cs, hcons⟩ := List.exists_cons_of_ne_nil (natText_ne_nil n)
      have hc : Document.isPlainDigit c = true :=
        Document.plain_natText n c (hcons ▸ List.mem_cons_self)
      have hne : c ≠ '-' := Document.ne_of_isPlainDigit hc rfl
      simp [signed, hcons, hne]

theorem unsigned_signed
    (negative : Bool)
    (n : Nat)
    (t : Text) :
    unsigned (signed negative (natText n ++ t)) = natText n ++ t := by
  have hhead := head?_signed negative n t
  cases negative with
  | true => rfl
  | false => rw [unsigned, if_neg (by simp [hhead])]; rfl

/-- A written multiple denotes itself. -/
theorem denoted_pointText
    {places : Nat}
    (hplaces : 0 < places)
    (negative : Bool)
    (n : Nat) :
    denoted (signed negative (pointText places n)) =
      withSign negative n / 10 ^ places := by
  have hfraction := fraction_dropTrailingZeros hplaces n
  rw [pointText_eq]
  generalize dropTrailingZeros (placeDigits places n) = fraction at hfraction ⊢
  obtain ⟨hall, hdecimals⟩ :=
    Block.decimals_pointPart (Block.digits_natText (n / 10 ^ places)) fraction
  have hvalue : (Document.numeralValue (natText (n / 10 ^ places) ++ fraction) : ℚ) /
      10 ^ fraction.length = n / 10 ^ places := by
    have hsplit : (10 : ℚ) ^ places = 10 ^ (places - fraction.length) * 10 ^ fraction.length := by
      rw [← pow_add, Nat.sub_add_cancel hfraction.short]
    have hnumber : (Document.numeralValue (natText (n / 10 ^ places) ++ fraction) : ℚ) *
        10 ^ (places - fraction.length) = n := by
      exact_mod_cast hfraction.value
    rw [hsplit, ← hnumber]
    field_simp
  simp only [denoted, head?_signed, unsigned_signed, hall, hdecimals, hvalue]
  cases negative with
  | true => simp [withSign, neg_div]
  | false => simp [withSign]

/-- Different multiples are written differently. -/
theorem pointText_inj
    {places : Nat}
    (hplaces : 0 < places)
    {n n' : Nat}
    (h : pointText places n = pointText places n') :
    n = n' := by
  have hten : (10 : ℚ) ^ places ≠ 0 := pow_ne_zero places (by norm_num)
  have hdenoted := denoted_pointText hplaces false n
  rw [h, denoted_pointText hplaces false n', div_left_inj' hten] at hdenoted
  exact (withSign_inj.mp (Int.cast_injective hdenoted)).symm

/-! ## What is left out -/

/-- A multiple of `10 ^ -places` with all its places. -/
def allPlaces (places : Nat) (negative : Bool) (n : Nat) : Text :=
  signed negative (natText (n / 10 ^ places) ++ '.' :: placeDigits places n)

theorem rdropWhile_append_replicate
    (t : Text)
    (c : Char)
    (k : Nat) :
    (t ++ List.replicate k c).rdropWhile (· == c) = t.rdropWhile (· == c) := by
  induction k with
  | zero => rw [List.replicate_zero, List.append_nil]
  | succ k ih =>
      rw [List.replicate_succ', ← List.append_assoc,
        List.rdropWhile_concat_pos (· == c) _ _ (beq_self_eq_true c), ih]

/-- What is left of some digits does not end in a zero. -/
theorem dropTrailingZeros_cases
    (digits : Text) :
    dropTrailingZeros digits = [] ∨
      ∃ init last, dropTrailingZeros digits = init ++ [last] ∧ last ≠ '0' := by
  have hsame : dropTrailingZeros digits = digits.rdropWhile (· == '0') := rfl
  rw [hsame]
  by_cases hnil : digits.rdropWhile (· == '0') = []
  · exact Or.inl hnil
  · refine Or.inr ⟨_, _, (List.dropLast_append_getLast hnil).symm, ?_⟩
    simpa using List.rdropWhile_last_not _ _ hnil

/-- Behind a point only the zeros at the end are dropped, and the point if nothing else is left;
what stands before the point keeps its zeros. -/
theorem rdropWhile_point
    {front digits : Text}
    (hfront : '.' ∉ front)
    (hdigits : Document.Plain digits) :
    ((front ++ '.' :: digits).rdropWhile (· == '0')).rdropWhile (· == '.') =
      front ++ Document.pointPart (dropTrailingZeros digits) := by
  obtain ⟨k, hk⟩ := Document.exists_trailingZeros digits
  have hcases := dropTrailingZeros_cases digits
  generalize dropTrailingZeros digits = fraction at hk hcases ⊢
  rcases hcases with rfl | ⟨init, last, rfl, hlast⟩
  · have hkept : front.rdropWhile (· == '.') = front := by
      refine List.rdropWhile_eq_self_iff.mpr ?_
      intro hne hpoint
      exact hfront (beq_iff_eq.mp hpoint ▸ List.getLast_mem hne)
    rw [hk, List.nil_append, List.append_cons, rdropWhile_append_replicate,
      List.rdropWhile_concat_neg _ _ _ (by decide), List.rdropWhile_concat_pos _ _ _ rfl, hkept]
    exact (List.append_nil front).symm
  · have hpoint : last ≠ '.' := by
      refine Document.ne_of_isPlainDigit (hdigits last ?_) rfl
      rw [hk]
      simp
    have hnonempty : Document.pointPart (init ++ [last]) = '.' :: (init ++ [last]) := by
      simp [Document.pointPart]
    have hend : ∀ c, c ≠ last → ((front ++ '.' :: init) ++ [last]).rdropWhile (· == c) =
        (front ++ '.' :: init) ++ [last] := by
      intro c hc
      exact List.rdropWhile_concat_neg _ _ _ (by simpa using Ne.symm hc)
    rw [hk, hnonempty]
    calc ((front ++ '.' :: (init ++ [last] ++ List.replicate k '0')).rdropWhile
            (· == '0')).rdropWhile (· == '.')
        = ((((front ++ '.' :: init) ++ [last]) ++ List.replicate k '0').rdropWhile
            (· == '0')).rdropWhile (· == '.') := by simp
      _ = front ++ '.' :: (init ++ [last]) := by
          rw [rdropWhile_append_replicate, hend '0' (Ne.symm hlast), hend '.' (Ne.symm hpoint)]
          simp

/-! ## The text of a finite number -/

/-- How a multiple of `10 ^ -places` is written: digits, no exponent, and a point only between
them; all digits of the whole part, and no zero at the end of the fraction. -/
structure WrittenMultiple (places : Nat) (negative : Bool) (n : ℤ) (t : Text) : Prop where
  denotes : denoted t = n / 10 ^ places
  sign : t.head? = some '-' ↔ negative = true
  characters : ∀ c ∈ unsigned t, Document.isPlainDigit c = true ∨ c = '.'
  whole : (unsigned t).takeWhile (· != '.') = natText (n.natAbs / 10 ^ places)
  last_ne_point : t.getLast? ≠ some '.'
  last_ne_zero : '.' ∈ t → t.getLast? ≠ some '0'
  stripped : t = ((allPlaces places negative n.natAbs).rdropWhile (· == '0')).rdropWhile (· == '.')

theorem notMem_signed
    {t : Text}
    {c : Char}
    (negative : Bool)
    (h : c ∉ t)
    (hc : c ≠ '-') :
    c ∉ signed negative t := by
  cases negative with
  | true => simpa [signed, hc] using h
  | false => exact h

theorem getLast?_signed
    (negative : Bool)
    {t : Text}
    (h : t ≠ []) :
    (signed negative t).getLast? = t.getLast? := by
  cases negative with
  | true => obtain ⟨c, cs, rfl⟩ := List.exists_cons_of_ne_nil h; rfl
  | false => rfl

theorem takeWhile_pointPart
    {digits : Text}
    (hdigits : Document.Plain digits)
    (fraction : Text) :
    (digits ++ Document.pointPart fraction).takeWhile (· != '.') = digits := by
  have hpoint : ∀ c ∈ digits, (c != '.') = true := by
    intro c hc
    exact bne_iff_ne.mpr (Document.ne_of_isPlainDigit (hdigits c hc) rfl)
  rw [List.takeWhile_append_of_pos hpoint]
  cases fraction <;> simp [Document.pointPart]

/-- A text ends in the last digit of its fraction, or has no point. -/
theorem last_pointText
    {places : Nat}
    (hplaces : 0 < places)
    (negative : Bool)
    (n : Nat) :
    ∃ c, (signed negative (pointText places n)).getLast? = some c ∧
      Document.isPlainDigit c = true ∧
      ('.' ∈ signed negative (pointText places n) → c ≠ '0') := by
  have hplain := (fraction_dropTrailingZeros hplaces n).plain
  have hcases := dropTrailingZeros_cases (placeDigits places n)
  rw [pointText_eq]
  generalize dropTrailingZeros (placeDigits places n) = fraction at hplain hcases ⊢
  have hwhole := natText_ne_nil (n / 10 ^ places)
  rw [getLast?_signed negative (List.append_ne_nil_of_left_ne_nil hwhole _)]
  rcases hcases with rfl | ⟨init, last, rfl, hlast⟩
  · have hdigits := Document.plain_natText (n / 10 ^ places)
    have hnone : '.' ∉ signed negative (natText (n / 10 ^ places) ++ Document.pointPart []) :=
      notMem_signed negative ((hdigits.append (Document.plain_zeros 0)).notMem rfl) (by decide)
    refine ⟨_, List.getLast?_eq_some_getLast (List.append_ne_nil_of_left_ne_nil hwhole _), ?_,
      fun hmem => absurd hmem hnone⟩
    exact (hdigits.append (Document.plain_zeros 0)) _ (List.getLast_mem _)
  · refine ⟨last, ?_, hplain last (by simp), fun _ => hlast⟩
    have hpoint : Document.pointPart (init ++ [last]) = '.' :: init ++ [last] := by
      simp [Document.pointPart]
    rw [hpoint, ← List.append_assoc, List.getLast?_concat]

theorem characters_pointText
    {places : Nat}
    (hplaces : 0 < places)
    (n : Nat) :
    ∀ c ∈ pointText places n, Document.isPlainDigit c = true ∨ c = '.' := by
  have hfraction := (fraction_dropTrailingZeros hplaces n).plain
  rw [pointText_eq]
  intro c hc
  rcases List.mem_append.mp hc with hc | hc
  · exact Or.inl (Document.plain_natText _ c hc)
  · unfold Document.pointPart at hc
    split_ifs at hc
    · cases hc
    · rcases List.mem_cons.mp hc with rfl | hc
      · exact Or.inr rfl
      · exact Or.inl (hfraction c hc)

/-- A multiple is written with its sign, its whole part and its decimals. -/
theorem writtenMultiple_pointText
    {places : Nat}
    (hplaces : 0 < places)
    (negative : Bool)
    (n : Nat) :
    WrittenMultiple places negative (withSign negative n)
      (signed negative (pointText places n)) := by
  have hplain := Document.plain_natText (n / 10 ^ places)
  obtain ⟨c, hlast, hdigit, hzero⟩ := last_pointText hplaces negative n
  constructor
  · exact denoted_pointText hplaces negative n
  · exact head?_signed negative _ _
  · have hcharacters := characters_pointText hplaces n
    rwa [pointText_eq, ← unsigned_signed negative, ← pointText_eq] at hcharacters
  · rw [pointText_eq, unsigned_signed, natAbs_withSign, takeWhile_pointPart hplain]
  · rw [hlast]
    rintro ⟨⟩
    cases hdigit
  · intro hpoint
    rw [hlast]
    rintro ⟨⟩
    exact hzero hpoint rfl
  · have hfront : '.' ∉ signed negative (natText (n / 10 ^ places)) :=
      notMem_signed negative (hplain.notMem rfl) (by decide)
    have hstrip := rdropWhile_point hfront (plain_placeDigits places n)
    rw [Document.signed_append, Document.signed_append] at hstrip
    rw [natAbs_withSign, allPlaces, hstrip, pointText_eq]

/-- A finite number is written as the multiple of the tenth place that is nearest to its exact
value, and numbers of its sign are written like it if and only if the same multiple is nearest
to them. -/
theorem fixedText_denotes_nearest
    (negative : Bool)
    (rank : Fin infinityRank) :
    ∃ n : ℤ, NearestMultiple 10 (exactValue negative rank) n ∧
      WrittenMultiple 10 negative n ((finite negative rank).fixedText 10) ∧
      ∀ rank' : Fin infinityRank,
        (finite negative rank').fixedText 10 = (finite negative rank).fixedText 10 ↔
          NearestMultiple 10 (exactValue negative rank') n := by
  refine ⟨withSign negative (fixedMultiple 10 rank), nearestMultiple_fixedMultiple 10 negative rank,
    writtenMultiple_pointText (by decide) negative _, ?_⟩
  intro rank'
  have hnearest := nearestMultiple_fixedMultiple 10 negative rank'
  constructor
  · intro h
    have htext : pointText 10 (fixedMultiple 10 rank') = pointText 10 (fixedMultiple 10 rank) := by
      have hunsigned := congrArg unsigned h
      rwa [fixedText, fixedText, pointText_eq, pointText_eq, unsigned_signed,
        unsigned_signed] at hunsigned
    rwa [← pointText_inj (by decide) htext]
  · intro h
    have hsame := withSign_inj.mp (hnearest.unique h)
    rw [fixedText, fixedText, hsame]

example : (ofDecimal true [1, 0, 0] 0).fixedText 10 = "-100".toList := by
  decide +kernel

end Binary64
end DualTurret
