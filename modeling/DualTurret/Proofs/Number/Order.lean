import DualTurret.Document.Value
import Mathlib.Tactic.Common

/-!
# The order of numbers

Numbers compare by their places on the number line, and whole numbers among themselves as
usual.  A number that lies strictly between two others is finite.
-/

namespace DualTurret

section Order

variable {p q r : Place}

theorem Place.lt_of_not_lt_of_lt
    (hpq : q.lt p = false)
    (hqr : q.lt r = true) :
    p.lt r = true := by
  cases p <;> cases q <;> cases r <;> simp_all [Place.lt]
  omega

theorem Place.lt_of_lt_of_not_lt
    (hrp : r.lt p = true)
    (hpq : q.lt p = false) :
    r.lt q = true := by
  cases p <;> cases q <;> cases r <;> simp_all [Place.lt]
  omega

end Order

/-- The first number does not lie above the second.  NaN is compared with nothing. -/
def Number.atMost (a b : Number) : Bool :=
  match a.place?, b.place? with
  | some p, some q => !q.lt p
  | _, _ => false

theorem Number.exists_place_of_atMost
    {a b : Number}
    (h : a.atMost b = true) :
    ∃ p q, a.place? = some p ∧ b.place? = some q ∧ q.lt p = false := by
  unfold Number.atMost at h
  split at h
  · rename_i p q ha hb
    exact ⟨p, q, ha, hb, by simpa using h⟩
  · cases h

/-- What lies above a number lies above every smaller one. -/
theorem Number.lt_of_atMost_of_lt
    {a b x : Number}
    (h : a.atMost b = true)
    (hlt : b.lt x = true) :
    a.lt x = true := by
  obtain ⟨p, q, ha, hb, hpq⟩ := Number.exists_place_of_atMost h
  unfold Number.lt at hlt ⊢
  rw [hb] at hlt
  rw [ha]
  cases hx : x.place? with
  | none => simp [hx] at hlt
  | some r =>
      rw [hx] at hlt
      exact Place.lt_of_not_lt_of_lt hpq hlt

/-- What lies below a number lies below every larger one. -/
theorem Number.lt_of_lt_of_atMost
    {a b x : Number}
    (hlt : x.lt a = true)
    (h : a.atMost b = true) :
    x.lt b = true := by
  obtain ⟨p, q, ha, hb, hpq⟩ := Number.exists_place_of_atMost h
  unfold Number.lt at hlt ⊢
  rw [ha] at hlt
  rw [hb]
  cases hx : x.place? with
  | none => simp [hx] at hlt
  | some r =>
      rw [hx] at hlt
      exact Place.lt_of_lt_of_not_lt hlt hpq

/-- Whole numbers are compared exactly. -/
theorem Number.whole_lt_whole_iff
    {m n : Int} :
    (Number.whole m).lt (.whole n) = true ↔ m < n := by
  have hunit : 0 < Binary64.unitsPerOne := by
    unfold Binary64.unitsPerOne
    apply Nat.two_pow_pos
  simp only [Number.lt, Number.place?, Place.lt, decide_eq_true_eq]
  exact Int.mul_lt_mul_right (Int.natCast_pos.mpr hunit)

theorem Number.le_of_atMost
    {m n : Int}
    (h : (Number.whole m).atMost (.whole n) = true) :
    m ≤ n := by
  obtain ⟨p, q, hm, hn, hpq⟩ := Number.exists_place_of_atMost h
  cases hm
  cases hn
  by_contra hlt
  have habove : (Number.whole n).lt (.whole m) = true := Number.whole_lt_whole_iff.mpr (by omega)
  cases habove.symm.trans hpq

theorem Number.zero_lt_finite_iff
    {rank : Fin infinityRank} :
    (Number.whole 0).lt (.real (.finite false rank)) = true ↔ 0 < Binary64.units rank := by
  simp only [Number.lt, Number.place?, Place.lt, Int.zero_mul, Bool.false_eq_true, if_false,
    decide_eq_true_eq]
  exact Int.natCast_pos

/-- A positive number that lies below another one is finite. -/
theorem Number.exists_rank_of_lt
    {x : Binary64}
    {limit : Number}
    (hpositive : (Number.whole 0).lt (.real x) = true)
    (hbelow : (Number.real x).lt limit = true) :
    ∃ rank, x = .finite false rank ∧ rank.val ≠ 0 := by
  cases x with
  | finite negative rank =>
      cases negative with
      | false =>
          refine ⟨rank, rfl, ?_⟩
          intro hzero
          rw [Number.zero_lt_finite_iff, hzero] at hpositive
          cases hpositive
      | true =>
          simp only [Number.lt, Number.place?, Place.lt, if_true, decide_eq_true_eq] at hpositive
          omega
  | infinite negative =>
      cases negative with
      | false =>
          unfold Number.lt at hbelow
          split at hbelow
          · rename_i hplace _
            cases hplace
            cases hbelow
          · cases hbelow
      | true => cases hpositive
  | nan => cases hpositive

/-- A count is a number too. -/
theorem Value.number?_of_int?
    {v : Value}
    {n : Int}
    (h : v.int? = some n) :
    v.number? = some (.whole n) := by
  unfold Value.int? at h
  split at h
  · cases h
    rfl
  · cases h
    rfl
  · cases h

end DualTurret
