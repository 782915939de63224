import DualTurret.Document.Reader
import DualTurret.Document.Writer
import Mathlib.Data.List.Chain
import Mathlib.Tactic.Common

/-!
# Texts in quotes

A code point in quotes is written as itself, as a short escape, or as one or two escapes of
four hexadecimal digits.  The reader takes them apart into units again and joins the two
halves of a surrogate pair, so a text comes back as it was unless two halves of a pair
already stood side by side in it.

Main facts:
* `Document.readQuoted_quote`: what a quoted text is read as;
* `DocText.joinPairs_eq_self_iff`: only a text with such halves is read as another one.
-/

namespace DualTurret

theorem CodePoint.isHigh_iff
    {p : CodePoint} :
    p.isHigh = true ↔ 0xD800 ≤ p.val ∧ p.val ≤ 0xDBFF := by
  rw [isHigh, Bool.and_eq_true, decide_eq_true_eq, decide_eq_true_eq]

theorem CodePoint.isLow_iff
    {p : CodePoint} :
    p.isLow = true ↔ 0xDC00 ≤ p.val ∧ p.val ≤ 0xDFFF := by
  rw [isLow, Bool.and_eq_true, decide_eq_true_eq, decide_eq_true_eq]

namespace Document

theorem hexValue?_hexDigit : ∀ n < 16, hexValue? (hexDigit n) = some n := by
  decide

/-- The units of a code point: itself, or the halves of its surrogate pair. -/
def units (p : CodePoint) : DocText :=
  if p.val < 0x10000 then [p]
  else
    [CodePoint.ofNat (0xD800 + (p.val - 0x10000) / 0x400),
      CodePoint.ofNat (0xDC00 + (p.val - 0x10000) % 0x400)]

/-- Puts units in front of what has been read. -/
def behind (us : DocText) : DocText × Text → DocText × Text :=
  fun found => (us ++ found.1, found.2)

/-- A code point below 0x10000 is read back from its escape. -/
theorem readUnits_unitEscape
    {n : Nat}
    (h : n < 0x10000)
    (t : Text) :
    readUnits (unitEscape n ++ t) = (readUnits t).map (behind [CodePoint.ofNat n]) := by
  have hvalue : n / 0x1000 % 16 * 0x1000 + n / 0x100 % 16 * 0x100 + n / 0x10 % 16 * 0x10 +
      n % 16 = n := by omega
  have hunit : unit? (hexDigit (n / 0x1000 % 16)) (hexDigit (n / 0x100 % 16))
      (hexDigit (n / 0x10 % 16)) (hexDigit (n % 16)) = some (CodePoint.ofNat n) := by
    simp only [unit?, hexValue?_hexDigit _ (Nat.mod_lt _ (show 0 < 16 by decide))]
    exact congrArg (fun k => some (CodePoint.ofNat k)) hvalue
  simp only [unitEscape, List.cons_append, List.nil_append, readUnits, hunit]
  cases readUnits t <;> rfl

theorem readUnits_shortEscape
    {c : Char}
    {p : CodePoint}
    (h : shortEscape? c = some p)
    (t : Text) :
    readUnits ('\\' :: c :: t) = (readUnits t).map (behind [p]) := by
  have hc : c ≠ 'u' := by
    rintro rfl
    cases h
  rw [readUnits]
  · simp only [h]
    cases readUnits t <;> rfl
  · intro a b d e t' hu
    exact absurd hu hc

theorem readUnits_plain
    {c : Char}
    (hcontrol : 0x20 ≤ c.toNat)
    (hquote : c ≠ '"')
    (hslash : c ≠ '\\')
    (t : Text) :
    readUnits (c :: t) = (readUnits t).map (behind [CodePoint.ofChar c]) := by
  have hplain : (decide (c.toNat < 0x20) || c == '\\') = false := by
    simp [hslash, hcontrol]
  rw [readUnits]
  · rw [if_neg (by simp [hplain])]
    cases readUnits t <;> rfl
  · exact hquote
  · intro _ _ _ _ _ hc
    exact absurd hc hslash
  · intro _ _ hc
    exact absurd hc hslash

/-- A written code point is read as its units. -/
theorem readUnits_escape
    (p : CodePoint)
    (t : Text) :
    readUnits (escape p ++ t) = (readUnits t).map (behind (units p)) := by
  have hlimit : p.val < 0x110000 := p.isLt
  have hshort : ∀ (n : Nat) (c : Char), p.val = n → n < 0x10000 →
      shortEscape? c = some (CodePoint.ofNat n) →
      readUnits (['\\', c] ++ t) = (readUnits t).map (behind (units p)) := by
    intro n c hn hsmall hescape
    have hp : CodePoint.ofNat n = p := by
      apply Fin.ext
      rw [CodePoint.ofNat, Fin.val_ofNat, ← hn, Nat.mod_eq_of_lt hlimit]
    rw [hp] at hescape
    rw [units, if_pos (hn ▸ hsmall)]
    exact readUnits_shortEscape hescape t
  unfold escape
  split_ifs with hquote hslash hfeed hreturn htab hpage hback hplain hunit
  · exact hshort _ _ hquote (by decide) rfl
  · exact hshort _ _ hslash (by decide) rfl
  · exact hshort _ _ hfeed (by decide) rfl
  · exact hshort _ _ hreturn (by decide) rfl
  · exact hshort _ _ htab (by decide) rfl
  · exact hshort _ _ hpage (by decide) rfl
  · exact hshort _ _ hback (by decide) rfl
  · have hchar : (Char.ofNat p.val).toNat = p.val := by
      rw [Char.ofNat, dif_pos (Or.inl (by omega))]
      rfl
    have hp : CodePoint.ofChar (Char.ofNat p.val) = p := Fin.ext hchar
    have hne : ∀ c : Char, c.toNat ≠ p.val → Char.ofNat p.val ≠ c := by
      rintro _ hc rfl
      exact hc hchar
    rw [List.singleton_append, readUnits_plain (by omega) (hne _ (Ne.symm hquote))
      (hne _ (Ne.symm hslash)), hp, units, if_pos (by omega)]
  · have hp : CodePoint.ofNat p.val = p := Fin.ext (Nat.mod_eq_of_lt hlimit)
    rw [readUnits_unitEscape hunit, hp, units, if_pos hunit]
  · rw [List.append_assoc, readUnits_unitEscape (by omega), readUnits_unitEscape (by omega), units,
      if_neg hunit, Option.map_map]
    rfl

/-- A written text is read as the units of its code points. -/
theorem readUnits_escapes
    (t : DocText)
    (rest : Text) :
    readUnits (t.flatMap escape ++ '"' :: rest) = some (t.flatMap units, rest) := by
  induction t with
  | nil => rfl
  | cons p t ih =>
      rw [List.flatMap_cons, List.append_assoc, readUnits_escape, ih, List.flatMap_cons]
      rfl

/-! ## Surrogate pairs -/

/-- The halves of a pair are joined. -/
theorem joinPairs_pair
    {high low : CodePoint}
    (hhigh : high.isHigh = true)
    (hlow : low.isLow = true)
    (t : DocText) :
    joinPairs (high :: low :: t) = CodePoint.ofPair high low :: joinPairs t := by
  rw [joinPairs, if_pos (by simp [hhigh, hlow])]

/-- Where there is no pair, nothing is joined. -/
theorem joinPairs_cons
    {p : CodePoint}
    {t : DocText}
    (h : ∀ q ∈ t.head?, ¬ (p.isHigh = true ∧ q.isLow = true)) :
    joinPairs (p :: t) = p :: joinPairs t := by
  cases t with
  | nil => rfl
  | cons q t => rw [joinPairs, if_neg (by simpa using h q rfl)]

/-- The halves of the pair of a code point join to it. -/
theorem units_of_pair
    {p : CodePoint}
    (h : ¬ p.val < 0x10000) :
    ∃ high low, units p = [high, low] ∧ high.isHigh = true ∧ low.isLow = true ∧
      CodePoint.ofPair high low = p := by
  have hlimit : p.val < 0x110000 := p.isLt
  have hhigh : (CodePoint.ofNat (0xD800 + (p.val - 0x10000) / 0x400)).val =
      0xD800 + (p.val - 0x10000) / 0x400 := Nat.mod_eq_of_lt (by omega)
  have hlow : (CodePoint.ofNat (0xDC00 + (p.val - 0x10000) % 0x400)).val =
      0xDC00 + (p.val - 0x10000) % 0x400 := Nat.mod_eq_of_lt (by omega)
  refine ⟨_, _, if_neg h, ?_, ?_, ?_⟩
  · rw [CodePoint.isHigh_iff, hhigh]
    omega
  · rw [CodePoint.isLow_iff, hlow]
    omega
  · apply Fin.ext
    rw [CodePoint.ofPair, hhigh, hlow, Fin.val_ofNat]
    omega

theorem not_isLow_of_isHigh {p : CodePoint} (h : p.isHigh = true) : ¬ p.isLow = true := by
  rw [CodePoint.isHigh_iff] at h
  rw [CodePoint.isLow_iff]
  omega

theorem val_lt_of_isHigh {p : CodePoint} (h : p.isHigh = true) : p.val < 0x10000 := by
  rw [CodePoint.isHigh_iff] at h
  omega

theorem val_lt_of_isLow {p : CodePoint} (h : p.isLow = true) : p.val < 0x10000 := by
  rw [CodePoint.isLow_iff] at h
  omega

/-- The first unit of a code point is a second half only if the code point is. -/
theorem isLow_of_head_units
    {p q : CodePoint}
    {rest : DocText}
    (hq : q ∈ (units p ++ rest).head?)
    (hlow : q.isLow = true) :
    p.isLow = true := by
  by_cases hp : p.val < 0x10000
  · rw [units, if_pos hp] at hq
    cases hq
    exact hlow
  · obtain ⟨high, low, hunits, hhigh, _⟩ := units_of_pair hp
    rw [hunits] at hq
    cases hq
    exact absurd hlow (not_isLow_of_isHigh hhigh)

/-- A code point whose units come first is joined from them. -/
theorem joinPairs_units_append
    {p : CodePoint}
    {rest : DocText}
    (h : ∀ q ∈ rest.head?, ¬ (p.isHigh = true ∧ q.isLow = true)) :
    joinPairs (units p ++ rest) = p :: joinPairs rest := by
  by_cases hp : p.val < 0x10000
  · rw [units, if_pos hp, List.singleton_append, joinPairs_cons h]
  · obtain ⟨high, low, hunits, hhigh, hlow, hjoin⟩ := units_of_pair hp
    rw [hunits, List.cons_append, List.singleton_append, joinPairs_pair hhigh hlow, hjoin]

/-- Joining the units of a text does what joining the text does. -/
theorem joinPairs_units (t : DocText) : joinPairs (t.flatMap units) = joinPairs t := by
  induction t using joinPairs.induct with
  | case1 high low t hpair ih =>
      obtain ⟨hhigh, hlow⟩ := Bool.and_eq_true_iff.mp hpair
      simp only [List.flatMap_cons]
      rw [units, if_pos (val_lt_of_isHigh hhigh), units, if_pos (val_lt_of_isLow hlow),
        List.singleton_append, List.singleton_append, joinPairs_pair hhigh hlow,
        joinPairs_pair hhigh hlow, ih]
  | case2 high low t hpair ih =>
      have hapart : ¬ (high.isHigh = true ∧ low.isLow = true) := by simpa using hpair
      have hjoin : joinPairs (high :: low :: t) = high :: joinPairs (low :: t) :=
        joinPairs_cons (by simpa using hapart)
      rw [hjoin, List.flatMap_cons, joinPairs_units_append, ih]
      rintro q hq ⟨hhigh, hlow⟩
      rw [List.flatMap_cons] at hq
      exact hapart ⟨hhigh, isLow_of_head_units hq hlow⟩
  | case3 t hshort =>
      match t, hshort with
      | [], _ => rfl
      | [p], _ =>
          rw [List.flatMap_cons, List.flatMap_nil, joinPairs_units_append (by simp)]
          rfl
      | high :: low :: t, hshort => exact absurd rfl (hshort high low t)

/-- A quoted text is read as the text with its surrogate pairs joined. -/
theorem readQuoted_quote
    (t : DocText)
    (rest : Text) :
    readQuoted (t.flatMap escape ++ '"' :: rest) = some (joinPairs t, rest) := by
  rw [readQuoted, readUnits_escapes, ← joinPairs_units]
  rfl

end Document

/-- No two halves of a surrogate pair stand side by side. -/
def DocText.Separate (t : DocText) : Prop :=
  t.IsChain fun p q => ¬ (p.isHigh = true ∧ q.isLow = true)

namespace DocText

theorem length_joinPairs_le (t : DocText) : (Document.joinPairs t).length ≤ t.length := by
  induction t using Document.joinPairs.induct with
  | case1 high low t hpair ih =>
      rw [Document.joinPairs, if_pos hpair]
      simp only [List.length_cons]
      omega
  | case2 high low t hpair ih =>
      rw [Document.joinPairs, if_neg hpair]
      simp only [List.length_cons] at ih ⊢
      omega
  | case3 t hshort => rw [Document.joinPairs.eq_2 t hshort]

/-- Joining changes a text exactly if there is a pair to join. -/
theorem joinPairs_eq_self_iff {t : DocText} : Document.joinPairs t = t ↔ t.Separate := by
  constructor
  · intro h
    induction t using Document.joinPairs.induct with
    | case1 high low t hpair ih =>
        have hlength := congrArg List.length h
        have hle := length_joinPairs_le t
        rw [Document.joinPairs, if_pos hpair] at hlength
        simp only [List.length_cons] at hlength
        omega
    | case2 high low t hpair ih =>
        rw [Document.joinPairs, if_neg hpair] at h
        refine List.isChain_cons.mpr ⟨?_, ih (List.cons.inj h).2⟩
        rintro q ⟨⟩
        simpa using hpair
    | case3 t hshort =>
        match t, hshort with
        | [], _ => exact List.IsChain.nil
        | [p], _ => exact List.IsChain.singleton p
        | high :: low :: t, hshort => exact absurd rfl (hshort high low t)
  · intro h
    induction t with
    | nil => rfl
    | cons p t ih =>
        obtain ⟨hhead, htail⟩ := List.isChain_cons.mp h
        rw [Document.joinPairs_cons hhead, ih htail]

/-- A character is no half of a surrogate pair. -/
theorem not_surrogate_ofChar
    (c : Char) :
    ¬ (CodePoint.ofChar c).isHigh = true ∧ ¬ (CodePoint.ofChar c).isLow = true := by
  have hvalid := c.valid
  simp only [UInt32.isValidChar, Nat.isValidChar] at hvalid
  have hval : (CodePoint.ofChar c).val = c.val.toNat := rfl
  rw [CodePoint.isHigh_iff, CodePoint.isLow_iff]
  omega

theorem toChar_ofChar (c : Char) : (CodePoint.ofChar c).toChar = c := by
  have hwhole := not_surrogate_ofChar c
  rw [CodePoint.toChar, if_neg (by simpa using hwhole)]
  exact Char.ofNat_toNat c

/-- A program text is read back from its document text. -/
theorem toText_ofText (t : Text) : toText (ofText t) = t := by
  rw [toText, ofText, List.map_map]
  exact List.map_id'' toChar_ofChar t

/-- A text of characters holds no halves of pairs. -/
theorem separate_ofText (t : Text) : (ofText t).Separate := by
  induction t with
  | nil => exact List.IsChain.nil
  | cons c t ih =>
      refine List.isChain_cons.mpr ⟨?_, ih⟩
      rintro q _ ⟨hhigh, _⟩
      exact (not_surrogate_ofChar c).1 hhigh

end DocText
end DualTurret
