import DualTurret.Proofs.Block.Numerals
import DualTurret.Proofs.Document.Numbers
import DualTurret.Proofs.Number.Places
import Mathlib.Data.Nat.Digits.Defs

/-!
# Decimal places of feed rates

A feed rate is the number nearest to a decimal number, so one that is typed with few places is
nearest to a multiple of the last place.  Written with that many places, which leaves out needless
zeros and the point before nothing, a multiple is read as the number nearest to it.

Main facts:
* `Block.exists_nearest_of_decimals`: the value of a number text with few decimals;
* `Block.feedRate?_pointText`: a written multiple reads back as the number nearest to it;
* `Binary64.pointText_eq_zero_iff`: only zero is written as a single zero.
-/

namespace DualTurret

namespace Binary64

theorem rankOfDecimal_neg
    (n places : Nat) :
    rankOfDecimal n (-places) = nearestRank n (10 ^ places) := by
  have hexponent : ((0 : Nat) : Int) - places = -places := by omega
  rw [rankOfDecimal_eq n hexponent, Nat.pow_zero, Nat.mul_one]

/-- The digits after the point of a multiple of `10 ^ -places`, all of them. -/
def placeDigits (places n : Nat) : Text :=
  padZeros places (natText (n % Nat.pow 10 places))

theorem plain_placeDigits (places n : Nat) : Document.Plain (placeDigits places n) :=
  (Document.plain_zeros _).append (Document.plain_natText _)

theorem length_placeDigits
    {places : Nat}
    (hplaces : 0 < places)
    (n : Nat) :
    (placeDigits places n).length = places := by
  have hlt : n % Nat.pow 10 places < 10 ^ places := Nat.mod_lt _ (Nat.pow_pos (by decide))
  have hle : (natText (n % Nat.pow 10 places)).length ≤ places :=
    Nat.toDigits_length 10 _ _ hplaces hlt
  rw [placeDigits, padZeros, List.length_append, List.length_replicate]
  omega

/-- The digits after the point denote the part below one. -/
theorem numeralValue_placeDigits
    (places n : Nat) :
    Document.numeralValue (placeDigits places n) = n % 10 ^ places := by
  rw [placeDigits, padZeros, Document.numeralValue_zeros_append, Document.numeralValue_natText,
    Nat.pow_eq]

/-- A text with places is its whole part and its decimals without zeros at the end. -/
theorem pointText_eq
    (places n : Nat) :
    pointText places n = natText (n / 10 ^ places) ++
      Document.pointPart (dropTrailingZeros (placeDigits places n)) :=
  rfl

/-- The digits after the point that are left of a multiple of `10 ^ -places`: with the zeros that
were left out, the digits before and after the point are those of the multiple. -/
structure Fraction (places n : Nat) (fraction : Text) : Prop where
  plain : Document.Plain fraction
  short : fraction.length ≤ places
  value : Document.numeralValue (natText (n / 10 ^ places) ++ fraction) *
    10 ^ (places - fraction.length) = n

theorem fraction_dropTrailingZeros
    {places : Nat}
    (hplaces : 0 < places)
    (n : Nat) :
    Fraction places n (dropTrailingZeros (placeDigits places n)) := by
  obtain ⟨k, hk⟩ := Document.exists_trailingZeros (placeDigits places n)
  have hplain := plain_placeDigits places n
  have hlength := length_placeDigits hplaces n
  have hvalue := numeralValue_placeDigits places n
  generalize dropTrailingZeros (placeDigits places n) = fraction at hk ⊢
  rw [hk] at hplain hlength hvalue
  rw [List.length_append, List.length_replicate] at hlength
  have hzeros : places - fraction.length = k := by omega
  refine ⟨fun c hc => hplain c (List.mem_append_left _ hc), by omega, ?_⟩
  rw [hzeros, ← Document.numeralValue_append_zeros, List.append_assoc,
    Document.numeralValue_append, hvalue, Document.numeralValue_natText, List.length_append,
    List.length_replicate, hlength, Nat.mul_comm]
  exact Nat.div_add_mod n (10 ^ places)

theorem natText_ne_nil (n : Nat) : natText n ≠ [] :=
  (Document.wholePart_natText n).nonempty

/-- Only zero is written as a single zero. -/
theorem pointText_eq_zero_iff (places n : Nat) : pointText places n = ['0'] ↔ n = 0 := by
  obtain ⟨k, hk⟩ := Document.exists_trailingZeros (placeDigits places n)
  have hvalue := numeralValue_placeDigits places n
  have hsplit := Nat.div_add_mod n (10 ^ places)
  rw [pointText_eq]
  constructor
  · intro h
    obtain ⟨d, ds, hwhole⟩ := List.exists_cons_of_ne_nil (natText_ne_nil (n / 10 ^ places))
    rw [hwhole, List.cons_append] at h
    obtain ⟨rfl, hrest⟩ := List.cons.inj h
    obtain ⟨rfl, hpoint⟩ := List.append_eq_nil_iff.mp hrest
    have hquotient : n / 10 ^ places = 0 := by
      rw [← Document.numeralValue_natText (n / 10 ^ places), hwhole]
      rfl
    have hfraction : dropTrailingZeros (placeDigits places n) = [] := by
      unfold Document.pointPart at hpoint
      split_ifs at hpoint with hempty
      exact List.isEmpty_iff.mp hempty
    rw [hk, hfraction, List.nil_append, Document.numeralValue_zeros] at hvalue
    rw [← hvalue, hquotient] at hsplit
    exact hsplit.symm
  · rintro rfl
    have hzeros : dropTrailingZeros (placeDigits places 0) = [] := by
      have hzero : placeDigits places 0 = List.replicate (places - 1) '0' ++ ['0'] := by
        rw [placeDigits, Nat.zero_mod]
        rfl
      rw [dropTrailingZeros, hzero, ← List.replicate_succ', List.reverse_replicate,
        List.dropWhile_replicate]
      rfl
    rw [hzeros, Nat.zero_div]
    rfl

end Binary64

namespace Block

/-! ## The value of a number text -/

/-- The digits after the point of a number text. -/
def decimals (t : Text) : Text :=
  (t.dropWhile (· != '.')).drop 1

def allDigits (t : Text) : Text :=
  t.takeWhile (· != '.') ++ decimals t

/-- A number text denotes all its digits, with the point where it stands. -/
theorem decimalValue_eq
    (t : Text) :
    decimalValue t = Binary64.ofRank false
      (Binary64.rankOfDecimal (runValue (allDigits t)) (-(decimals t).length)) := by
  refine Binary64.ofDecimal_eq false ?_ _
  intro d hd
  obtain ⟨c, _, hc⟩ := List.mem_filterMap.mp hd
  exact Text.digitValue?_lt hc

/-- A number text with few decimals stands for the number nearest to a multiple of the last
place. -/
theorem exists_nearest_of_decimals
    {t : Text}
    {places : Nat}
    (h : (decimals t).length ≤ places) :
    ∃ n, decimalValue t = Binary64.nearest false n (10 ^ places) := by
  refine ⟨runValue (allDigits t) * 10 ^ (places - (decimals t).length), ?_⟩
  have hexponent : -((decimals t).length : Int) - (places - (decimals t).length : Nat) =
      -places := by omega
  rw [decimalValue_eq, Binary64.nearest, ← Binary64.rankOfDecimal_neg, ← hexponent,
    Binary64.rankOfDecimal_mul]

/-! ## Plain digits -/

theorem digitValue?_of_isPlainDigit
    {c : Char}
    (h : Document.isPlainDigit c = true) :
    Text.digitValue? c = some (c.toNat - 48) := by
  obtain ⟨hlow, hhigh⟩ : '0' ≤ c ∧ c ≤ '9' := by
    simpa [Document.isPlainDigit] using h
  have hlow : 48 ≤ c.toNat := hlow
  have hhigh : c.toNat ≤ 57 := hhigh
  have hzero : Text.decimalZeros.find? (fun z => z ≤ c.toNat && c.toNat < z + 10) = some 48 := by
    refine List.find?_cons_of_pos ?_
    simp only [Bool.and_eq_true, decide_eq_true_eq]
    omega
  rw [Text.digitValue?, hzero, Option.map_some]

theorem isDecimal_of_isPlainDigit
    {c : Char}
    (h : Document.isPlainDigit c = true) :
    Text.isDecimal c = true := by
  rw [Text.isDecimal, digitValue?_of_isPlainDigit h]
  rfl

/-- Plain digits have the same value in a block and in a document. -/
theorem runValue_of_plain
    {t : Text}
    (h : Document.Plain t) :
    runValue t = Document.numeralValue t := by
  have hdigits : t.filterMap Text.digitValue? = t.filterMap fun c => some (c.toNat - 48) :=
    List.filterMap_congr fun c hc => digitValue?_of_isPlainDigit (h c hc)
  rw [runValue, hdigits, List.filterMap_eq_map']
  rfl

theorem digits_natText (n : Nat) : Digits (natText n) :=
  ⟨Binary64.natText_ne_nil n, fun c hc => isDecimal_of_isPlainDigit (Document.plain_natText n c hc)⟩

/-! ## Written multiples -/

/-- A feed rate is the number after its letter. -/
theorem feedRate?_of_number
    {t number : Text}
    (h : (unsignedNumber? t).map (·.1) = some number) :
    feedRate? ('F' :: t) = some (decimalValue number) := by
  have hread : feedAt none ('F' :: t) = some number := by
    simpa [feedAt, wordMayBegin] using h
  rw [feedRate?, findAll, hread]
  rfl

/-- Digits with a point and plain digits after it are a number text as a whole. -/
theorem unsignedNumber?_pointPart
    {digits fraction : Text}
    (hdigits : Digits digits)
    (hfraction : Document.Plain fraction) :
    (unsignedNumber? (digits ++ Document.pointPart fraction)).map (·.1) =
      some (digits ++ Document.pointPart fraction) := by
  cases fraction with
  | nil => exact unsignedNumber?_append hdigits rfl
  | cons c fraction =>
      have hrun : (digitRun (c :: fraction)).1 = c :: fraction := by
        refine List.takeWhile_eq_self_iff.mpr ?_
        intro d hd
        exact isDecimal_of_isPlainDigit (hfraction d hd)
      have hnumber := @unsignedNumber?_append digits ('.' :: c :: fraction) hdigits rfl
      rw [pointDigits?, hrun] at hnumber
      exact hnumber

/-- Digits and decimals around a point are told apart again. -/
theorem decimals_pointPart
    {digits : Text}
    (hdigits : Digits digits)
    (fraction : Text) :
    allDigits (digits ++ Document.pointPart fraction) = digits ++ fraction ∧
      decimals (digits ++ Document.pointPart fraction) = fraction := by
  have hpoint : ∀ c ∈ digits, (c != '.') = true := by
    intro c hc
    rw [bne_iff_ne]
    exact ne_of_isDecimal (hdigits.decimal c hc) (by decide)
  have hdecimals : decimals (digits ++ Document.pointPart fraction) = fraction := by
    rw [decimals, List.dropWhile_append_of_pos hpoint]
    cases fraction <;> rfl
  refine ⟨?_, hdecimals⟩
  rw [allDigits, hdecimals, List.takeWhile_append_of_pos hpoint]
  cases fraction <;> simp [Document.pointPart]

/-- A multiple of the last place, as it is written, reads back as the number nearest to it. -/
theorem feedRate?_pointText
    {places : Nat}
    (hplaces : 0 < places)
    (n : Nat) :
    feedRate? ('F' :: Binary64.pointText places n) =
      some (Binary64.nearest false n (10 ^ places)) := by
  have hfraction := Binary64.fraction_dropTrailingZeros hplaces n
  rw [Binary64.pointText_eq]
  generalize Binary64.dropTrailingZeros (Binary64.placeDigits places n) = fraction at hfraction ⊢
  have hdigits := digits_natText (n / 10 ^ places)
  obtain ⟨hall, hdecimals⟩ := decimals_pointPart hdigits fraction
  rw [feedRate?_of_number (unsignedNumber?_pointPart hdigits hfraction.plain), decimalValue_eq,
    hall, hdecimals, runValue_of_plain ((Document.plain_natText _).append hfraction.plain),
    Binary64.nearest, ← Binary64.rankOfDecimal_neg]
  have hexponent : -(fraction.length : Int) - (places - fraction.length : Nat) = -places := by
    have hshort := hfraction.short
    omega
  rw [← Binary64.rankOfDecimal_mul _ (places - fraction.length), hexponent, hfraction.value]

end Block
end DualTurret
