import DualTurret.Document.Reader
import DualTurret.Document.Writer
import DualTurret.Proofs.Number.Nearest
import Mathlib.Data.List.TakeWhile

/-!
# Numbers in documents

A numeral is read by its parts: a whole part without needless zeros, digits after a point, and
a power of ten.  What the parts denote is the decimal number of all their digits, so both
notations of a floating-point number read back as the rank whose shortest digits they show.

Main facts:
* `Document.readMagnitude_positional` and `Document.readMagnitude_scientific`: the two notations
  denote the same number;
* `Document.readValue_numberText`: a written number reads back, sign included, if it is not a
  whole number of more than 4300 digits.
-/

namespace DualTurret
namespace Document

def Plain (t : Text) : Prop :=
  ∀ c ∈ t, isPlainDigit c = true

def numeralValue (t : Text) : Nat :=
  Binary64.digitsValue (plainDigits t)

def DigitsEnd (rest : Text) : Prop :=
  ∀ c ∈ rest.head?, isPlainDigit c = false

/-- Nothing that continues a number comes first. -/
def NumberEnds (rest : Text) : Prop :=
  ∀ c ∈ rest.head?, isPlainDigit c = false ∧ c ≠ '.' ∧ c ≠ 'e' ∧ c ≠ 'E'

theorem NumberEnds.digitsEnd {rest : Text} (h : NumberEnds rest) : DigitsEnd rest :=
  fun c hc => (h c hc).1

theorem Plain.append {t u : Text} (ht : Plain t) (hu : Plain u) : Plain (t ++ u) := by
  intro c hc
  rcases List.mem_append.mp hc with hc | hc
  · exact ht c hc
  · exact hu c hc

theorem plain_zeros (k : Nat) : Plain (List.replicate k '0') := by
  intro c hc
  rw [List.eq_of_mem_replicate hc]
  rfl

/-- A run of digits ends where no digit follows. -/
theorem digitRun_append
    {t rest : Text}
    (ht : Plain t)
    (hrest : DigitsEnd rest) :
    digitRun (t ++ rest) = (t, rest) := by
  have htake : rest.takeWhile isPlainDigit = [] ∧ rest.dropWhile isPlainDigit = rest := by
    cases rest with
    | nil => exact ⟨rfl, rfl⟩
    | cons c rest => simp [hrest c rfl]
  rw [digitRun, List.takeWhile_append_of_pos ht, List.dropWhile_append_of_pos ht, htake.1, htake.2,
    List.append_nil]

/-! ## Values of digits -/

/-- The value of two runs of digits one after the other. -/
theorem numeralValue_append
    (t u : Text) :
    numeralValue (t ++ u) = numeralValue t * 10 ^ u.length + numeralValue u := by
  simp only [numeralValue, plainDigits, List.map_append, Binary64.digitsValue_append,
    List.length_map]

theorem numeralValue_zeros (k : Nat) : numeralValue (List.replicate k '0') = 0 := by
  induction k with
  | zero => rfl
  | succ k ih =>
      rw [List.replicate_succ', numeralValue_append, ih]
      rfl

theorem numeralValue_zeros_append
    (k : Nat)
    (t : Text) :
    numeralValue (List.replicate k '0' ++ t) = numeralValue t := by
  rw [numeralValue_append, numeralValue_zeros, Nat.zero_mul, Nat.zero_add]

theorem numeralValue_append_zeros
    (t : Text)
    (k : Nat) :
    numeralValue (t ++ List.replicate k '0') = numeralValue t * 10 ^ k := by
  rw [numeralValue_append, numeralValue_zeros, List.length_replicate, Nat.add_zero]

/-- The digits of a number denote it. -/
theorem numeralValue_natText (n : Nat) : numeralValue (natText n) = n := by
  have hvalue : Nat.ofDigitChars 10 (natText n) 0 = n := Nat.ofDigitChars_ten_toDigits
  rw [Nat.ofDigitChars_eq_foldl] at hvalue
  rw [numeralValue, Binary64.digitsValue, plainDigits, List.foldl_map]
  exact hvalue

theorem plain_natText (n : Nat) : Plain (natText n) := by
  intro c hc
  have hdigit := Nat.isDigit_of_mem_toDigits (by decide) (by decide) hc
  exact hdigit

theorem lt_ten_of_mem_plainDigits {t : Text} (ht : Plain t) : ∀ d ∈ plainDigits t, d < 10 := by
  intro d hd
  obtain ⟨c, hc, rfl⟩ := List.mem_map.mp hd
  have hdigit := ht c hc
  simp only [isPlainDigit, Bool.and_eq_true, decide_eq_true_eq] at hdigit
  have hnine : c.toNat ≤ 57 := hdigit.2
  omega

/-- Plain digits denote the number of the rank nearest to their value. -/
theorem ofDecimal_plainDigits
    (negative : Bool)
    {t : Text}
    (ht : Plain t)
    (exponent : Int) :
    Binary64.ofDecimal negative (plainDigits t) exponent =
      Binary64.ofRank negative (Binary64.rankOfDecimal (numeralValue t) exponent) :=
  Binary64.ofDecimal_eq negative (lt_ten_of_mem_plainDigits ht) exponent

/-! ## The parts of a numeral -/

/-- Digits that may be the whole part of a number: a zero stands alone there. -/
structure WholePart (t : Text) : Prop where
  plain : Plain t
  nonempty : t ≠ []
  zero : ∀ rest, t = '0' :: rest → rest = []

theorem readMagnitude_append
    (negative : Bool)
    {whole t : Text}
    (hwhole : WholePart whole)
    (ht : DigitsEnd t) :
    readMagnitude negative (whole ++ t) = finishNumber negative whole t := by
  have hrun := digitRun_append hwhole.plain ht
  obtain ⟨c, rest, rfl⟩ := List.exists_cons_of_ne_nil hwhole.nonempty
  by_cases hc : c = '0'
  · subst hc
    rw [hwhole.zero rest rfl]
    rfl
  · rw [List.cons_append] at hrun ⊢
    rw [readMagnitude]
    · simp only [hrun, List.isEmpty_cons, Bool.false_eq_true, if_false]
    · intro t' hcons
      exact hc (List.cons.inj hcons).1

/-- A point with the digits after it, if there are any. -/
def pointPart (fraction : Text) : Text :=
  if fraction.isEmpty then [] else '.' :: fraction

theorem fraction?_pointPart
    {fraction rest : Text}
    (hfraction : Plain fraction)
    (hrest : DigitsEnd rest)
    (hpoint : ∀ c ∈ rest.head?, c ≠ '.') :
    (fraction? (pointPart fraction ++ rest)).getD ([], pointPart fraction ++ rest) =
      (fraction, rest) := by
  unfold pointPart
  cases fraction with
  | nil =>
      have hnone : fraction? rest = none := by
        cases rest with
        | nil => rfl
        | cons c rest => simp [fraction?, hpoint c rfl]
      simp [hnone]
  | cons d ds =>
      have hrun := digitRun_append hfraction hrest
      rw [List.cons_append] at hrun
      simp [fraction?, hrun]

def powerPart (power : Int) : Text :=
  'e' :: (if power < 0 then '-' else '+') :: padZeros 2 (natText power.natAbs)

/-- The power of ten of a written number is read back. -/
theorem exponent?_powerPart
    (power : Int)
    {rest : Text}
    (hrest : DigitsEnd rest) :
    exponent? (powerPart power ++ rest) = some (power, rest) := by
  have hplain : Plain (padZeros 2 (natText power.natAbs)) :=
    (plain_zeros _).append (plain_natText _)
  have hvalue : Binary64.digitsValue (plainDigits (padZeros 2 (natText power.natAbs))) =
      power.natAbs := by
    have happend := numeralValue_zeros_append (2 - (natText power.natAbs).length)
      (natText power.natAbs)
    rw [numeralValue_natText] at happend
    exact happend
  have hnonempty : padZeros 2 (natText power.natAbs) ≠ [] := by
    simp [padZeros, natText]
  simp only [exponent?, powerPart, List.cons_append]
  by_cases hsign : power < 0
  · have hpower : -(power.natAbs : Int) = power := by omega
    generalize power.natAbs = magnitude at hplain hvalue hnonempty hpower
    simp [hsign, digitRun_append hplain hrest, hnonempty, hvalue, hpower]
  · have hpower : (power.natAbs : Int) = power := by omega
    generalize power.natAbs = magnitude at hplain hvalue hnonempty hpower
    simp [hsign, digitRun_append hplain hrest, hnonempty, hvalue, hpower]

theorem exponent?_of_numberEnds
    {rest : Text}
    (hrest : NumberEnds rest) :
    exponent? rest = none := by
  cases rest with
  | nil => rfl
  | cons c rest =>
      obtain ⟨_, _, he, hE⟩ := hrest c rfl
      simp [exponent?, he, hE]

/-- A number without point and power is a whole number. -/
theorem finishNumber_whole
    (negative : Bool)
    {whole rest : Text}
    (hlength : whole.length ≤ maxWholeDigits)
    (hrest : NumberEnds rest) :
    finishNumber negative whole rest =
      some (.whole (if negative then -(numeralValue whole : Int) else numeralValue whole),
        rest) := by
  have hfraction : (fraction? rest).getD ([], rest) = ([], rest) :=
    fraction?_pointPart (plain_zeros 0) hrest.digitsEnd fun c hc => (hrest c hc).2.1
  have hshort : ¬ maxWholeDigits < whole.length := Nat.not_lt.mpr hlength
  simp [finishNumber, hfraction, exponent?_of_numberEnds hrest, hshort, numeralValue]

/-- A number with digits after its point is the decimal number of all its digits. -/
theorem finishNumber_fraction
    (negative : Bool)
    {whole fraction rest : Text}
    (hwhole : Plain whole)
    (hfraction : Plain fraction)
    (hnonempty : fraction ≠ [])
    (hrest : NumberEnds rest) :
    finishNumber negative whole ('.' :: (fraction ++ rest)) =
      some (.real (Binary64.ofRank negative
        (Binary64.rankOfDecimal (numeralValue (whole ++ fraction)) (-fraction.length))), rest) := by
  have hpoint := fraction?_pointPart hfraction hrest.digitsEnd fun c hc => (hrest c hc).2.1
  rw [pointPart, if_neg (by simpa using hnonempty), List.cons_append] at hpoint
  rw [← ofDecimal_plainDigits negative (hwhole.append hfraction)]
  simp [finishNumber, hpoint, exponent?_of_numberEnds hrest, hnonempty]

/-- A number with a power of ten is the decimal number of all its digits, with the point moved. -/
theorem finishNumber_power
    (negative : Bool)
    {whole fraction rest : Text}
    (hwhole : Plain whole)
    (hfraction : Plain fraction)
    (power : Int)
    (hrest : DigitsEnd rest) :
    finishNumber negative whole (pointPart fraction ++ (powerPart power ++ rest)) =
      some (.real (Binary64.ofRank negative
        (Binary64.rankOfDecimal (numeralValue (whole ++ fraction)) (power - fraction.length))),
        rest) := by
  have hpoint : (fraction? (pointPart fraction ++ (powerPart power ++ rest))).getD
      ([], pointPart fraction ++ (powerPart power ++ rest)) = (fraction, powerPart power ++ rest) :=
    fraction?_pointPart hfraction (by rintro _ ⟨⟩; rfl) (by rintro _ ⟨⟩; decide)
  rw [← ofDecimal_plainDigits negative (hwhole.append hfraction)]
  simp [finishNumber, hpoint, exponent?_powerPart power hrest]

/-! ## The two notations -/

structure Leading (digits : Text) : Prop where
  plain : Plain digits
  head : ∃ d ds, digits = d :: ds ∧ d ≠ '0'

theorem Leading.nonempty {digits : Text} (h : Leading digits) : digits ≠ [] := by
  obtain ⟨d, ds, rfl, _⟩ := h.head
  exact List.cons_ne_nil d ds

theorem Leading.wholePart {digits : Text} (h : Leading digits) : WholePart digits := by
  refine ⟨h.plain, h.nonempty, ?_⟩
  obtain ⟨d, ds, rfl, hd⟩ := h.head
  intro rest hcons
  exact absurd (List.cons.inj hcons).1 hd

theorem Leading.append
    {digits more : Text}
    (h : Leading digits)
    (hmore : Plain more) :
    Leading (digits ++ more) := by
  refine ⟨h.plain.append hmore, ?_⟩
  obtain ⟨d, ds, rfl, hd⟩ := h.head
  exact ⟨d, ds ++ more, rfl, hd⟩

theorem Leading.take
    {digits : Text}
    (h : Leading digits)
    {k : Nat}
    (hk : 0 < k) :
    Leading (digits.take k) := by
  refine ⟨fun c hc => h.plain c (List.mem_of_mem_take hc), ?_⟩
  obtain ⟨d, ds, rfl, hd⟩ := h.head
  obtain ⟨k, rfl⟩ := Nat.exists_eq_succ_of_ne_zero (Nat.ne_of_gt hk)
  exact ⟨d, ds.take k, rfl, hd⟩

theorem wholePart_zero : WholePart ['0'] :=
  ⟨plain_zeros 1, by simp, fun _ hcons => (List.cons.inj hcons).2.symm⟩

/-- A number with decimals is read as the nearest floating-point number. -/
theorem readMagnitude_fraction
    (negative : Bool)
    {whole fraction rest : Text}
    (hwhole : WholePart whole)
    (hfraction : Plain fraction)
    (hnonempty : fraction ≠ [])
    (hrest : NumberEnds rest) :
    readMagnitude negative (whole ++ '.' :: (fraction ++ rest)) =
      some (.real (Binary64.ofRank negative
        (Binary64.rankOfDecimal (numeralValue (whole ++ fraction)) (-fraction.length))), rest) := by
  have hpoint : DigitsEnd ('.' :: (fraction ++ rest)) := by
    rintro c ⟨⟩
    rfl
  rw [readMagnitude_append negative hwhole hpoint,
    finishNumber_fraction negative hwhole.plain hfraction hnonempty hrest]

/-- Digits around a point denote the decimal number of the digits, with the point where it
stands: in front of the digits, behind them or among them. -/
theorem readMagnitude_positional
    (negative : Bool)
    {digits rest : Text}
    (hdigits : Leading digits)
    (point : Int)
    (hrest : NumberEnds rest) :
    readMagnitude negative (Binary64.positional digits point ++ rest) =
      some (.real (Binary64.ofRank negative
        (Binary64.rankOfDecimal (numeralValue digits) (point - digits.length))), rest) := by
  unfold Binary64.positional
  split_ifs with hfirst hlast
  · have hvalue : numeralValue (['0'] ++ (List.replicate (-point).toNat '0' ++ digits)) =
        numeralValue digits :=
      (numeralValue_zeros_append 1 _).trans (numeralValue_zeros_append _ _)
    have hexponent : -((List.replicate (-point).toNat '0' ++ digits).length : Int) =
        point - digits.length := by
      rw [List.length_append, List.length_replicate]
      omega
    have hread := readMagnitude_fraction negative wholePart_zero
      ((plain_zeros (-point).toNat).append hdigits.plain) (by simp [hdigits.nonempty]) hrest
    rw [hvalue, hexponent] at hread
    simpa using hread
  · have hvalue : numeralValue
        (digits ++ List.replicate (point.toNat - digits.length) '0' ++ ['0']) =
          numeralValue digits * 10 ^ (point.toNat - digits.length + 1) := by
      rw [List.append_assoc, ← List.replicate_succ', numeralValue_append_zeros]
    have hexponent : -((['0'] : Text).length : Int) =
        point - digits.length - (point.toNat - digits.length + 1 : Nat) := by
      rw [List.length_singleton]
      omega
    have hread := readMagnitude_fraction negative
      (hdigits.append (plain_zeros (point.toNat - digits.length))).wholePart (plain_zeros 1)
      (by simp) hrest
    rw [List.replicate_one, hvalue, hexponent, Binary64.rankOfDecimal_mul] at hread
    simpa using hread
  · have hwhole := (hdigits.take (show 0 < point.toNat by omega)).wholePart
    have hexponent : -((digits.drop point.toNat).length : Int) = point - digits.length := by
      rw [List.length_drop]
      omega
    have hread := readMagnitude_fraction negative hwhole
      (fun c hc => hdigits.plain c (List.mem_of_mem_drop hc))
      (by simpa using hlast) hrest
    rw [List.take_append_drop, hexponent] at hread
    simpa using hread

/-- Digits with a power of ten denote the decimal number of the digits, with the point where the
power puts it. -/
theorem readMagnitude_scientific
    (negative : Bool)
    {digits rest : Text}
    (hdigits : Leading digits)
    (point : Int)
    (hrest : NumberEnds rest) :
    readMagnitude negative (Binary64.scientific digits point ++ rest) =
      some (.real (Binary64.ofRank negative
        (Binary64.rankOfDecimal (numeralValue digits) (point - digits.length))), rest) := by
  obtain ⟨d, ds, rfl, _⟩ := hdigits.head
  have hfirst : WholePart [d] := (hdigits.take Nat.one_pos).wholePart
  have htext : Binary64.scientific (d :: ds) point ++ rest =
      [d] ++ (pointPart ds ++ (powerPart (point - 1) ++ rest)) := by
    cases ds <;> simp [Binary64.scientific, pointPart, powerPart]
  have hend : DigitsEnd (pointPart ds ++ (powerPart (point - 1) ++ rest)) := by
    cases ds with
    | nil =>
        rintro c ⟨⟩
        rfl
    | cons e ds =>
        rintro c ⟨⟩
        rfl
  have hexponent : point - 1 - ds.length = point - (d :: ds).length := by
    rw [List.length_cons]
    omega
  rw [htext, readMagnitude_append negative hfirst hend,
    finishNumber_power negative hfirst.plain
      (fun c hc => hdigits.plain c (List.mem_cons_of_mem _ hc)) (point - 1) hrest.digitsEnd,
    hexponent]
  rfl

/-! ## Numbers -/

theorem leading_natText {n : Nat} (hn : n ≠ 0) : Leading (natText n) := by
  refine ⟨plain_natText n, ?_⟩
  have hdigit : ∀ d < 10, d ≠ 0 → Nat.digitChar d ≠ '0' := by decide
  unfold natText
  induction n using Nat.strongRecOn with
  | ind n ih =>
      rw [Nat.toDigits_eq_if (by decide)]
      split_ifs with hsmall
      · exact ⟨_, [], rfl, hdigit n hsmall hn⟩
      · obtain ⟨d, ds, hds, hd⟩ := ih (n / 10) (by omega) (by omega)
        exact ⟨d, ds ++ [Nat.digitChar (n % 10)], by rw [hds, List.cons_append], hd⟩

theorem wholePart_natText (n : Nat) : WholePart (natText n) := by
  by_cases hn : n = 0
  · subst hn
    exact wholePart_zero
  · exact (leading_natText hn).wholePart

/-- Only zeros are dropped at the end of some digits. -/
theorem exists_trailingZeros
    (t : Text) :
    ∃ k, t = Binary64.dropTrailingZeros t ++ List.replicate k '0' := by
  have hzeros : ∀ c ∈ t.reverse.takeWhile (· == '0'), c = '0' := by
    intro c hc
    have hzero := List.mem_takeWhile_imp hc
    exact eq_of_beq hzero
  refine ⟨(t.reverse.takeWhile (· == '0')).length, ?_⟩
  rw [Binary64.dropTrailingZeros, ← List.reverse_replicate, ← List.eq_replicate_of_mem hzeros,
    ← List.reverse_append, List.takeWhile_append_dropWhile, List.reverse_reverse]

/-- The digits of a positive number without the zeros at their end. -/
theorem leading_dropTrailingZeros
    {n : Nat}
    (hn : n ≠ 0) :
    Leading (Binary64.dropTrailingZeros (natText n)) := by
  obtain ⟨k, hk⟩ := exists_trailingZeros (natText n)
  have hplain : Plain (Binary64.dropTrailingZeros (natText n)) := by
    intro c hc
    apply plain_natText n
    rw [hk]
    exact List.mem_append_left _ hc
  obtain ⟨d, ds, hds, hd⟩ := (leading_natText hn).head
  refine ⟨hplain, ?_⟩
  cases hdigits : Binary64.dropTrailingZeros (natText n) with
  | nil =>
      rw [hdigits, List.nil_append] at hk
      have hvalue := numeralValue_natText n
      rw [hk, numeralValue_zeros] at hvalue
      exact absurd hvalue.symm hn
  | cons e es =>
      rw [hdigits, hds] at hk
      cases hk
      exact ⟨d, es, rfl, hd⟩

/-- The text of a positive decimal number is read as the number of its rank. -/
theorem readMagnitude_decimalText
    (negative : Bool)
    {n : Nat}
    (hn : n ≠ 0)
    (exponent : Int)
    {rest : Text}
    (hrest : NumberEnds rest) :
    readMagnitude negative (Binary64.decimalText n exponent ++ rest) =
      some (.real (Binary64.ofRank negative (Binary64.rankOfDecimal n exponent)), rest) := by
  have hdigits := leading_dropTrailingZeros hn
  obtain ⟨k, hk⟩ := exists_trailingZeros (natText n)
  have hlength := congrArg List.length hk
  rw [List.length_append, List.length_replicate] at hlength
  have hnumber : numeralValue (Binary64.dropTrailingZeros (natText n)) * 10 ^ k = n := by
    rw [← numeralValue_append_zeros, ← hk, numeralValue_natText]
  have hexponent : exponent + (natText n).length -
      (Binary64.dropTrailingZeros (natText n)).length = exponent + k := by omega
  have hrank : Binary64.rankOfDecimal (numeralValue (Binary64.dropTrailingZeros (natText n)))
      (exponent + k) = Binary64.rankOfDecimal n exponent := by
    rw [← Binary64.rankOfDecimal_mul _ k, hnumber, Int.add_sub_cancel]
  unfold Binary64.decimalText
  dsimp only
  split_ifs
  · rw [readMagnitude_positional negative hdigits _ hrest, hexponent, hrank]
  · rw [readMagnitude_scientific negative hdigits _ hrest, hexponent, hrank]

/-- The shortest text of a rank reads back as that rank. -/
theorem readMagnitude_shortestText
    (negative : Bool)
    {rank : Nat}
    (hrank : rank ≠ 0)
    {rest : Text}
    (hrest : NumberEnds rest) :
    readMagnitude negative (Binary64.shortestText rank ++ rest) =
      some (.real (Binary64.ofRank negative rank), rest) := by
  have hread := Binary64.rankOfDecimal_shortest rank
  have hn : (Binary64.shortest rank).1 ≠ 0 := by
    intro hzero
    rw [hzero, Binary64.rankOfDecimal_zero] at hread
    exact hrank hread.symm
  rw [Binary64.shortestText, readMagnitude_decimalText negative hn _ hrest, hread]

theorem ne_of_isPlainDigit
    {c d : Char}
    (hc : isPlainDigit c = true)
    (hd : isPlainDigit d = false) :
    c ≠ d := by
  rintro rfl
  rw [hd] at hc
  cases hc

theorem Plain.notMem {t : Text} (h : Plain t) {c : Char} (hc : isPlainDigit c = false) : c ∉ t := by
  intro hmem
  exact ne_of_isPlainDigit (h c hmem) hc rfl

/-- What is read as a number without its sign begins with a digit. -/
theorem exists_digit_of_readMagnitude
    {negative : Bool}
    {t : Text}
    {found : Number × Text}
    (h : readMagnitude negative t = some found) :
    ∃ c rest, t = c :: rest ∧ isPlainDigit c = true := by
  cases t with
  | nil => cases h
  | cons c rest =>
      refine ⟨c, rest, rfl, ?_⟩
      by_contra hc
      have hzero : '0' ≠ c := ne_of_isPlainDigit rfl (by simpa using hc)
      rw [readMagnitude] at h
      · simp [digitRun, hc] at h
      · intro t hcons
        exact hzero (List.cons.inj hcons).1.symm

/-- A number is read with its sign, and no word is mistaken for it. -/
theorem readAtom_of_readMagnitude
    {negative : Bool}
    {t : Text}
    {x : Number}
    {rest : Text}
    (h : readMagnitude negative t = some (x, rest)) :
    readAtom (signed negative t) = some (.number x, rest) := by
  obtain ⟨c, t, rfl, hc⟩ := exists_digit_of_readMagnitude h
  have hne : ∀ d, isPlainDigit d = false → d ≠ c := fun d hd => (ne_of_isPlainDigit hc hd).symm
  cases negative with
  | true =>
      have hnumber : readNumber ('-' :: c :: t) = some (x, rest) := h
      simp [readAtom, namedValues, signed, Text.after?, hne 'I' rfl, hnumber]
  | false =>
      have hnumber : readNumber (c :: t) = some (x, rest) := by
        rw [readNumber]
        · exact h
        · intro t hcons
          exact hne '-' rfl (List.cons.inj hcons).1.symm
      simp [readAtom, namedValues, signed, Text.after?, hne 'n' rfl, hne 't' rfl, hne 'f' rfl,
        hne 'N' rfl, hne 'I' rfl, hne '-' rfl, hnumber]

/-- A text that is neither quoted nor a list nor an object is an atom. -/
theorem readValue_of_atom
    (size depth : Nat)
    {c : Char}
    (hquote : c ≠ '"')
    (hlist : c ≠ '[')
    (hobject : c ≠ '\x7b')
    (t : Text) :
    readValue size depth (c :: t) = orMalformed (readAtom (c :: t)) := by
  cases depth <;> simp [readValue, hquote, hlist, hobject]

theorem readValue_of_readMagnitude
    (size depth : Nat)
    {negative : Bool}
    {t : Text}
    {x : Number}
    {rest : Text}
    (h : readMagnitude negative t = some (x, rest)) :
    readValue size depth (signed negative t) = .ok (.number x, rest) := by
  have hatom := readAtom_of_readMagnitude h
  obtain ⟨c, t, rfl, hc⟩ := exists_digit_of_readMagnitude h
  cases negative with
  | true =>
      rw [signed, if_pos rfl] at hatom ⊢
      rw [readValue_of_atom size depth (by decide) (by decide) (by decide), hatom]
      rfl
  | false =>
      rw [signed, if_neg (by decide)] at hatom ⊢
      rw [readValue_of_atom size depth (ne_of_isPlainDigit hc rfl) (ne_of_isPlainDigit hc rfl)
        (ne_of_isPlainDigit hc rfl), hatom]
      rfl

theorem signed_append
    (negative : Bool)
    (t rest : Text) :
    signed negative t ++ rest = signed negative (t ++ rest) := by
  cases negative <;> rfl

/-- The rank of a finite number gives it back. -/
theorem ofRank_val
    (negative : Bool)
    (rank : Fin infinityRank) :
    Binary64.ofRank negative rank.val = .finite negative rank := by
  rw [Binary64.ofRank, dif_pos rank.isLt]

/-- A whole number that is not too long is read back. -/
theorem readMagnitude_whole
    {n : Int}
    (hn : (natText n.natAbs).length ≤ maxWholeDigits)
    {rest : Text}
    (hrest : NumberEnds rest) :
    readMagnitude (decide (n < 0)) (natText n.natAbs ++ rest) = some (.whole n, rest) := by
  have hsigned : (if decide (n < 0) then -(n.natAbs : Int) else n.natAbs) = n := by
    by_cases hsign : n < 0
    · rw [decide_eq_true hsign, if_pos rfl]
      omega
    · rw [decide_eq_false hsign, if_neg (by decide)]
      omega
  rw [readMagnitude_append _ (wholePart_natText _) hrest.digitsEnd,
    finishNumber_whole _ hn hrest, numeralValue_natText, hsigned]

/-- A finite floating-point number is read back from its shortest digits. -/
theorem readMagnitude_finite
    (negative : Bool)
    (rank : Fin infinityRank)
    {rest : Text}
    (hrest : NumberEnds rest) :
    readMagnitude negative
        ((if rank.val = 0 then "0.0".toList else Binary64.shortestText rank) ++ rest) =
      some (.real (.finite negative rank), rest) := by
  split_ifs with hzero
  · have hread := readMagnitude_fraction negative wholePart_zero (plain_zeros 1) (by simp) hrest
    have hvalue : numeralValue (['0'] ++ List.replicate 1 '0') = 0 := numeralValue_zeros 2
    rw [hvalue, Binary64.rankOfDecimal_zero, ← hzero, ofRank_val] at hread
    exact hread
  · rw [readMagnitude_shortestText negative hzero hrest, ofRank_val]

end Document

/-- Numbers that a document can hold: whole numbers must not be too long. -/
def Number.Writable : Number → Prop
  | .whole n => (natText n.natAbs).length ≤ maxWholeDigits
  | .real _ => True

instance : DecidablePred Number.Writable
  | .whole n => inferInstanceAs (Decidable ((natText n.natAbs).length ≤ maxWholeDigits))
  | .real _ => inferInstanceAs (Decidable True)

namespace Document

/-- A written number reads back. -/
theorem readValue_numberText
    (size depth : Nat)
    {x : Number}
    (hx : x.Writable)
    {rest : Text}
    (hrest : NumberEnds rest) :
    readValue size depth (numberText x ++ rest) = .ok (.number x, rest) := by
  cases x with
  | whole n =>
      have htext : numberText (.whole n) = signed (decide (n < 0)) (natText n.natAbs) := by
        simp [numberText, intText, signed]
      rw [htext, signed_append]
      exact readValue_of_readMagnitude size depth (readMagnitude_whole hx hrest)
  | real x =>
      cases x with
      | finite negative rank =>
          have htext : numberText (.real (.finite negative rank)) = signed negative
              (if rank.val = 0 then "0.0".toList else Binary64.shortestText rank) := rfl
          rw [htext, signed_append]
          exact readValue_of_readMagnitude size depth (readMagnitude_finite negative rank hrest)
      | infinite negative =>
          cases negative with
          | true => exact readValue_of_atom size depth (by decide) (by decide) (by decide) _
          | false => exact readValue_of_atom size depth (by decide) (by decide) (by decide) _
      | nan => exact readValue_of_atom size depth (by decide) (by decide) (by decide) _

end Document
end DualTurret
