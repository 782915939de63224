import DualTurret.Block.Token
import DualTurret.Proofs.Block.Words

/-!
# The number after an address letter

The number of a word has an optional sign, then digits with an optional point and further digits,
or a point with digits after it.  A letter is followed by many numbers, one the front of the other;
the longest of them is the number of the word.

Main facts:
* `Lexeme.signedNumber?_eq_some_iff`: the number that is read is the longest one;
* `Lexeme.exists_signedNumber?_iff`: where a number is read;
* `Block.LongestNumber.of_atBreak`: before a break every number is the longest one.
-/

namespace DualTurret

theorem Text.isBlank_of_isWordChar {c : Char} (h : isWordChar c = true) : isBlank c = false := by
  by_contra hblank
  rw [isWordChar_of_isBlank (by simpa using hblank)] at h
  cases h

/-- An address letter is not a digit of any script. -/
theorem Text.isLetter_of_isDecimal {c : Char} (h : isDecimal c = true) : isLetter c = false := by
  have hzeros : ∀ z ∈ decimalZeros, z = 0x30 ∨ 0x660 ≤ z := by decide
  obtain ⟨value, hvalue⟩ := Option.isSome_iff_exists.mp h
  obtain ⟨z, hfind, _⟩ := Option.map_eq_some_iff.mp hvalue
  have hrange := List.find?_some hfind
  have hz := hzeros z (List.mem_of_find?_eq_some hfind)
  simp only [Bool.and_eq_true, decide_eq_true_eq] at hrange
  by_contra hletter
  have hbounds : 65 ≤ c.toNat ∧ c.toNat ≤ 122 := by
    simp only [isLetter, Bool.not_eq_false, Bool.or_eq_true, Bool.and_eq_true,
      decide_eq_true_eq] at hletter
    have hA : ('A' ≤ c) = (65 ≤ c.toNat) := rfl
    have hZ : (c ≤ 'Z') = (c.toNat ≤ 90) := rfl
    have ha : ('a' ≤ c) = (97 ≤ c.toNat) := rfl
    have hz : (c ≤ 'z') = (c.toNat ≤ 122) := rfl
    rw [hA, hZ, ha, hz] at hletter
    omega
  omega

namespace Block

def OptionalSign (t : Text) : Prop :=
  t = [] ∨ t = ['+'] ∨ t = ['-']

def SignedNumeral (t : Text) : Prop :=
  ∃ sign number, OptionalSign sign ∧ DecimalNumeral number ∧ t = sign ++ number

/-- After an optional sign comes a digit, or a point with a digit after it. -/
def BeginsNumber (t : Text) : Prop :=
  ∃ sign point digit rest, OptionalSign sign ∧ (point = [] ∨ point = ['.']) ∧
    Text.isDecimal digit = true ∧ t = sign ++ point ++ digit :: rest

/-- The longest number at the front of a text. -/
structure LongestNumber (number t : Text) : Prop where
  numeral : SignedNumeral number
  front : number <+: t
  longest : ∀ other, SignedNumeral other → other <+: t → other.length ≤ number.length

/-- There is only one longest number at the front of a text. -/
theorem LongestNumber.unique
    {number number' t : Text}
    (h : LongestNumber number t)
    (h' : LongestNumber number' t) :
    number = number' := by
  have hle := h.longest number' h'.numeral h'.front
  have hge := h'.longest number h.numeral h.front
  exact (List.prefix_of_prefix_length_le h.front h'.front hge).eq_of_length (by omega)

/-! ## Characters of a number -/

theorem DecimalNumeral.isDecimal_or_point
    {number : Text}
    (h : DecimalNumeral number)
    {c : Char}
    (hc : c ∈ number) :
    Text.isDecimal c = true ∨ c = '.' := by
  cases h with
  | whole hdigits => exact Or.inl (hdigits.decimal c hc)
  | point hwhole hfraction =>
      rcases List.mem_append.mp hc with hc | hc
      · exact Or.inl (hwhole.decimal c hc)
      · rcases List.mem_cons.mp hc with rfl | hc
        · exact Or.inr rfl
        · exact Or.inl (hfraction c hc)
  | fraction hdigits =>
      rcases List.mem_cons.mp hc with rfl | hc
      · exact Or.inr rfl
      · exact Or.inl (hdigits.decimal c hc)

/-- A test that fails on digits, points and signs fails on every character of a number. -/
theorem SignedNumeral.apply_of_mem
    {number : Text}
    (h : SignedNumeral number)
    {p : Char → Bool}
    (hdecimal : ∀ c, Text.isDecimal c = true → p c = false)
    (hpoint : p '.' = false)
    (hplus : p '+' = false)
    (hminus : p '-' = false)
    {c : Char}
    (hc : c ∈ number) :
    p c = false := by
  obtain ⟨sign, number, hsign, hnumber, rfl⟩ := h
  rcases List.mem_append.mp hc with hc | hc
  · rcases hsign with rfl | rfl | rfl
    · cases hc
    · rwa [List.mem_singleton.mp hc]
    · rwa [List.mem_singleton.mp hc]
  · rcases hnumber.isDecimal_or_point hc with hc | rfl
    · exact hdecimal c hc
    · exact hpoint

theorem SignedNumeral.isLetter_of_mem
    {number : Text}
    (h : SignedNumeral number)
    {c : Char}
    (hc : c ∈ number) :
    Text.isLetter c = false :=
  h.apply_of_mem (fun _ => Text.isLetter_of_isDecimal) rfl rfl rfl hc

/-- A number holds no blanks. -/
theorem SignedNumeral.plain {number : Text} (h : SignedNumeral number) : Text.Plain number := by
  intro c hc
  refine h.apply_of_mem ?_ rfl rfl rfl hc
  intro d hd
  exact Text.isBlank_of_isWordChar (Text.isWordChar_of_isDecimal hd)

theorem SignedNumeral.notMem
    {number : Text}
    (h : SignedNumeral number)
    {d : Char}
    (hd : Text.isDecimal d = false)
    (hsigns : '.' ≠ d ∧ '+' ≠ d ∧ '-' ≠ d) :
    d ∉ number := by
  obtain ⟨hpoint, hplus, hminus⟩ := hsigns
  have hdecimal : ∀ e, Text.isDecimal e = true → (e == d) = false :=
    fun _ he => beq_false_of_ne (ne_of_isDecimal he hd)
  intro hmem
  have hself := h.apply_of_mem hdecimal (beq_false_of_ne hpoint) (beq_false_of_ne hplus)
    (beq_false_of_ne hminus) hmem
  exact ne_of_beq_false hself rfl

/-! ## The longest number -/

/-- The number that begins with some digits ends with them, unless a point follows. -/
theorem unsignedNumber?_append
    {digits rest : Text}
    (hdigits : Digits digits)
    (hrest : wordMayEnd rest = true) :
    (unsignedNumber? (digits ++ rest)).map (·.1) =
      some (digits ++ ((pointDigits? rest).map ('.' :: ·)).getD []) := by
  obtain ⟨c, cs, rfl⟩ := List.exists_cons_of_ne_nil hdigits.nonempty
  rw [unsignedNumber?_fst, digitRun_append hdigits hrest]
  cases pointDigits? rest with
  | none => simp
  | some fraction => simp

theorem unsignedNumber?_prefix
    {t number : Text}
    (h : (unsignedNumber? t).map (·.1) = some number) :
    number <+: t := by
  have hsplit : (digitRun t).1 ++ (digitRun t).2 = t :=
    List.takeWhile_append_dropWhile
  rw [unsignedNumber?_fst] at h
  cases hpoint : pointDigits? (digitRun t).2 with
  | none =>
      have hwhole : number = (digitRun t).1 := by
        cases hrun : (digitRun t).1 with
        | nil => simp [hrun, hpoint] at h
        | cons d ds => simpa [hrun, hpoint] using h.symm
      rw [hwhole]
      exact ⟨_, hsplit⟩
  | some fraction =>
      have hnumber : number = (digitRun t).1 ++ '.' :: fraction := by
        cases hrun : (digitRun t).1 with
        | nil =>
            simp only [hrun, hpoint] at h
            split_ifs at h
            simpa using h.symm
        | cons d ds => simpa [hrun, hpoint] using h.symm
      unfold pointDigits? at hpoint
      split at hpoint
      · rename_i t' hrest
        cases hpoint
        have hfraction : '.' :: (digitRun t').1 <+: (digitRun t).2 := by
          rw [hrest]
          exact (List.prefix_cons_inj '.').mpr (List.takeWhile_prefix _)
        have hprefix := (List.prefix_append_right_inj (digitRun t).1).mpr hfraction
        rwa [hsplit, ← hnumber] at hprefix
      · cases hpoint

theorem digitRun_fst_append
    {digits : Text}
    (h : ∀ c ∈ digits, Text.isDecimal c = true)
    (t : Text) :
    (digitRun (digits ++ t)).1 = digits ++ (digitRun t).1 :=
  List.takeWhile_append_of_pos h

/-- No decimal number at the front of a text is longer than the one that is read. -/
theorem exists_unsignedNumber?_of_prefix
    {number t : Text}
    (h : DecimalNumeral number)
    (hfront : number <+: t) :
    ∃ found, (unsignedNumber? t).map (·.1) = some found ∧ number.length ≤ found.length := by
  obtain ⟨rest, rfl⟩ := hfront
  rw [unsignedNumber?_fst]
  cases h with
  | whole hdigits =>
      obtain ⟨d, ds, rfl⟩ := List.exists_cons_of_ne_nil hdigits.nonempty
      rw [digitRun_fst_append hdigits.decimal]
      cases pointDigits? (digitRun (d :: ds ++ rest)).2 with
      | none => exact ⟨_, rfl, by simp⟩
      | some fraction => exact ⟨_, rfl, by simp⟩
  | @point whole fraction hwhole hfraction =>
      obtain ⟨d, ds, rfl⟩ := List.exists_cons_of_ne_nil hwhole.nonempty
      have hrun : digitRun (d :: ds ++ '.' :: fraction ++ rest) =
          (d :: ds, '.' :: (fraction ++ rest)) := by
        rw [List.append_assoc]
        exact digitRun_append hwhole rfl
      rw [hrun, pointDigits?, digitRun_fst_append hfraction]
      exact ⟨_, rfl, by simp⟩
  | @fraction digits hdigits =>
      obtain ⟨d, ds, rfl⟩ := List.exists_cons_of_ne_nil hdigits.nonempty
      have hrun : digitRun ('.' :: d :: ds ++ rest) = ([], '.' :: (d :: ds ++ rest)) := rfl
      rw [hrun, pointDigits?, digitRun_fst_append hdigits.decimal]
      exact ⟨_, rfl, by simp⟩

theorem DecimalNumeral.ne_nil {number : Text} (h : DecimalNumeral number) : number ≠ [] := by
  cases h with
  | whole hdigits => exact hdigits.nonempty
  | point hwhole hfraction => simp
  | fraction hdigits => simp

theorem SignedNumeral.beginsNumber
    {number : Text}
    (h : SignedNumeral number)
    (rest : Text) :
    BeginsNumber (number ++ rest) := by
  obtain ⟨sign, number, hsign, hnumber, rfl⟩ := h
  rw [List.append_assoc]
  cases hnumber with
  | whole hdigits =>
      obtain ⟨d, ds, rfl⟩ := List.exists_cons_of_ne_nil hdigits.nonempty
      refine ⟨sign, [], d, ds ++ rest, hsign, Or.inl rfl, hdigits.decimal d (by simp), ?_⟩
      simp
  | @point whole fraction hwhole hfraction =>
      obtain ⟨d, ds, rfl⟩ := List.exists_cons_of_ne_nil hwhole.nonempty
      refine ⟨sign, [], d, ds ++ '.' :: fraction ++ rest, hsign, Or.inl rfl,
        hwhole.decimal d (by simp), ?_⟩
      simp
  | @fraction digits hdigits =>
      obtain ⟨d, ds, rfl⟩ := List.exists_cons_of_ne_nil hdigits.nonempty
      refine ⟨sign, ['.'], d, ds ++ rest, hsign, Or.inr rfl, hdigits.decimal d (by simp), ?_⟩
      simp

/-- Where a number may begin, one stands. -/
theorem BeginsNumber.exists_numeral
    {t : Text}
    (h : BeginsNumber t) :
    ∃ number, SignedNumeral number ∧ number <+: t := by
  obtain ⟨sign, point, digit, rest, hsign, hpoint, hdigit, rfl⟩ := h
  have hdigits : Digits [digit] := ⟨by simp, by simpa using hdigit⟩
  have hnumber : DecimalNumeral (point ++ [digit]) := by
    rcases hpoint with rfl | rfl
    · exact .whole hdigits
    · exact .fraction hdigits
  exact ⟨sign ++ (point ++ [digit]), ⟨sign, _, hsign, hnumber, rfl⟩, rest, by simp⟩

end Block

namespace Lexeme

open Block (LongestNumber SignedNumeral BeginsNumber)

/-- No number at the front of a text is longer than the one that is read. -/
theorem exists_signedNumber?_of_prefix
    {number t : Text}
    (h : SignedNumeral number)
    (hfront : number <+: t) :
    ∃ found, signedNumber? t = some found ∧ number.length ≤ found.length := by
  obtain ⟨sign, number, hsign, hnumber, rfl⟩ := h
  obtain ⟨rest, rfl⟩ := hfront
  obtain ⟨found, hfound, hle⟩ :=
    Block.exists_unsignedNumber?_of_prefix hnumber (List.prefix_append number rest)
  rcases hsign with rfl | hsign
  · obtain ⟨c, cs, rfl⟩ := List.exists_cons_of_ne_nil hnumber.ne_nil
    have hunsigned : ¬ (c == '+' || c == '-') = true := by
      rcases hnumber.isDecimal_or_point List.mem_cons_self with hc | rfl
      · have hplus : c ≠ '+' := Block.ne_of_isDecimal hc (by decide)
        have hminus : c ≠ '-' := Block.ne_of_isDecimal hc (by decide)
        simp [hplus, hminus]
      · decide
    refine ⟨found, ?_, hle⟩
    rw [List.nil_append, List.cons_append, signedNumber?, if_neg hunsigned, ← hfound,
      List.cons_append]
  · obtain ⟨c, rfl, hc⟩ : ∃ c, sign = [c] ∧ (c == '+' || c == '-') = true := by
      rcases hsign with rfl | rfl
      · exact ⟨'+', rfl, rfl⟩
      · exact ⟨'-', rfl, rfl⟩
    obtain ⟨pair, hpair, rfl⟩ := Option.map_eq_some_iff.mp hfound
    refine ⟨c :: pair.1, ?_, Nat.succ_le_succ hle⟩
    rw [List.append_assoc, List.singleton_append, signedNumber?, if_pos hc, hpair]
    rfl

/-- A run of digits is read with the decimals that follow it. -/
theorem signedNumber?_append
    {digits rest : Text}
    (hdigits : Block.Digits digits)
    (hrest : Block.wordMayEnd rest = true) :
    signedNumber? (digits ++ rest) =
      some (digits ++ ((Block.pointDigits? rest).map ('.' :: ·)).getD []) := by
  have hnumber := Block.unsignedNumber?_append hdigits hrest
  obtain ⟨c, cs, rfl⟩ := List.exists_cons_of_ne_nil hdigits.nonempty
  have hc := hdigits.decimal c List.mem_cons_self
  have hplus : c ≠ '+' := Block.ne_of_isDecimal hc (by decide)
  have hminus : c ≠ '-' := Block.ne_of_isDecimal hc (by decide)
  rw [List.cons_append] at hnumber ⊢
  rw [signedNumber?, if_neg (by simp [hplus, hminus]), hnumber]

/-- What is read at the front of a text is a number. -/
theorem signedNumber?_spec
    {t number : Text}
    (h : signedNumber? t = some number) :
    SignedNumeral number ∧ number <+: t := by
  cases t with
  | nil => cases h
  | cons c t =>
      rw [signedNumber?] at h
      split_ifs at h with hc
      · obtain ⟨found, hfound, rfl⟩ := Option.map_eq_some_iff.mp h
        have hunsigned : (Block.unsignedNumber? t).map (·.1) = some found.1 := by
          rw [hfound]
          rfl
        have hsign : Block.OptionalSign [c] := by
          rw [Bool.or_eq_true, beq_iff_eq, beq_iff_eq] at hc
          rcases hc with rfl | rfl
          · exact Or.inr (Or.inl rfl)
          · exact Or.inr (Or.inr rfl)
        exact ⟨⟨[c], found.1, hsign, Block.decimalNumeral_of_unsignedNumber? hunsigned, rfl⟩,
          (List.prefix_cons_inj c).mpr (Block.unsignedNumber?_prefix hunsigned)⟩
      · exact ⟨⟨[], number, Or.inl rfl, Block.decimalNumeral_of_unsignedNumber? h, rfl⟩,
          Block.unsignedNumber?_prefix h⟩

/-- The number that is read is the longest one. -/
theorem signedNumber?_eq_some_iff
    {t number : Text} :
    signedNumber? t = some number ↔ LongestNumber number t := by
  have hread : ∀ {found}, signedNumber? t = some found → LongestNumber found t := by
    intro found hfound
    obtain ⟨hnumeral, hfront⟩ := signedNumber?_spec hfound
    refine ⟨hnumeral, hfront, ?_⟩
    intro other hother hfront
    obtain ⟨found', hfound', hle⟩ := exists_signedNumber?_of_prefix hother hfront
    rw [hfound] at hfound'
    cases hfound'
    exact hle
  constructor
  · exact hread
  · intro h
    obtain ⟨found, hfound, _⟩ := exists_signedNumber?_of_prefix h.numeral h.front
    rw [hfound, (hread hfound).unique h]

/-- A number is read exactly where one may begin. -/
theorem exists_signedNumber?_iff
    {t : Text} :
    (∃ number, signedNumber? t = some number) ↔ BeginsNumber t := by
  constructor
  · rintro ⟨number, hnumber⟩
    obtain ⟨hnumeral, rest, rfl⟩ := signedNumber?_spec hnumber
    exact hnumeral.beginsNumber rest
  · intro h
    obtain ⟨number, hnumber, hfront⟩ := h.exists_numeral
    obtain ⟨found, hfound, _⟩ := exists_signedNumber?_of_prefix hnumber hfront
    exact ⟨found, hfound⟩

end Lexeme

namespace Block

/-- A number reaches no further than the next break, so before a break it is the longest one. -/
theorem LongestNumber.of_atBreak
    {number rest : Text}
    (h : SignedNumeral number)
    (hrest : Text.AtBreak rest) :
    LongestNumber number (number ++ rest) := by
  refine ⟨h, List.prefix_append number rest, ?_⟩
  intro other hother hfront
  by_contra hlonger
  obtain ⟨more, rfl⟩ : number <+: other :=
    List.prefix_of_prefix_length_le (List.prefix_append number rest) hfront (by omega)
  rw [List.prefix_append_right_inj] at hfront
  cases more with
  | nil => simp at hlonger
  | cons c more =>
      obtain ⟨after, rfl⟩ := hfront
      have hblank : Text.isBlank c = true := hrest
      rw [hother.plain c (by simp)] at hblank
      cases hblank

end Block
end DualTurret
