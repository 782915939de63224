import DualTurret.Proofs.Block.Spacing
import Mathlib.Tactic.Common

/-!
# Conversions of word texts to numbers

A block is searched for words before any number is read, so a text that is converted has
passed the search: a whole number is read from decimal digits of any script, at most
eighteen of them, and a feed rate from a text of the decimal grammar.  Reading such a text
as a number never fails.

Main facts:
* `Block.converts_of_mem_wholeWords`: the digits of a whole-number word;
* `Block.decimalNumeral_of_mem_findAll`: the number text of a feed rate.
-/

namespace DualTurret
namespace Block

/-- What is found in a text was read at some position of it. -/
theorem exists_of_mem_findAll
    {α : Type}
    {read : Option Char → Text → Option α}
    {before : Option Char}
    {t : Text}
    {a : α}
    (h : a ∈ findAll read before t) :
    ∃ before' rest, read before' rest = some a := by
  induction t generalizing before with
  | nil => exact ⟨before, [], Option.mem_toList.mp h⟩
  | cons c t ih =>
      rcases List.mem_append.mp h with hhere | hlater
      · exact ⟨before, c :: t, Option.mem_toList.mp hhere⟩
      · exact ih hlater

/-- Decimal digits of any script, at least one. -/
structure Digits (t : Text) : Prop where
  nonempty : t ≠ []
  decimal : ∀ c ∈ t, Text.isDecimal c = true

theorem isDecimal_of_mem_digitRun
    {t : Text}
    {c : Char}
    (h : c ∈ (digitRun t).1) :
    Text.isDecimal c = true :=
  List.mem_takeWhile_imp h

theorem digits_of_digitRun {t : Text} (h : (digitRun t).1 ≠ []) : Digits (digitRun t).1 :=
  ⟨h, fun _ => isDecimal_of_mem_digitRun⟩

/-- The words of a line with whole numbers are made of digits. -/
theorem digits_of_mem_wholeWords
    {address : Char}
    {line digits : Text}
    (h : digits ∈ wholeWords address line) :
    Digits digits := by
  obtain ⟨before, rest, hread⟩ := exists_of_mem_findAll h
  cases rest with
  | nil => cases hread
  | cons c rest =>
      simp only [wholeWordAt] at hread
      split_ifs at hread with hbegin hend
      cases hread
      exact digits_of_digitRun (by simpa using (Bool.and_eq_true_iff.mp hend).1)

/-- Leaving out leading zeros leaves digits. -/
theorem Digits.significant {digits : Text} (h : Digits digits) : Digits (significant digits) := by
  unfold Block.significant
  split
  · refine ⟨List.cons_ne_nil _ _, ?_⟩
    intro c hc
    rw [List.mem_singleton.mp hc]
    rfl
  · rename_i rest hrest
    refine ⟨hrest, ?_⟩
    intro c hc
    exact h.decimal c ((List.dropWhile_sublist _).subset hc)

theorem ne_of_isDecimal
    {c d : Char}
    (hc : Text.isDecimal c = true)
    (hd : Text.isDecimal d = false) :
    c ≠ d := by
  rintro rfl
  rw [hd] at hc
  cases hc

theorem isPadding_of_isDecimal {c : Char} (h : Text.isDecimal c = true) : isPadding c = false := by
  have hblank : Text.isBlank c = false := by
    by_contra hblank
    rw [Text.isDecimal_of_isBlank (by simpa using hblank)] at h
    cases h
  simp [isPadding, hblank]

theorem dropWhile_isPadding
    {t : Text}
    (h : ∀ c ∈ t, Text.isDecimal c = true) :
    t.dropWhile isPadding = t := by
  cases t with
  | nil => rfl
  | cons c t =>
      rw [List.dropWhile_cons_of_neg]
      simp [isPadding_of_isDecimal (h c List.mem_cons_self)]

/-- Digits without underscores are read one by one. -/
theorem spacedDigits?_of_decimal
    {t : Text}
    (h : ∀ c ∈ t, Text.isDecimal c = true) :
    spacedDigits? true t = some (t.filterMap Text.digitValue?) := by
  induction t with
  | nil => rfl
  | cons c t ih =>
      have hc := h c List.mem_cons_self
      obtain ⟨d, hd⟩ := Option.isSome_iff_exists.mp hc
      have hunderscore : c ≠ '_' := ne_of_isDecimal hc (by decide)
      have hrest := ih fun other hother => h other (List.mem_cons_of_mem _ hother)
      simp [spacedDigits?, hunderscore, hd, hrest]

/-- Decimal digits alone are read as the whole number they denote. -/
theorem Digits.wholeNumber?
    {t : Text}
    (h : Digits t) :
    Block.wholeNumber? t = some (Binary64.digitsValue (t.filterMap Text.digitValue?) : Int) := by
  obtain ⟨c, rest, rfl⟩ := List.exists_cons_of_ne_nil h.nonempty
  have hbody : (((c :: rest).dropWhile isPadding).reverse.dropWhile isPadding).reverse =
      c :: rest := by
    rw [dropWhile_isPadding h.decimal, dropWhile_isPadding, List.reverse_reverse]
    intro d hd
    exact h.decimal d (List.mem_reverse.mp hd)
  have hminus : c ≠ '-' := ne_of_isDecimal (h.decimal c List.mem_cons_self) (by decide)
  have hplus : c ≠ '+' := ne_of_isDecimal (h.decimal c List.mem_cons_self) (by decide)
  have hdigits : spacedDigits? false (c :: rest) =
      some ((c :: rest).filterMap Text.digitValue?) := by
    rw [← spacedDigits?_of_decimal h.decimal]
    have hunderscore : c ≠ '_' := ne_of_isDecimal (h.decimal c List.mem_cons_self) (by decide)
    simp [spacedDigits?, hunderscore]
  simp only [Block.wholeNumber?, hbody]
  split
  · rename_i hcons
    exact absurd (List.cons.inj hcons).1 hminus
  · rename_i hcons
    exact absurd (List.cons.inj hcons).1 hplus
  · simp [hdigits]

/-- The digits of a word are safe to convert: what is converted are decimal digits, at most
eighteen, and reading them as a whole number gives the value of the word. -/
structure Converts (digits : Text) : Prop where
  significant : Digits (Block.significant digits)
  overlong : wordValue? digits = none ↔ 18 < (Block.significant digits).length
  value : ∀ n, wordValue? digits = some n →
    wholeNumber? (Block.significant digits) = some (n : Int)

/-- Digits convert to a number. -/
theorem Digits.converts {digits : Text} (h : Digits digits) : Converts digits where
  significant := h.significant
  overlong := by
    unfold wordValue? maxValueDigits
    split_ifs with hlong
    · simp [hlong]
    · simp [hlong]
  value := by
    intro n hn
    unfold wordValue? at hn
    split_ifs at hn
    cases hn
    exact h.significant.wholeNumber?

/-- The digits of every whole-number word are safe to convert. -/
theorem converts_of_mem_wholeWords
    {address : Char}
    {line digits : Text}
    (h : digits ∈ wholeWords address line) :
    Converts digits :=
  (digits_of_mem_wholeWords h).converts

/-- The spindle speed of a line converts to a number. -/
theorem converts_of_speedDigits?
    {line digits : Text}
    (h : speedDigits? line = some digits) :
    Converts digits := by
  obtain ⟨word, hword, rfl⟩ := Option.map_eq_some_iff.mp h
  exact (digits_of_mem_wholeWords (List.mem_of_head? hword)).significant.converts

/-- The grammar of an unsigned decimal number: digits, digits with a point and perhaps further
digits, or a point and digits. -/
inductive DecimalNumeral : Text → Prop
  | whole {digits : Text} (hdigits : Digits digits) : DecimalNumeral digits
  | point {whole fraction : Text} (hwhole : Digits whole)
      (hfraction : ∀ c ∈ fraction, Text.isDecimal c = true) :
      DecimalNumeral (whole ++ '.' :: fraction)
  | fraction {digits : Text} (hdigits : Digits digits) : DecimalNumeral ('.' :: digits)

theorem isDecimal_of_mem_pointDigits?
    {t digits : Text}
    {c : Char}
    (h : pointDigits? t = some digits)
    (hc : c ∈ digits) :
    Text.isDecimal c = true := by
  unfold pointDigits? at h
  split at h
  · cases h
    exact isDecimal_of_mem_digitRun hc
  · cases h

/-- What is read as an unsigned number is a decimal number. -/
theorem decimalNumeral_of_unsignedNumber?
    {t number : Text}
    (h : (unsignedNumber? t).map (·.1) = some number) :
    DecimalNumeral number := by
  rw [unsignedNumber?_fst] at h
  have hrun : ∀ c ∈ (digitRun t).1, Text.isDecimal c = true :=
    fun _ => isDecimal_of_mem_digitRun
  cases hwhole : (digitRun t).1 with
  | nil =>
      cases hpoint : pointDigits? (digitRun t).2 with
      | none => simp [hwhole, hpoint] at h
      | some digits =>
          simp only [hwhole, hpoint] at h
          split_ifs at h with hempty
          cases h
          exact .fraction ⟨by simpa using hempty, fun _ => isDecimal_of_mem_pointDigits? hpoint⟩
  | cons c whole =>
      rw [hwhole] at hrun
      have hdigits : Digits (c :: whole) := ⟨by simp, hrun⟩
      cases hpoint : pointDigits? (digitRun t).2 with
      | none =>
          simp only [hwhole, hpoint] at h
          cases h
          exact .whole hdigits
      | some digits =>
          simp only [hwhole, hpoint] at h
          cases h
          exact .point hdigits fun _ => isDecimal_of_mem_pointDigits? hpoint

/-- The number text of every feed rate has the form of a decimal number. -/
theorem decimalNumeral_of_mem_findAll
    {line number : Text}
    (h : number ∈ findAll feedAt none line) :
    DecimalNumeral number := by
  obtain ⟨before, rest, hread⟩ := exists_of_mem_findAll h
  unfold feedAt at hread
  split at hread
  · split_ifs at hread
    exact decimalNumeral_of_unsignedNumber? hread
  · cases hread

/-- A feed rate is the value of a decimal number that stands in the line. -/
theorem exists_decimalNumeral
    {line : Text}
    {rate : Binary64}
    (h : feedRate? line = some rate) :
    ∃ number ∈ findAll feedAt none line, DecimalNumeral number ∧ rate = decimalValue number := by
  obtain ⟨number, hnumber, rfl⟩ := Option.map_eq_some_iff.mp h
  have hfound := List.mem_of_head? hnumber
  exact ⟨number, hfound, decimalNumeral_of_mem_findAll hfound, rfl⟩

end Block
end DualTurret
