import DualTurret.Block.Wait
import DualTurret.Proofs.Block.Conversion
import DualTurret.Proofs.Number.Nearest

/-!
# Whole-number words and their values

A whole-number word is an address letter where a word may begin, all digits that follow it,
and then the end of a word.  The search for words goes from left to right, so the first word it
finds is the leftmost one.  The digits of a word, of whatever script, denote a number.  It is the
value of the word, unless more than eighteen digits stand after the plain zeros in front.  Then
the word has no value, and the number is large, provided that the zeros in front are plain ones.

Main facts:
* `Block.mem_findAll_iff`: what a search finds, by position;
* `Block.firstWord_iff`: the first word that is found is the leftmost one;
* `Block.wordValue?_eq`: which words have a value, and which value;
* `Block.pow_le_runValue`: the number of a word that is too long to have a value;
* `Block.mem_waitCodes_iff`: the wait codes of a line.
-/

namespace DualTurret

/-- The value of a digit is less than ten. -/
theorem Text.digitValue?_lt {c : Char} {d : Nat} (h : digitValue? c = some d) : d < 10 := by
  obtain ⟨z, hfind, rfl⟩ := Option.map_eq_some_iff.mp h
  have hrange := List.find?_some hfind
  simp only [Bool.and_eq_true, decide_eq_true_eq] at hrange
  omega

theorem ValueRange.contains_iff
    {range : ValueRange}
    {n : Nat} :
    range.contains n = true ↔ range.low ≤ n ∧ n ≤ range.high := by
  rw [ValueRange.contains, Bool.and_eq_true, decide_eq_true_eq, decide_eq_true_eq]

namespace Block

/-! ## The leftmost word -/

theorem getLast?_cons_or
    (c : Char)
    (first : Text)
    (before : Option Char) :
    (c :: first).getLast?.or before = first.getLast?.or (some c) := by
  rw [List.getLast?_cons]
  cases first.getLast? <;> rfl

/-- What is found in a text is what is read at some position of it. -/
theorem mem_findAll_iff
    {α : Type}
    {read : Option Char → Text → Option α}
    {t : Text}
    {a : α}
    {before : Option Char} :
    a ∈ findAll read before t ↔
      ∃ first rest, t = first ++ rest ∧ read (first.getLast?.or before) rest = some a := by
  induction t generalizing before with
  | nil =>
      rw [findAll, Option.mem_toList]
      constructor
      · intro h
        exact ⟨[], [], rfl, h⟩
      · rintro ⟨first, rest, hsplit, h⟩
        obtain ⟨rfl, rfl⟩ := List.append_eq_nil_iff.mp hsplit.symm
        exact h
  | cons c t ih =>
      rw [findAll, List.mem_append, Option.mem_toList, ih]
      constructor
      · rintro (h | ⟨first, rest, rfl, h⟩)
        · exact ⟨[], c :: t, rfl, h⟩
        · exact ⟨c :: first, rest, rfl, by rwa [getLast?_cons_or]⟩
      · rintro ⟨first, rest, hsplit, h⟩
        cases first with
        | nil =>
            rw [List.nil_append] at hsplit
            exact Or.inl (hsplit ▸ h)
        | cons d first =>
            obtain ⟨rfl, rfl⟩ := List.cons.inj hsplit
            rw [getLast?_cons_or] at h
            exact Or.inr ⟨first, rest, rfl, h⟩

/-- The first thing that a search finds is what is read at the leftmost position at which
anything is read. -/
theorem head?_findAll_eq_some_iff
    {α : Type}
    {read : Option Char → Text → Option α}
    {t : Text}
    {a : α}
    {before : Option Char} :
    (findAll read before t).head? = some a ↔
      ∃ first rest, t = first ++ rest ∧ read (first.getLast?.or before) rest = some a ∧
        ∀ first' rest', t = first' ++ rest' → first'.length < first.length →
          read (first'.getLast?.or before) rest' = none := by
  induction t generalizing before with
  | nil =>
      rw [findAll, Option.head?_toList]
      constructor
      · intro h
        exact ⟨[], [], rfl, h, fun _ _ _ hshorter => absurd hshorter (Nat.not_lt_zero _)⟩
      · rintro ⟨first, rest, hsplit, h, _⟩
        obtain ⟨rfl, rfl⟩ := List.append_eq_nil_iff.mp hsplit.symm
        exact h
  | cons c t ih =>
      rw [findAll]
      cases hhere : read before (c :: t) with
      | some b =>
          rw [Option.toList_some, List.singleton_append, List.head?_cons]
          constructor
          · rintro ⟨⟩
            exact ⟨[], c :: t, rfl, hhere,
              fun _ _ _ hshorter => absurd hshorter (Nat.not_lt_zero _)⟩
          · rintro ⟨first, rest, hsplit, h, hleftmost⟩
            cases first with
            | nil =>
                rw [List.nil_append] at hsplit
                rw [← hsplit] at h
                exact hhere.symm.trans h
            | cons d first =>
                have hnone := hleftmost [] (c :: t) rfl (by simp)
                cases hhere.symm.trans hnone
      | none =>
          rw [Option.toList_none, List.nil_append, ih]
          constructor
          · rintro ⟨first, rest, rfl, h, hleftmost⟩
            refine ⟨c :: first, rest, rfl, by rwa [getLast?_cons_or], ?_⟩
            intro first' rest' hsplit hshorter
            cases first' with
            | nil =>
                rw [List.nil_append] at hsplit
                rw [← hsplit]
                exact hhere
            | cons d first' =>
                obtain ⟨rfl, htail⟩ := List.cons.inj hsplit
                rw [getLast?_cons_or]
                exact hleftmost first' rest' htail (Nat.lt_of_succ_lt_succ hshorter)
          · rintro ⟨first, rest, hsplit, h, hleftmost⟩
            cases first with
            | nil =>
                rw [List.nil_append] at hsplit
                rw [← hsplit] at h
                cases hhere.symm.trans h
            | cons d first =>
                obtain ⟨rfl, rfl⟩ := List.cons.inj hsplit
                rw [getLast?_cons_or] at h
                refine ⟨first, rest, rfl, h, ?_⟩
                intro first' rest' hsplit' hshorter
                have hnone := hleftmost (c :: first') rest' (congrArg (c :: ·) hsplit')
                  (Nat.succ_lt_succ hshorter)
                rwa [getLast?_cons_or] at hnone

/-- Digits with no digit behind them are the run that is read. -/
theorem digitRun_of_stop
    {digits rest : Text}
    (hdigits : ∀ c ∈ digits, Text.isDecimal c = true)
    (hstop : ∀ c, rest.head? = some c → Text.isDecimal c = false) :
    digitRun (digits ++ rest) = (digits, rest) := by
  have hrest : rest.takeWhile Text.isDecimal = [] ∧ rest.dropWhile Text.isDecimal = rest := by
    cases rest with
    | nil => exact ⟨rfl, rfl⟩
    | cons c rest => simp [hstop c rfl]
  rw [digitRun, List.takeWhile_append_of_pos hdigits, List.dropWhile_append_of_pos hdigits,
    hrest.1, hrest.2, List.append_nil]

/-- The digits of a word are its own: none comes before and none after them. -/
theorem digitRun_append
    {digits rest : Text}
    (hdigits : Digits digits)
    (hrest : wordMayEnd rest = true) :
    digitRun (digits ++ rest) = (digits, rest) := by
  refine digitRun_of_stop hdigits.decimal ?_
  intro c hc
  obtain ⟨rest, rfl⟩ := List.head?_eq_some_iff.mp hc
  by_contra hdecimal
  rw [wordMayEnd, Text.isWordChar_of_isDecimal (by simpa using hdecimal)] at hrest
  cases hrest

/-- A whole-number word is its letter with a run of digits, where a word may begin and end. -/
theorem wholeWordAt_eq_some_iff
    {address : Char}
    {before : Option Char}
    {t digits : Text} :
    wholeWordAt address before t = some digits ↔
      wordMayBegin before = true ∧ Digits digits ∧
        ∃ rest, t = address :: (digits ++ rest) ∧ wordMayEnd rest = true := by
  constructor
  · intro h
    cases t with
    | nil => cases h
    | cons c t =>
        simp only [wholeWordAt] at h
        split_ifs at h with hbegin hend
        cases h
        rw [Bool.and_eq_true, beq_iff_eq] at hbegin
        rw [Bool.and_eq_true] at hend
        refine ⟨hbegin.2, digits_of_digitRun (by simpa using hend.1), (digitRun t).2, ?_, hend.2⟩
        rw [hbegin.1]
        exact congrArg (address :: ·) List.takeWhile_append_dropWhile.symm
  · rintro ⟨hbegin, hdigits, rest, rfl, hend⟩
    simp [wholeWordAt, hbegin, digitRun_append hdigits hend, hdigits.nonempty, hend]

/-- What a reader finds after the first part of a line. -/
def ReadsAt {α : Type} (read : Option Char → Text → Option α) (line before : Text) (a : α) : Prop :=
  ∃ rest, line = before ++ rest ∧ read before.getLast? rest = some a

/-- The first thing that a search finds in a line stands leftmost of all that is read there. -/
theorem head?_findAll_iff_leftmost
    {α : Type}
    {read : Option Char → Text → Option α}
    {line : Text}
    {a : α} :
    (findAll read none line).head? = some a ↔
      ∃ before, ReadsAt read line before a ∧
        ∀ before' a', ReadsAt read line before' a' → before.length ≤ before'.length := by
  rw [head?_findAll_eq_some_iff]
  simp only [Option.or_none]
  constructor
  · rintro ⟨before, rest, rfl, hread, hleftmost⟩
    refine ⟨before, ⟨rest, rfl, hread⟩, ?_⟩
    rintro before' a' ⟨rest', hsplit, hother⟩
    by_contra hshorter
    rw [hleftmost before' rest' hsplit (by omega)] at hother
    cases hother
  · rintro ⟨before, ⟨rest, hline, hread⟩, hleftmost⟩
    refine ⟨before, rest, hline, hread, ?_⟩
    intro before' rest' hsplit hshorter
    cases hother : read before'.getLast? rest' with
    | none => rfl
    | some other =>
        have hle := hleftmost before' other ⟨rest', hsplit, hother⟩
        omega

/-- After the first part of a line a whole-number word stands: the address where no word character
precedes, the digits, and then no word character. -/
structure WordAt (address : Char) (line before digits : Text) : Prop where
  begins : wordMayBegin before.getLast? = true
  decimal : Digits digits
  ends : ∃ rest, line = before ++ address :: (digits ++ rest) ∧ wordMayEnd rest = true

/-- The digits of the leftmost whole-number word of a line. -/
def FirstWord (address : Char) (line digits : Text) : Prop :=
  ∃ before, WordAt address line before digits ∧
    ∀ before' digits', WordAt address line before' digits' → before.length ≤ before'.length

/-- A word stands where the reader finds one. -/
theorem wordAt_iff
    {address : Char}
    {line before digits : Text} :
    WordAt address line before digits ↔ ReadsAt (wholeWordAt address) line before digits := by
  constructor
  · rintro ⟨hbegin, hdigits, rest, hline, hend⟩
    exact ⟨_, hline, wholeWordAt_eq_some_iff.mpr ⟨hbegin, hdigits, rest, rfl, hend⟩⟩
  · rintro ⟨_, rfl, hread⟩
    obtain ⟨hbegin, hdigits, rest, rfl, hend⟩ := wholeWordAt_eq_some_iff.mp hread
    exact ⟨hbegin, hdigits, rest, rfl, hend⟩

/-- The first word that a search finds is the leftmost one. -/
theorem firstWord_iff
    {address : Char}
    {line digits : Text} :
    FirstWord address line digits ↔ (wholeWords address line).head? = some digits := by
  simp only [FirstWord, wordAt_iff, wholeWords, head?_findAll_iff_leftmost]

/-! ## The number of a run of digits -/

/-- The number that digits of any script denote. -/
def runValue (digits : Text) : Nat :=
  Binary64.digitsValue (digits.filterMap Text.digitValue?)

/-- More than eighteen digits are left without the plain zeros in front. -/
def Overlong (digits : Text) : Prop :=
  18 < (digits.dropWhile (· == '0')).length

instance (digits : Text) : Decidable (Overlong digits) :=
  inferInstanceAs (Decidable (18 < _))

/-- After the plain zeros in front comes a zero of another script. -/
def OtherZeroLeads (digits : Text) : Prop :=
  ∃ c rest, digits.dropWhile (· == '0') = c :: rest ∧ Text.digitValue? c = some 0

theorem filterMap_digitValue?_cons
    {c : Char}
    (hc : Text.isDecimal c = true)
    (t : Text) :
    ∃ d, Text.digitValue? c = some d ∧
      (c :: t).filterMap Text.digitValue? = d :: t.filterMap Text.digitValue? := by
  obtain ⟨d, hd⟩ := Option.isSome_iff_exists.mp hc
  exact ⟨d, hd, List.filterMap_cons_some hd⟩

theorem length_filterMap_digitValue?
    {t : Text}
    (h : ∀ c ∈ t, Text.isDecimal c = true) :
    (t.filterMap Text.digitValue?).length = t.length := by
  induction t with
  | nil => rfl
  | cons c t ih =>
      obtain ⟨d, _, hcons⟩ := filterMap_digitValue?_cons (h c List.mem_cons_self) t
      rw [hcons, List.length_cons, List.length_cons,
        ih fun other hother => h other (List.mem_cons_of_mem _ hother)]

/-- Zeros in front do not change a value. -/
theorem runValue_dropZeros
    (digits : Text) :
    runValue (digits.dropWhile (· == '0')) = runValue digits := by
  induction digits with
  | nil => rfl
  | cons c digits ih =>
      by_cases hc : c = '0'
      · subst hc
        have hzero : ('0' :: digits).filterMap Text.digitValue? =
            0 :: digits.filterMap Text.digitValue? := List.filterMap_cons_some rfl
        rw [List.dropWhile_cons_of_pos (by rfl), ih, runValue, runValue, hzero,
          Binary64.digitsValue_cons, Nat.zero_mul, Nat.zero_add]
      · rw [List.dropWhile_cons_of_neg (by simpa using hc)]

theorem significant_of_nil
    {digits : Text}
    (h : digits.dropWhile (· == '0') = []) :
    significant digits = ['0'] := by
  rw [significant, h]

theorem significant_of_ne_nil
    {digits : Text}
    (h : digits.dropWhile (· == '0') ≠ []) :
    significant digits = digits.dropWhile (· == '0') := by
  rw [significant]
  split
  · rename_i hnil
    exact absurd hnil h
  · rfl

/-- The significant digits have the value of all. -/
theorem runValue_significant (digits : Text) : runValue (significant digits) = runValue digits := by
  by_cases h : digits.dropWhile (· == '0') = []
  · rw [significant_of_nil h, ← runValue_dropZeros digits, h]
    rfl
  · rw [significant_of_ne_nil h, runValue_dropZeros]

/-- A word is too long if more than eighteen significant digits are left. -/
theorem overlong_iff (digits : Text) : Overlong digits ↔ 18 < (significant digits).length := by
  unfold Overlong
  by_cases h : digits.dropWhile (· == '0') = []
  · rw [significant_of_nil h, h]
    decide
  · rw [significant_of_ne_nil h]

theorem overlong_significant (digits : Text) : Overlong (significant digits) ↔ Overlong digits := by
  by_cases h : digits.dropWhile (· == '0') = []
  · rw [significant_of_nil h, Overlong, Overlong, h]
    decide
  · have hdrop : (digits.dropWhile (· == '0')).dropWhile (· == '0') =
        digits.dropWhile (· == '0') := List.dropWhile_idempotent _ _
    rw [significant_of_ne_nil h, Overlong, hdrop, Overlong]

/-- Which runs of digits have a value, and which value. -/
theorem wordValue?_eq
    (digits : Text) :
    wordValue? digits = if Overlong digits then none else some (runValue digits) := by
  rw [wordValue?, ← runValue_significant]
  simp only [overlong_iff]
  rfl

/-- A word that is too long to have a value denotes a large number, if no zero of another script
comes first in it. -/
theorem pow_le_runValue
    {digits : Text}
    (hdigits : ∀ c ∈ digits, Text.isDecimal c = true)
    (hlong : Overlong digits)
    (hlead : ¬ OtherZeroLeads digits) :
    10 ^ 18 ≤ runValue digits := by
  have hrest : ∀ c ∈ digits.dropWhile (· == '0'), Text.isDecimal c = true :=
    fun c hc => hdigits c ((List.dropWhile_sublist _).subset hc)
  rw [← runValue_dropZeros]
  unfold Overlong at hlong
  cases hdrop : digits.dropWhile (· == '0') with
  | nil =>
      rw [hdrop] at hlong
      cases hlong
  | cons c rest =>
      rw [hdrop] at hlong hrest
      obtain ⟨d, hd, hcons⟩ := filterMap_digitValue?_cons (hrest c List.mem_cons_self) rest
      have hlength := length_filterMap_digitValue? fun other hother =>
        hrest other (List.mem_cons_of_mem c hother)
      have hpositive : d ≠ 0 := by
        rintro rfl
        exact hlead ⟨c, rest, hdrop, hd⟩
      rw [runValue, hcons]
      refine Nat.le_trans (Nat.pow_le_pow_right (by decide) ?_)
        (Binary64.pow_le_digitsValue hpositive _)
      rw [hlength]
      exact Nat.le_of_lt_succ hlong

/-! ## Wait codes -/

/-- Digits are a wait code if their value lies in the range. -/
theorem waitOfDigits?_eq_some_iff
    {address : WaitAddress}
    {range : ValueRange}
    {digits : Text}
    {wait : WaitCode} :
    waitOfDigits? address range digits = some wait ↔
      wait.address = address ∧ wait.digits = digits ∧ wordValue? digits = some wait.value ∧
        range.contains wait.value = true := by
  unfold waitOfDigits?
  constructor
  · intro h
    split at h
    · rename_i value hvalue
      split_ifs at h with hrange
      cases h
      exact ⟨rfl, rfl, hvalue, hrange⟩
    · cases h
  · rintro ⟨rfl, rfl, hvalue, hrange⟩
    simp [hvalue, hrange]

/-- The wait codes of a line with an address are its words whose value lies in the range. -/
theorem mem_waitCodes_iff
    {address : WaitAddress}
    {range : ValueRange}
    {line : Text}
    {wait : WaitCode} :
    wait ∈ waitCodes address range line ↔
      wait.address = address ∧ wait.digits ∈ wholeWords address.letter line ∧
        wordValue? wait.digits = some wait.value ∧ range.contains wait.value = true := by
  rw [waitCodes, List.mem_filterMap]
  simp only [waitOfDigits?_eq_some_iff]
  constructor
  · rintro ⟨digits, hdigits, haddress, rfl, hvalue⟩
    exact ⟨haddress, hdigits, hvalue⟩
  · rintro ⟨haddress, hdigits, hvalue⟩
    exact ⟨wait.digits, hdigits, haddress, rfl, hvalue⟩

end Block
end DualTurret
