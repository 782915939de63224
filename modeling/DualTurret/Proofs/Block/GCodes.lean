import DualTurret.Proofs.Block.Tokens

/-!
# The G codes of a line

A G code is the letter where a word may begin, all digits after it, and then the end of a word.
A point with all digits after it belongs to the code if the word ends behind them.  If it does
not, the point itself ends the word, and the code is the whole part alone.  No code holds a
second letter, so codes never overlap, and looking at every position finds each of them once.
Outside comments the token at such a letter begins with the code.

Main facts:
* `Block.mem_located_iff` and `Block.located_increasing`: a search, position by position;
* `Block.gNumber?_eq_some_iff`: the number of a G code;
* `Block.gCodes_by_position`: the G codes of a line and the tokens that they begin.
-/

namespace DualTurret
namespace Block

/-! ## Positions of what is found -/

section Located

variable {α : Type} (read : Option Char → Text → Option α)

/-- What a search finds, with the position of each.  The text begins at position `start`. -/
def located : Nat → Option Char → Text → List (Nat × α)
  | start, before, [] => ((read before []).map (start, ·)).toList
  | start, before, c :: t =>
      ((read before (c :: t)).map (start, ·)).toList ++ located (start + 1) (some c) t

variable {read}

/-- Forgetting the places leaves what is found. -/
theorem map_snd_located
    (start : Nat)
    (before : Option Char)
    (t : Text) :
    (located read start before t).map Prod.snd = findAll read before t := by
  have hhere : ∀ (start : Nat) (found : Option α),
      (found.map (start, ·)).toList.map Prod.snd = found.toList := by
    intro start found
    cases found <;> rfl
  induction t generalizing start before with
  | nil => rw [located, findAll, hhere]
  | cons c t ih => rw [located, findAll, List.map_append, hhere, ih]

/-- What is found at a place is what the reader makes of the text from there on. -/
theorem mem_located_iff
    {start place : Nat}
    {before : Option Char}
    {t : Text}
    {a : α} :
    (place, a) ∈ located read start before t ↔
      ∃ first rest, t = first ++ rest ∧ place = start + first.length ∧
        read (first.getLast?.or before) rest = some a := by
  have hhere : ∀ (start : Nat) (found : Option α),
      (place, a) ∈ (found.map (start, ·)).toList ↔ place = start ∧ found = some a := by
    intro start found
    cases found with
    | none => simp
    | some b => simp [eq_comm]
  induction t generalizing start before with
  | nil =>
      rw [located, hhere]
      constructor
      · rintro ⟨rfl, hread⟩
        exact ⟨[], [], rfl, rfl, hread⟩
      · rintro ⟨first, rest, hsplit, hplace, hread⟩
        obtain ⟨rfl, rfl⟩ := List.append_eq_nil_iff.mp hsplit.symm
        exact ⟨hplace, hread⟩
  | cons c t ih =>
      simp only [located, List.mem_append, hhere, ih]
      constructor
      · rintro (⟨rfl, hread⟩ | ⟨first, rest, rfl, rfl, hread⟩)
        · exact ⟨[], c :: t, rfl, rfl, hread⟩
        · refine ⟨c :: first, rest, rfl, ?_, by rwa [getLast?_cons_or]⟩
          rw [List.length_cons]
          omega
      · rintro ⟨first, rest, hsplit, hplace, hread⟩
        cases first with
        | nil =>
            rw [List.nil_append] at hsplit
            exact Or.inl ⟨hplace, hsplit ▸ hread⟩
        | cons d first =>
            obtain ⟨rfl, rfl⟩ := List.cons.inj hsplit
            rw [getLast?_cons_or] at hread
            refine Or.inr ⟨first, rest, rfl, ?_, hread⟩
            rw [List.length_cons] at hplace
            omega

/-- A search goes from left to right and finds at most one thing at each position. -/
theorem located_increasing
    (start : Nat)
    (before : Option Char)
    (t : Text) :
    (located read start before t).Pairwise fun a b => a.1 < b.1 := by
  have hhere : ∀ (start : Nat) (found : Option α),
      (found.map (start, ·)).toList.Pairwise fun a b => a.1 < b.1 := by
    intro start found
    cases found with
    | none => exact List.Pairwise.nil
    | some a => exact List.pairwise_singleton _ _
  induction t generalizing start before with
  | nil => exact hhere start _
  | cons c t ih =>
      refine List.pairwise_append.mpr ⟨hhere start _, ih (start + 1) (some c), ?_⟩
      rintro ⟨place, a⟩ ha ⟨place', b⟩ hb
      obtain ⟨found, _, hfound⟩ := Option.map_eq_some_iff.mp (Option.mem_toList.mp ha)
      obtain ⟨first, _, _, rfl, _⟩ := mem_located_iff.mp hb
      cases hfound
      show start < start + 1 + first.length
      omega

end Located

/-! ## The number of a G code -/

/-- Digits, at least one, behind which no further digit follows. -/
structure DigitRun (digits rest : Text) : Prop where
  digits : Digits digits
  maximal : ∀ c, rest.head? = some c → Text.isDecimal c = false

/-- A point, all digits after it, and then no word character. -/
def DecimalPart (rest decimals : Text) : Prop :=
  ∃ after, rest = '.' :: (decimals ++ after) ∧ DigitRun decimals after ∧ wordMayEnd after = true

/-- The number of a G code, from all digits behind its letter and what follows them. -/
inductive CodeNumber
    (digits rest : Text) :
    Text → Prop
  | decimal {decimals : Text} (part : DecimalPart rest decimals) :
      CodeNumber digits rest (digits ++ '.' :: decimals)
  | whole (noPart : ∀ decimals, ¬ DecimalPart rest decimals) (ends : wordMayEnd rest = true) :
      CodeNumber digits rest digits

/-- After the first part of a line a G code stands: the letter where no word character precedes,
all digits behind it, and the number that these begin. -/
structure CodeAt (line before code : Text) : Prop where
  begins : wordMayBegin before.getLast? = true
  written : ∃ digits rest number, line = before ++ 'G' :: (digits ++ rest) ∧
    DigitRun digits rest ∧ CodeNumber digits rest number ∧ code = 'G' :: number

/-- A run is taken as a whole. -/
theorem DigitRun.digitRun_eq
    {digits rest : Text}
    (h : DigitRun digits rest) :
    digitRun (digits ++ rest) = (digits, rest) :=
  digitRun_of_stop h.digits.decimal h.maximal

theorem digitRun_spec
    {t : Text}
    (h : (digitRun t).1 ≠ []) :
    DigitRun (digitRun t).1 (digitRun t).2 := by
  refine ⟨digits_of_digitRun h, ?_⟩
  intro c hc
  have hstop := List.head?_dropWhile_not Text.isDecimal t
  rw [show t.dropWhile Text.isDecimal = (digitRun t).2 from rfl, hc] at hstop
  exact hstop

/-- The reader of decimal parts finds those that are said to be there. -/
theorem decimalPart?_eq_some_iff
    {rest decimals : Text} :
    decimalPart? rest = some decimals ↔ DecimalPart rest decimals := by
  constructor
  · intro h
    unfold decimalPart? at h
    split at h
    · rename_i t
      simp only at h
      split_ifs at h with hpart
      cases h
      rw [Bool.and_eq_true] at hpart
      refine ⟨(digitRun t).2, ?_, digitRun_spec (by simpa using hpart.1), hpart.2⟩
      exact congrArg ('.' :: ·) List.takeWhile_append_dropWhile.symm
    · cases h
  · rintro ⟨after, rfl, hrun, hend⟩
    simp [decimalPart?, hrun.digitRun_eq, hrun.digits.nonempty, hend]

theorem DecimalPart.wordMayEnd
    {rest decimals : Text}
    (h : DecimalPart rest decimals) :
    wordMayEnd rest = true := by
  obtain ⟨after, rfl, _, _⟩ := h
  rfl

theorem CodeNumber.wordMayEnd
    {digits rest number : Text}
    (h : CodeNumber digits rest number) :
    wordMayEnd rest = true := by
  cases h with
  | decimal part => exact part.wordMayEnd
  | whole _ ends => exact ends

/-- The digits behind the letter are all read, and the decimal part only if the word ends there. -/
theorem gNumber?_eq_some_iff
    {t number : Text} :
    gNumber? t = some number ↔
      ∃ digits rest, t = digits ++ rest ∧ DigitRun digits rest ∧ CodeNumber digits rest number := by
  constructor
  · intro h
    have hempty : ¬ (digitRun t).1.isEmpty = true := by
      intro hempty
      simp [gNumber?, hempty] at h
    have hrun : DigitRun (digitRun t).1 (digitRun t).2 := digitRun_spec (by simpa using hempty)
    simp only [gNumber?, if_neg hempty] at h
    refine ⟨_, _, List.takeWhile_append_dropWhile.symm, hrun, ?_⟩
    cases hpart : decimalPart? (digitRun t).2 with
    | some decimals =>
        rw [hpart] at h
        cases h
        exact .decimal (decimalPart?_eq_some_iff.mp hpart)
    | none =>
        simp only [hpart] at h
        split_ifs at h with hend
        cases h
        refine .whole ?_ hend
        intro decimals hdecimals
        cases hpart.symm.trans (decimalPart?_eq_some_iff.mpr hdecimals)
  · rintro ⟨digits, rest, rfl, hrun, hnumber⟩
    have hnonempty : digits.isEmpty = false := by simpa using hrun.digits.nonempty
    cases hnumber with
    | decimal part =>
        simp [gNumber?, hrun.digitRun_eq, hnonempty, decimalPart?_eq_some_iff.mpr part]
    | whole noPart ends =>
        have hnone : decimalPart? rest = none :=
          Option.eq_none_iff_forall_ne_some.mpr fun decimals hdecimals =>
            noPart decimals (decimalPart?_eq_some_iff.mp hdecimals)
        simp [gNumber?, hrun.digitRun_eq, hnonempty, hnone, ends]

/-- A G code stands where the reader finds one. -/
theorem codeAt_iff
    {line before code : Text} :
    CodeAt line before code ↔ ReadsAt gCodeAt line before code := by
  constructor
  · rintro ⟨hbegin, digits, rest, number, hline, hrun, hnumber, rfl⟩
    have hread := gNumber?_eq_some_iff.mpr ⟨digits, rest, rfl, hrun, hnumber⟩
    exact ⟨_, hline, by simp [gCodeAt, hbegin, hread]⟩
  · rintro ⟨t, hline, hread⟩
    unfold gCodeAt at hread
    split at hread
    · split_ifs at hread with hbegin
      obtain ⟨number, hnumber, rfl⟩ := Option.map_eq_some_iff.mp hread
      obtain ⟨digits, rest, rfl, hrun, hcode⟩ := gNumber?_eq_some_iff.mp hnumber
      exact ⟨hbegin, digits, rest, number, hline, hrun, hcode, rfl⟩
    · cases hread

/-! ## G codes and tokens -/

/-- Whatever the decimal part of a code, the number of the token begins with the code's. -/
theorem CodeNumber.isPrefix
    {digits rest number : Text}
    (h : CodeNumber digits rest number) :
    number <+: digits ++ ((pointDigits? rest).map ('.' :: ·)).getD [] := by
  cases h with
  | decimal part =>
      obtain ⟨after, rfl, hrun, _⟩ := part
      simp [pointDigits?, hrun.digitRun_eq]
  | whole => exact List.prefix_append _ _

/-- Outside comments the word at the letter of a code begins with the code. -/
theorem CodeAt.exists_word
    {line before code : Text}
    (h : CodeAt line before code)
    (hline : '(' ∉ line) :
    ∃ number, ⟨.word 'G' number, before.length⟩ ∈ tokens line ∧ code <+: 'G' :: number := by
  obtain ⟨_, digits, rest, number, rfl, hrun, hnumber, rfl⟩ := h
  have hbefore : '(' ∉ before := fun hmem => hline (List.mem_append_left _ hmem)
  have hletter : Text.isLetter 'G' = true := rfl
  have htoken := mem_tokens_of_letter hletter hbefore (digits ++ rest)
  rw [Lexeme.ofHead_of_digits hletter hrun.digits hnumber.wordMayEnd] at htoken
  exact ⟨_, htoken, (List.prefix_cons_inj 'G').mpr hnumber.isPrefix⟩

/-- The G codes of a line, from left to right, are those that stand in it, one for each position
at which a code stands.  In a line without comments each of them begins the word token at its
position, which has the address G. -/
theorem gCodes_by_position
    (line : Text) :
    ∃ found : List (Nat × Text),
      gCodes line = found.map Prod.snd ∧
      found.Pairwise (fun a b => a.1 < b.1) ∧
      (∀ start code, (start, code) ∈ found ↔
        ∃ before, before.length = start ∧ CodeAt line before code) ∧
      ('(' ∉ line → ∀ start code, (start, code) ∈ found →
        ∃ token ∈ tokens line, token.start = start ∧ token.lexeme.address? = some 'G' ∧
          code <+: token.lexeme.text) := by
  have hfound : ∀ start code, (start, code) ∈ located gCodeAt 0 none line ↔
      ∃ before, before.length = start ∧ CodeAt line before code := by
    intro start code
    simp only [mem_located_iff, codeAt_iff, ReadsAt, Option.or_none, Nat.zero_add]
    constructor
    · rintro ⟨before, rest, hline, rfl, hread⟩
      exact ⟨before, rfl, rest, hline, hread⟩
    · rintro ⟨before, rfl, rest, hline, hread⟩
      exact ⟨before, rest, hline, rfl, hread⟩
  refine ⟨located gCodeAt 0 none line, (map_snd_located 0 none line).symm,
    located_increasing 0 none line, hfound, ?_⟩
  intro hline start code hmem
  obtain ⟨before, rfl, hcode⟩ := (hfound start code).mp hmem
  obtain ⟨number, htoken, hfront⟩ := hcode.exists_word hline
  exact ⟨_, htoken, rfl, rfl, hfront⟩

/-- A G inside a word, a decimal part that ends in no word, one that does, a point before nothing
and a repeated code. -/
theorem gCodes_by_position_of_line :
    gCodes "N1G2 G01.55X G01.5;G1. G01.5".toList =
        ["G01".toList, "G01.5".toList, "G1".toList, "G01.5".toList] ∧
      ∃ found : List (Nat × Text),
        gCodes "N1G2 G01.55X G01.5;G1. G01.5".toList = found.map Prod.snd ∧
        ∀ start code, (start, code) ∈ found →
          ∃ token ∈ tokens "N1G2 G01.55X G01.5;G1. G01.5".toList, token.start = start ∧
            token.lexeme.address? = some 'G' ∧ code <+: token.lexeme.text := by
  obtain ⟨found, hcodes, _, _, htokens⟩ :=
    gCodes_by_position "N1G2 G01.55X G01.5;G1. G01.5".toList
  exact ⟨by decide +kernel, found, hcodes, htokens (by decide)⟩

end Block
end DualTurret
