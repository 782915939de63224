import DualTurret.Proofs.Block.Segmentation
import DualTurret.Proofs.Block.WaitChoice

/-!
# Wait codes among the tokens of a block

A block is read in two ways: by a search for words at every position, and by cutting it
into tokens.  Outside comments the two meet at the address letters: no token holds a letter
but at its front, so the tokenizer stops at every letter, and a letter with digits after it
is a word there.  The search ends a word where no word character follows, and a point is
none.  So a wait code is the text of a token, except that a decimal part which follows its
digits belongs to the token and not to the code.

Main facts:
* `Block.mem_tokens_of_letter`: outside comments every letter begins a token;
* `Block.waitCode?_begins_token`: the token that a wait code begins.
-/

namespace DualTurret

namespace Lexeme

/-- A letter with digits after it is the word of the digits, with the decimal part after them. -/
theorem ofHead_of_digits
    {letter : Char}
    (hletter : Text.isLetter letter = true)
    {digits rest : Text}
    (hdigits : Block.Digits digits)
    (hrest : Block.wordMayEnd rest = true) :
    ofHead letter (digits ++ rest) =
      word letter (digits ++ ((Block.pointDigits? rest).map ('.' :: ·)).getD []) := by
  have hparen : letter ≠ '(' := by
    rintro rfl
    cases hletter
  have hend : letter ≠ ';' := by
    rintro rfl
    cases hletter
  simp [ofHead, hparen, hend, hletter, signedNumber?_append hdigits hrest]

end Lexeme

namespace Block

/-- The wait code of a line stands in it, with no word character before or after it. -/
theorem exists_split_of_waitCode?
    {mRange pRange : ValueRange}
    {line : Text}
    {wait : WaitCode}
    (h : waitCode? mRange pRange line = some wait) :
    Digits wait.digits ∧ ∃ first rest,
      line = first ++ wait.address.letter :: (wait.digits ++ rest) ∧ wordMayEnd rest = true := by
  have hfound : ∃ address range, FirstWait address range line wait := by
    rw [waitCode?_eq_or, Option.or_eq_some_iff] at h
    rcases h with hm | ⟨_, hp⟩
    · exact ⟨.m, mRange, firstWait_iff.mpr hm⟩
    · exact ⟨.p, pRange, firstWait_iff.mpr hp⟩
  obtain ⟨address, range, first, hat, _⟩ := hfound
  obtain ⟨rest, hline, hend⟩ := hat.word.ends
  refine ⟨hat.word.decimal, first, rest, ?_, hend⟩
  rwa [hat.address_eq]

/-- Outside comments every letter begins a token: no number holds a letter. -/
theorem mem_tokens_of_letter
    {letter : Char}
    (hletter : Text.isLetter letter = true)
    {first : Text}
    (hfirst : '(' ∉ first)
    (rest : Text) :
    ⟨Lexeme.ofHead letter rest, first.length⟩ ∈ tokens (first ++ letter :: rest) := by
  have hblank : Text.isBlank letter = false :=
    Text.isBlank_of_isWordChar (Text.isWordChar_of_isLetter hletter)
  obtain ⟨after, hsplit, hleads⟩ := Lexeme.exists_leads hblank rest
  have hclosed : CommentsClosed first := commentsClosed_nil.append hfirst
  have hstands : Token.Stands ⟨Lexeme.ofHead letter rest, first.length⟩
      (first ++ letter :: rest) := ⟨after, ⟨first, by rw [hsplit], rfl, hclosed⟩, hleads⟩
  rcases Token.mem_tokens_or_inside hstands with
    hmem | ⟨c, _, number, _, hunknown, hc, hword, _⟩
  · exact hmem
  · dsimp only at hunknown
    have hhead : c = letter := by
      rw [hunknown] at hsplit
      exact (List.cons.inj hsplit).1.symm
    obtain ⟨_, _, _, hnumber⟩ := mem_words_iff.mp hword
    have hno := hnumber.numeral.isLetter_of_mem hc
    rw [hhead, hletter] at hno
    cases hno

/-- In a line without comments, the wait code begins the token of an address word, and it ends
where no word character follows.  It is all of the token unless a point follows it; then the
point and the digits after it belong to the token too. -/
theorem waitCode?_begins_token
    (mRange pRange : ValueRange)
    (line : Text)
    (hline : '(' ∉ line)
    (wait : WaitCode)
    (hwait : waitCode? mRange pRange line = some wait) :
    ∃ first rest, line = first ++ wait.code ++ rest ∧ wordMayEnd rest = true ∧
      (rest.head? ≠ some '.' →
        ⟨.word wait.address.letter wait.digits, first.length⟩ ∈ tokens line) ∧
      ∀ after, rest = '.' :: after →
        ⟨.word wait.address.letter (wait.digits ++ '.' :: after.takeWhile Text.isDecimal),
          first.length⟩ ∈ tokens line := by
  obtain ⟨hdigits, first, rest, rfl, hrest⟩ := exists_split_of_waitCode? hwait
  have hletter : Text.isLetter wait.address.letter = true := by
    cases wait.address <;> rfl
  have hfirst : '(' ∉ first := fun hmem => hline (List.mem_append_left _ hmem)
  have htoken := mem_tokens_of_letter hletter hfirst (wait.digits ++ rest)
  rw [Lexeme.ofHead_of_digits hletter hdigits hrest] at htoken
  refine ⟨first, rest, by simp [WaitCode.code], hrest, ?_, ?_⟩
  · intro hpoint
    have hnone : pointDigits? rest = none := by
      cases rest with
      | nil => rfl
      | cons c rest => exact pointDigits?_of_ne (by simpa using hpoint) rest
    simpa [hnone] using htoken
  · rintro after rfl
    simpa [pointDigits?, digitRun] using htoken

/-- The code of an M word wins over the P word before it, which is only the front of a token. -/
theorem waitCode?_begins_token_of_line :
    waitCode? ⟨950, 997⟩ ⟨1, 99999999⟩ "N1P10.5 M0950;".toList = some ⟨.m, "0950".toList, 950⟩ ∧
      ∃ first rest, "N1P10.5 M0950;".toList = first ++ "M0950".toList ++ rest ∧
        wordMayEnd rest = true ∧
        (rest.head? ≠ some '.' →
          ⟨.word 'M' "0950".toList, first.length⟩ ∈ tokens "N1P10.5 M0950;".toList) := by
  have hwait : waitCode? ⟨950, 997⟩ ⟨1, 99999999⟩ "N1P10.5 M0950;".toList =
      some ⟨.m, "0950".toList, 950⟩ := by
    decide +kernel
  obtain ⟨first, rest, hsplit, hend, htoken, _⟩ :=
    waitCode?_begins_token _ _ "N1P10.5 M0950;".toList (by decide) _ hwait
  exact ⟨hwait, first, rest, hsplit, hend, htoken⟩

/-- A point ends the search for a word but not its number: the code `P10` is found where the
only token is `P10.5`. -/
theorem waitCode?_within_decimal :
    '(' ∉ "P10.5".toList ∧
      waitCode? ⟨950, 997⟩ ⟨1, 99999999⟩ "P10.5".toList = some ⟨.p, "10".toList, 10⟩ ∧
      tokens "P10.5".toList = [⟨.word 'P' "10.5".toList, 0⟩] ∧
      ∀ token ∈ tokens "P10.5".toList, token.lexeme.text ≠ "P10".toList := by
  decide +kernel

end Block

end DualTurret
