import DualTurret.Proofs.Block.Numerals

/-!
# Cutting a text into lexemes

A text is cut from left to right: a blank is passed over, and at any other character the lexeme
is taken that leads the text there.  Which lexeme leads a text is said without the tokenizer, by
the lexeme and what follows it.  At every character exactly one lexeme leads, so a text has one
cutting, and the tokenizer finds it.

Main facts:
* `Lexeme.exists_leads`, `Lexeme.Leads.exists_head`: the lexeme that leads a text;
* `Token.cut_scan`, `Token.Cut.eq_scan`: the tokens of a text are its only cutting.
-/

namespace DualTurret

namespace Lexeme

open Block (LongestNumber BeginsNumber)

/-- A comment and what follows it: it ends with the first closing parenthesis, or else with the
text. -/
inductive CommentThen : Text → Text → Prop
  | closed {inner : Text} (hinner : ')' ∉ inner) (rest : Text) :
      CommentThen ('(' :: (inner ++ [')'])) rest
  | unclosed {inner : Text} (hinner : ')' ∉ inner) : CommentThen ('(' :: inner) []

/-- The lexeme is the first one of a text in which `rest` follows it. -/
inductive Leads : Lexeme → Text → Prop
  | word {letter : Char} {number rest : Text}
      (hletter : Text.isLetter letter = true)
      (hnumber : LongestNumber number (number ++ rest)) :
      Leads (word letter number) rest
  | comment {t rest : Text}
      (hcomment : CommentThen t rest) :
      Leads (comment t) rest
  | endOfBlock (rest : Text) :
      Leads endOfBlock rest
  | unknown {c : Char} {rest : Text}
      (hblank : Text.isBlank c = false)
      (hparenthesis : c ≠ '(')
      (hend : c ≠ ';')
      (hword : Text.isLetter c = true → ¬ BeginsNumber rest) :
      Leads (unknown c) rest

theorem throughParenthesis_of_notMem
    {inner : Text}
    (h : ')' ∉ inner) :
    throughParenthesis inner = inner := by
  induction inner with
  | nil => rfl
  | cons c inner ih =>
      obtain ⟨hc, hinner⟩ := List.ne_and_not_mem_of_not_mem_cons h
      rw [throughParenthesis, if_neg (by simpa using hc.symm), ih hinner]

/-- A text is taken up to its first closing parenthesis. -/
theorem throughParenthesis_append
    {inner : Text}
    (h : ')' ∉ inner)
    (rest : Text) :
    throughParenthesis (inner ++ ')' :: rest) = inner ++ [')'] := by
  induction inner with
  | nil => rfl
  | cons c inner ih =>
      obtain ⟨hc, hinner⟩ := List.ne_and_not_mem_of_not_mem_cons h
      rw [List.cons_append, throughParenthesis, if_neg (by simpa using hc.symm), ih hinner,
        List.cons_append]

theorem CommentThen.exists_tail
    {t rest : Text}
    (h : CommentThen t rest) :
    ∃ tail, t = '(' :: tail ∧ throughParenthesis (tail ++ rest) = tail := by
  cases h with
  | @closed inner hinner rest =>
      refine ⟨inner ++ [')'], rfl, ?_⟩
      rw [List.append_assoc, List.singleton_append, throughParenthesis_append hinner]
  | @unclosed inner hinner =>
      exact ⟨inner, rfl, by rw [List.append_nil, throughParenthesis_of_notMem hinner]⟩

/-- After an opening parenthesis there is a comment, closed or up to the end. -/
theorem exists_commentThen
    (t : Text) :
    ∃ rest, t = throughParenthesis t ++ rest ∧ CommentThen ('(' :: throughParenthesis t) rest := by
  by_cases h : ')' ∈ t
  · obtain ⟨inner, rest, rfl, hinner⟩ := List.eq_append_cons_of_mem h
    rw [throughParenthesis_append hinner]
    exact ⟨rest, by simp, .closed hinner rest⟩
  · rw [throughParenthesis_of_notMem h]
    exact ⟨[], by simp, .unclosed h⟩

/-- A letter begins a word if a number follows, and stands alone otherwise. -/
theorem ofHead_letter
    {c : Char}
    (hc : Text.isLetter c = true)
    (t : Text) :
    ofHead c t = (signedNumber? t).elim (unknown c) (word c) := by
  have hparenthesis : c ≠ '(' := by
    rintro rfl
    cases hc
  have hend : c ≠ ';' := by
    rintro rfl
    cases hc
  cases hnumber : signedNumber? t with
  | none => simp [ofHead, hparenthesis, hend, hc, hnumber]
  | some number => simp [ofHead, hparenthesis, hend, hc, hnumber]

/-- At a character that is no blank the lexeme that begins there leads the text. -/
theorem exists_leads
    {c : Char}
    (hc : Text.isBlank c = false)
    (t : Text) :
    ∃ rest, c :: t = (ofHead c t).text ++ rest ∧ (ofHead c t).Leads rest := by
  by_cases hparenthesis : c = '('
  · subst hparenthesis
    obtain ⟨rest, hsplit, hcomment⟩ := exists_commentThen t
    exact ⟨rest, congrArg ('(' :: ·) hsplit, .comment hcomment⟩
  by_cases hend : c = ';'
  · subst hend
    exact ⟨t, rfl, .endOfBlock t⟩
  cases hletter : Text.isLetter c with
  | false =>
      have hhead : ofHead c t = unknown c := by simp [ofHead, hparenthesis, hend, hletter]
      rw [hhead]
      exact ⟨t, rfl, .unknown hc hparenthesis hend (by simp [hletter])⟩
  | true =>
      rw [ofHead_letter hletter]
      cases hnumber : signedNumber? t with
      | none =>
          refine ⟨t, rfl, .unknown hc hparenthesis hend ?_⟩
          intro _ hbegins
          obtain ⟨number, hsome⟩ := exists_signedNumber?_iff.mpr hbegins
          cases hnumber.symm.trans hsome
      | some number =>
          have hlongest := signedNumber?_eq_some_iff.mp hnumber
          obtain ⟨rest, rfl⟩ := hlongest.front
          exact ⟨rest, rfl, .word hletter hlongest⟩

/-- A lexeme that leads a text is the one that begins with its first character. -/
theorem Leads.exists_head
    {lexeme : Lexeme}
    {rest : Text}
    (h : lexeme.Leads rest) :
    ∃ c tail, lexeme.text = c :: tail ∧ Text.isBlank c = false ∧
      ofHead c (tail ++ rest) = lexeme := by
  cases h with
  | @word letter number _ hletter hnumber =>
      have hblank : Text.isBlank letter = false :=
        Text.isBlank_of_isWordChar (Text.isWordChar_of_isLetter hletter)
      refine ⟨letter, number, rfl, hblank, ?_⟩
      rw [ofHead_letter hletter, signedNumber?_eq_some_iff.mpr hnumber, Option.elim_some]
  | comment hcomment =>
      obtain ⟨tail, rfl, hthrough⟩ := hcomment.exists_tail
      exact ⟨'(', tail, rfl, by decide, by rw [ofHead, if_pos (by rfl), hthrough]⟩
  | endOfBlock => exact ⟨';', [], rfl, by decide, rfl⟩
  | @unknown c _ hblank hparenthesis hend hword =>
      refine ⟨c, [], rfl, hblank, ?_⟩
      rw [List.nil_append]
      cases hletter : Text.isLetter c with
      | false => simp [ofHead, hparenthesis, hend, hletter]
      | true =>
          rw [ofHead_letter hletter]
          cases hnumber : signedNumber? rest with
          | none => rfl
          | some number =>
              exact absurd (exists_signedNumber?_iff.mp ⟨number, hnumber⟩) (hword hletter)

/-- One lexeme at most leads a text. -/
theorem Leads.unique
    {lexeme lexeme' : Lexeme}
    {rest rest' : Text}
    (h : lexeme.Leads rest)
    (h' : lexeme'.Leads rest')
    (htext : lexeme.text ++ rest = lexeme'.text ++ rest') :
    lexeme = lexeme' := by
  obtain ⟨c, tail, hhead, _, hlexeme⟩ := h.exists_head
  obtain ⟨c', tail', hhead', _, hlexeme'⟩ := h'.exists_head
  rw [hhead, hhead', List.cons_append, List.cons_append] at htext
  obtain ⟨rfl, htail⟩ := List.cons.inj htext
  rw [← hlexeme, htail, hlexeme']

end Lexeme

namespace Token

/-- How a text falls into blanks and lexemes, from a position on. -/
inductive Cut : Nat → Text → List Token → Prop
  | done (start : Nat) : Cut start [] []
  | blank {start : Nat} {c : Char} {t : Text} {tokens : List Token}
      (hc : Text.isBlank c = true)
      (rest : Cut (start + 1) t tokens) :
      Cut start (c :: t) tokens
  | lexeme {start : Nat} {lexeme : Lexeme} {t : Text} {tokens : List Token}
      (hleads : lexeme.Leads t)
      (rest : Cut (start + lexeme.text.length) t tokens) :
      Cut start (lexeme.text ++ t) (⟨lexeme, start⟩ :: tokens)

/-- Characters that belong to the token before are passed over. -/
theorem scan_skip
    (skip start : Nat)
    (t : Text) :
    scan skip start t = scan 0 (start + skip) (t.drop skip) := by
  induction t generalizing skip start with
  | nil => simp [scan]
  | cons c t ih =>
      cases skip with
      | zero => rfl
      | succ skip =>
          rw [scan, ih, List.drop_succ_cons, Nat.add_assoc, Nat.add_comm 1 skip]

/-- A blank is passed over. -/
theorem scan_blank
    {c : Char}
    (hc : Text.isBlank c = true)
    (start : Nat)
    (t : Text) :
    scan 0 start (c :: t) = scan 0 (start + 1) t := by
  rw [scan, if_pos hc]

/-- A lexeme that leads the text is the next token. -/
theorem scan_lexeme
    {lexeme : Lexeme}
    {t : Text}
    (h : lexeme.Leads t)
    (start : Nat) :
    scan 0 start (lexeme.text ++ t) =
      ⟨lexeme, start⟩ :: scan 0 (start + lexeme.text.length) t := by
  obtain ⟨c, tail, hhead, hc, hlexeme⟩ := h.exists_head
  rw [hhead, List.cons_append, scan, if_neg (by simp [hc]), hlexeme, scan_skip, hhead,
    List.length_cons, Nat.add_sub_cancel, List.drop_left, Nat.add_assoc, Nat.add_comm 1]

/-- A text is cut in one way only. -/
theorem Cut.eq_scan
    {start : Nat}
    {t : Text}
    {tokens : List Token}
    (h : Cut start t tokens) :
    tokens = scan 0 start t := by
  induction h with
  | done start => rfl
  | blank hc _ ih => rw [ih, scan_blank hc]
  | lexeme hleads _ ih => rw [ih, scan_lexeme hleads]

/-- Every text is cut by the tokenizer.  What is left after a blank or a lexeme is shorter. -/
theorem cut_scan (start : Nat) (t : Text) : Cut start t (scan 0 start t) := by
  induction hlength : t.length using Nat.strong_induction_on generalizing start t with
  | _ n ih =>
      subst hlength
      cases t with
      | nil => exact .done start
      | cons c t =>
          cases hc : Text.isBlank c with
          | true =>
              rw [scan_blank hc]
              exact .blank hc (ih t.length (by simp) (start + 1) t rfl)
          | false =>
              obtain ⟨rest, hsplit, hleads⟩ := Lexeme.exists_leads hc t
              obtain ⟨d, tail, hhead, _⟩ := hleads.exists_head
              have hshorter : rest.length < (c :: t).length := by
                rw [hsplit, hhead, List.length_append, List.length_cons]
                omega
              rw [hsplit, scan_lexeme hleads]
              exact .lexeme hleads (ih rest.length hshorter _ rest rfl)

end Token
end DualTurret
