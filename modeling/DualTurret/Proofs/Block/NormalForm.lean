import DualTurret.Proofs.Block.Segmentation

/-!
# The normal form of a block

The normal form of a line is the texts of its tokens with one space between each two.  Which
lexeme leads a text is seen from the lexeme up to the next break, so a lexeme of a line is still
one when a blank or nothing follows it.  Only a comment that is not closed goes on to the end of
the text, and then it is the last token.  So a line and its normal form have the same lexemes.

Main facts:
* `Lexeme.Leads.apart_or_last`: a lexeme may be set apart, or it is the last one;
* `Token.Cut.exists_spaced`: the lexemes of a line, set apart by spaces, are cut as before;
* `Block.tokens_normalForm`: the normal form has the lexemes of the line.
-/

namespace DualTurret

namespace Block

/-- No number begins at a break. -/
theorem not_beginsNumber_of_atBreak {t : Text} (ht : Text.AtBreak t) : ¬ BeginsNumber t := by
  rintro ⟨sign, point, digit, rest, hsign, hpoint, hdigit, rfl⟩
  have hdigit' : Text.isBlank digit = false :=
    Text.isBlank_of_isWordChar (Text.isWordChar_of_isDecimal hdigit)
  rcases hsign with rfl | rfl | rfl
  · rcases hpoint with rfl | rfl
    · have hblank : Text.isBlank digit = true := ht
      rw [hdigit'] at hblank
      cases hblank
    · cases ht
  · cases ht
  · cases ht

end Block

namespace Lexeme

/-- A lexeme leads its text before any break, or the text ends with it. -/
theorem Leads.apart_or_last
    {lexeme : Lexeme}
    {rest : Text}
    (h : lexeme.Leads rest) :
    (∀ t, Text.AtBreak t → lexeme.Leads t) ∨ rest = [] := by
  cases h with
  | word hletter hnumber =>
      exact Or.inl fun _ ht => .word hletter (.of_atBreak hnumber.numeral ht)
  | comment hcomment =>
      cases hcomment with
      | closed hinner => exact Or.inl fun t _ => .comment (.closed hinner t)
      | unclosed => exact Or.inr rfl
  | endOfBlock => exact Or.inl fun t _ => .endOfBlock t
  | unknown hblank hparenthesis hend =>
      refine Or.inl fun _ ht => .unknown hblank hparenthesis hend ?_
      intro _
      exact Block.not_beginsNumber_of_atBreak ht

/-- A lexeme of a text is one on its own. -/
theorem Leads.alone {lexeme : Lexeme} {rest : Text} (h : lexeme.Leads rest) : lexeme.Leads [] := by
  rcases h.apart_or_last with hapart | rfl
  · exact hapart [] trivial
  · exact h

end Lexeme

namespace Token

/-- The texts of the tokens with one space between each two. -/
def spaced (tokens : List Token) : Text :=
  [' '].intercalate (tokens.map fun token => token.lexeme.text)

theorem Cut.alone
    {lexeme : Lexeme}
    {rest : Text}
    (h : lexeme.Leads rest)
    (start : Nat) :
    Cut start lexeme.text [⟨lexeme, start⟩] := by
  have hcut : Cut start (lexeme.text ++ []) [⟨lexeme, start⟩] := .lexeme h.alone (.done _)
  rwa [List.append_nil] at hcut

/-- The lexemes of a text, set apart by spaces, are cut as before. -/
theorem Cut.exists_spaced
    {start : Nat}
    {t : Text}
    {tokens : List Token}
    (h : Cut start t tokens)
    (start' : Nat) :
    ∃ tokens', Cut start' (spaced tokens) tokens' ∧
      tokens'.map (·.lexeme) = tokens.map (·.lexeme) := by
  induction h generalizing start' with
  | done => exact ⟨[], .done start', rfl⟩
  | blank _ _ ih => exact ih start'
  | @lexeme start lexeme t tokens hleads rest ih =>
      cases tokens with
      | nil =>
          have hsingle : spaced [⟨lexeme, start⟩] = lexeme.text := List.intercalate_singleton
          rw [hsingle]
          exact ⟨_, Cut.alone hleads start', rfl⟩
      | cons next tokens =>
          rcases hleads.apart_or_last with hapart | rfl
          · obtain ⟨tokens', hcut, hlexemes⟩ := ih (start' + lexeme.text.length + 1)
            have hspace : Text.isBlank ' ' = true := by decide
            have hsplit : spaced (⟨lexeme, start⟩ :: next :: tokens) =
                lexeme.text ++ ' ' :: spaced (next :: tokens) := by
              simp only [spaced, List.map_cons, List.intercalate_cons_cons, List.append_assoc,
                List.singleton_append]
            refine ⟨⟨lexeme, start'⟩ :: tokens', ?_, congrArg (lexeme :: ·) hlexemes⟩
            rw [hsplit]
            exact .lexeme (hapart _ hspace) (.blank hspace hcut)
          · cases rest.eq_scan

end Token

namespace Block

/-- The tokens of a line with one space between each two. -/
def normalForm (line : Text) : Text :=
  Token.spaced (tokens line)

/-- The normal form has the lexemes of the line. -/
theorem map_lexeme_tokens_normalForm
    (line : Text) :
    (tokens (normalForm line)).map (·.lexeme) = (tokens line).map (·.lexeme) := by
  obtain ⟨tokens', hcut, hlexemes⟩ := (Token.cut_scan 0 line).exists_spaced 0
  rw [hcut.eq_scan] at hlexemes
  exact hlexemes

/-- The normal form is fixed by the lexemes of the line. -/
theorem normalForm_eq
    (line : Text) :
    normalForm line = [' '].intercalate (((tokens line).map (·.lexeme)).map Lexeme.text) := by
  rw [normalForm, Token.spaced, List.map_map]
  rfl

/-- The text of a token is that token alone. -/
theorem tokens_text_of_mem
    {line : Text}
    {token : Token}
    (h : token ∈ tokens line) :
    tokens token.lexeme.text = [⟨token.lexeme, 0⟩] := by
  obtain ⟨rest, _, hleads⟩ := Token.stands_of_mem_tokens h
  exact (Token.Cut.alone hleads 0).eq_scan.symm

/-- The normal form of a line has its lexemes in their order and is its own normal form, and every
token of the line is the only token of its text. -/
theorem tokens_normalForm
    (line : Text) :
    (tokens (normalForm line)).map (·.lexeme) = (tokens line).map (·.lexeme) ∧
      normalForm (normalForm line) = normalForm line ∧
      ∀ token ∈ tokens line, tokens token.lexeme.text = [⟨token.lexeme, 0⟩] := by
  have hlexemes := map_lexeme_tokens_normalForm line
  refine ⟨hlexemes, ?_, fun _ => tokens_text_of_mem⟩
  rw [normalForm_eq (normalForm line), hlexemes, ← normalForm_eq]

/-- A lone letter, a sign and a point stay apart from their neighbours, and a comment that is not
closed stays the last token. -/
theorem tokens_normalForm_unclosed :
    normalForm "XG1.+ .;(A  B".toList = "X G1. + . ; (A  B".toList ∧
      normalForm "X G1. + . ; (A  B".toList = "X G1. + . ; (A  B".toList ∧
      ⟨.comment "(A  B".toList, 8⟩ ∈ tokens "XG1.+ .;(A  B".toList ∧
      tokens "(A  B".toList = [⟨.comment "(A  B".toList, 0⟩] := by
  have hnormal : normalForm "XG1.+ .;(A  B".toList = "X G1. + . ; (A  B".toList := by
    decide +kernel
  have hcomment : ⟨.comment "(A  B".toList, 8⟩ ∈ tokens "XG1.+ .;(A  B".toList := by
    decide +kernel
  obtain ⟨_, hagain, halone⟩ := tokens_normalForm "XG1.+ .;(A  B".toList
  rw [hnormal] at hagain
  exact ⟨hnormal, hagain, hcomment, halone _ hcomment⟩

end Block
end DualTurret
