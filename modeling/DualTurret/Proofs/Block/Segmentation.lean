import DualTurret.Proofs.Block.Cutting
import Mathlib.Data.List.Pairwise

/-!
# The tokens of a block

The tokens of a line follow each other without meeting, each is the piece of the line at its span,
and what stands between them is blank.  Which tokens there are is fixed by the line: comments begin
at the opening parentheses outside comments, and outside comments every `;` ends a block, every
letter with a number after it begins a word, and every other character that is neither blank nor
part of a word is a token of its own.

A position lies outside comments if every comment that begins before it ends before it.

Main facts:
* `Token.mem_tokens_or_inside`: what leads the text outside comments is a token, unless it is part
  of a number;
* `Block.segmentation_iff`: the tokens of a line are its only segmentation.
-/

namespace DualTurret

def Token.Covers (token : Token) (i : Nat) : Prop :=
  token.start ≤ i ∧ i < token.finish

namespace Block

/-- Every comment that begins in the text ends in it. -/
def CommentsClosed (t : Text) : Prop :=
  ∀ first rest, t = first ++ '(' :: rest → ')' ∈ rest

/-- The position is outside comments, and from there on the line holds `rest`. -/
def Outside (line : Text) (start : Nat) (rest : Text) : Prop :=
  ∃ before, line = before ++ rest ∧ before.length = start ∧ CommentsClosed before

/-- The tokens cut the line into its comments, ends of block, words and other characters. -/
structure Segmentation (line : Text) (tokens : List Token) : Prop where
  apart : tokens.Pairwise fun token next => token.finish ≤ next.start
  spans : ∀ token ∈ tokens, token.start < token.finish ∧ token.finish ≤ line.length ∧
    token.lexeme.text = line.extract token.start token.finish
  between : ∀ before c rest, line = before ++ c :: rest →
    (∀ token ∈ tokens, ¬ token.Covers before.length) → Text.isBlank c = true
  plain : ∀ token ∈ tokens, (∀ t, token.lexeme ≠ .comment t) → Text.Plain token.lexeme.text
  -- inside comments are the characters at and after a parenthesis that is not closed before them
  commented : ∀ before c rest, line = before ++ c :: rest →
    ((∃ t start, ⟨.comment t, start⟩ ∈ tokens ∧ Token.Covers ⟨.comment t, start⟩ before.length) ↔
      c = '(' ∨ ¬ CommentsClosed before)
  comments : ∀ t start, ⟨.comment t, start⟩ ∈ tokens ↔
    ∃ rest, Outside line start (t ++ rest) ∧ Lexeme.CommentThen t rest
  ends : ∀ start, ⟨.endOfBlock, start⟩ ∈ tokens ↔ ∃ rest, Outside line start (';' :: rest)
  words : ∀ letter number start, ⟨.word letter number, start⟩ ∈ tokens ↔
    ∃ rest, Outside line start (letter :: rest) ∧ Text.isLetter letter = true ∧
      LongestNumber number rest
  wordStarts : ∀ letter start, (∃ number, ⟨.word letter number, start⟩ ∈ tokens) ↔
    ∃ rest, Outside line start (letter :: rest) ∧ Text.isLetter letter = true ∧ BeginsNumber rest
  unknowns : ∀ c start, ⟨.unknown c, start⟩ ∈ tokens ↔
    (∃ rest, Outside line start (c :: rest)) ∧ Text.isBlank c = false ∧ c ≠ '(' ∧ c ≠ ';' ∧
      ∀ letter number first, ⟨.word letter number, first⟩ ∈ tokens →
        ¬ Token.Covers ⟨.word letter number, first⟩ start

/-! ## Comments that are closed -/

theorem commentsClosed_nil : CommentsClosed [] := by
  intro first rest hsplit
  simp at hsplit

theorem CommentsClosed.append
    {t u : Text}
    (h : CommentsClosed t)
    (hu : '(' ∉ u) :
    CommentsClosed (t ++ u) := by
  intro first rest hsplit
  rcases List.append_eq_append_iff.mp hsplit with ⟨more, rfl, rfl⟩ | ⟨more, rfl, hrest⟩
  · exact absurd (by simp) hu
  · cases more with
    | nil =>
        rw [List.nil_append] at hrest
        subst hrest
        exact absurd (by simp) hu
    | cons c more =>
        obtain ⟨rfl, rfl⟩ := List.cons.inj hrest
        exact List.mem_append_left u (h first more rfl)

/-- A closing parenthesis closes every comment before it. -/
theorem commentsClosed_concat (t : Text) : CommentsClosed (t ++ [')']) := by
  intro first rest hsplit
  have hlast := congrArg List.getLast? hsplit
  rw [List.getLast?_concat, List.getLast?_append, List.getLast?_cons] at hlast
  cases hrest : rest.getLast? with
  | none => simp [hrest] at hlast
  | some d =>
      have hd : ')' = d := by simpa [hrest] using hlast
      exact List.mem_of_getLast? (hd ▸ hrest)

/-- A comment is open until a parenthesis closes it. -/
theorem not_commentsClosed
    {first rest : Text}
    (h : ')' ∉ rest) :
    ¬ CommentsClosed (first ++ '(' :: rest) :=
  fun hclosed => h (hclosed first rest rfl)

end Block

namespace Lexeme

open Block (CommentsClosed)

theorem CommentThen.notMem_front
    {p q rest : Text}
    {c : Char}
    (h : CommentThen ('(' :: (p ++ c :: q)) rest) :
    ')' ∉ p := by
  generalize htext : '(' :: (p ++ c :: q) = t at h
  have hfront : p <+: p ++ c :: q := List.prefix_append p _
  cases h with
  | @closed inner hinner =>
      have htail : p ++ c :: q = inner ++ [')'] := (List.cons.inj htext).2
      have hlength := congrArg List.length htail
      rw [htail] at hfront
      simp only [List.length_append, List.length_cons, List.length_nil] at hlength
      have hp : p <+: inner :=
        List.prefix_of_prefix_length_le hfront (List.prefix_append inner _) (by omega)
      exact fun hmem => hinner (hp.subset hmem)
  | @unclosed inner hinner =>
      have htail : p ++ c :: q = inner := (List.cons.inj htext).2
      exact fun hmem => hinner (htail ▸ hfront.subset hmem)

theorem CommentThen.mem_or_nil
    {p q rest : Text}
    (h : CommentThen (p ++ '(' :: q) rest) :
    ')' ∈ q ∨ rest = [] := by
  generalize htext : p ++ '(' :: q = t at h
  cases h with
  | @closed inner =>
      exact Or.inl (Block.commentsClosed_concat ('(' :: inner) p q htext.symm)
  | unclosed => exact Or.inr rfl

/-- A lexeme that is no comment holds neither blanks nor opening parentheses. -/
theorem Leads.of_mem
    {lexeme : Lexeme}
    {rest : Text}
    (h : lexeme.Leads rest)
    (hcomment : ∀ t, lexeme ≠ .comment t)
    {c : Char}
    (hc : c ∈ lexeme.text) :
    Text.isBlank c = false ∧ c ≠ '(' := by
  cases h with
  | @word letter number _ hletter hnumber =>
      rcases List.mem_cons.mp hc with rfl | hc
      · refine ⟨Text.isBlank_of_isWordChar (Text.isWordChar_of_isLetter hletter), ?_⟩
        rintro rfl
        cases hletter
      · refine ⟨hnumber.numeral.plain c hc, ?_⟩
        rintro rfl
        exact hnumber.numeral.notMem (by decide) (by decide) hc
  | comment => exact absurd rfl (hcomment _)
  | endOfBlock =>
      rw [List.mem_singleton.mp hc]
      decide
  | unknown hblank hparenthesis =>
      rw [List.mem_singleton.mp hc]
      exact ⟨hblank, hparenthesis⟩

/-- After a lexeme all comments are closed, or the text ends with it. -/
theorem Leads.closed_or_nil
    {lexeme : Lexeme}
    {rest : Text}
    (h : lexeme.Leads rest)
    {before : Text}
    (hbefore : CommentsClosed before) :
    CommentsClosed (before ++ lexeme.text) ∨ rest = [] := by
  by_cases hcomment : ∀ t, lexeme ≠ .comment t
  · exact Or.inl (hbefore.append fun hmem => (h.of_mem hcomment hmem).2 rfl)
  · cases h with
    | comment hthen =>
        cases hthen with
        | @closed inner =>
            left
            rw [text, ← List.cons_append, ← List.append_assoc]
            exact Block.commentsClosed_concat _
        | unclosed => exact Or.inr rfl
    | word => simp at hcomment
    | endOfBlock => simp at hcomment
    | unknown => simp at hcomment

end Lexeme

namespace Token

open Block (CommentsClosed Outside tokens)

variable {line : Text} {token : Token}

/-- The token stands in the line, outside comments. -/
def Stands (token : Token) (line : Text) : Prop :=
  ∃ rest, Outside line token.start (token.lexeme.text ++ rest) ∧ token.lexeme.Leads rest

theorem Stands.covers_start (h : token.Stands line) : token.Covers token.start := by
  obtain ⟨_, _, hleads⟩ := h
  obtain ⟨c, tail, hhead, _⟩ := hleads.exists_head
  refine ⟨Nat.le_refl _, ?_⟩
  rw [finish, hhead, List.length_cons]
  omega

/-! ## What holds along a cutting -/

/-- The tokens of a cut stand outside the comments before it. -/
theorem Cut.stands
    {start : Nat}
    {t : Text}
    {tokens : List Token}
    (h : Cut start t tokens)
    {before : Text}
    (hlength : before.length = start)
    (hbefore : CommentsClosed before) :
    ∀ token ∈ tokens, token.Stands (before ++ t) := by
  induction h generalizing before with
  | done => simp
  | @blank start c t tokens hc _ ih =>
      have hparenthesis : '(' ∉ [c] := by
        rw [List.mem_singleton]
        exact (Text.ne_of_isBlank hc (by decide)).symm
      have hstands := @ih (before ++ [c]) (by simp [hlength]) (hbefore.append hparenthesis)
      rwa [List.append_assoc, List.singleton_append] at hstands
  | @lexeme start lexeme t tokens hleads rest ih =>
      intro token htoken
      rcases List.mem_cons.mp htoken with rfl | htoken
      · exact ⟨t, ⟨before, rfl, hlength, hbefore⟩, hleads⟩
      · rcases hleads.closed_or_nil hbefore with hclosed | rfl
        · have hstands := ih (by simp [hlength]) hclosed token htoken
          rwa [List.append_assoc] at hstands
        · rw [rest.eq_scan] at htoken
          cases htoken

theorem Cut.start_le
    {start : Nat}
    {t : Text}
    {tokens : List Token}
    (h : Cut start t tokens) :
    ∀ token ∈ tokens, start ≤ token.start := by
  induction h with
  | done => simp
  | blank _ _ ih =>
      intro token htoken
      have hle := ih token htoken
      omega
  | lexeme _ _ ih =>
      intro token htoken
      rcases List.mem_cons.mp htoken with rfl | htoken
      · exact Nat.le_refl _
      · have hle := ih token htoken
        omega

/-- No two tokens of a cut overlap. -/
theorem Cut.apart
    {start : Nat}
    {t : Text}
    {tokens : List Token}
    (h : Cut start t tokens) :
    tokens.Pairwise fun token next => token.finish ≤ next.start := by
  induction h with
  | done => exact .nil
  | blank _ _ ih => exact ih
  | lexeme _ rest ih => exact .cons rest.start_le ih

/-- Every character that is no blank belongs to a token. -/
theorem Cut.exists_covers
    {start : Nat}
    {t : Text}
    {tokens : List Token}
    (h : Cut start t tokens)
    {first rest : Text}
    {c : Char}
    (hsplit : t = first ++ c :: rest)
    (hc : Text.isBlank c = false) :
    ∃ token ∈ tokens, token.Covers (start + first.length) := by
  induction h generalizing first with
  | done => simp at hsplit
  | @blank start d t tokens hd _ ih =>
      cases first with
      | nil =>
          obtain ⟨rfl, _⟩ := List.cons.inj hsplit
          rw [hc] at hd
          cases hd
      | cons e first =>
          obtain ⟨token, htoken, hcovers⟩ := ih (List.cons.inj hsplit).2
          refine ⟨token, htoken, ?_⟩
          rwa [List.length_cons, Nat.add_comm first.length, ← Nat.add_assoc]
  | @lexeme start lexeme t tokens _ _ ih =>
      by_cases hinside : first.length < lexeme.text.length
      · refine ⟨⟨lexeme, start⟩, List.mem_cons_self, Nat.le_add_right _ _, ?_⟩
        exact Nat.add_lt_add_left hinside start
      · obtain ⟨more, rfl⟩ : lexeme.text <+: first :=
          List.prefix_of_prefix_length_le ⟨t, hsplit⟩ (List.prefix_append first _) (by omega)
        rw [List.append_assoc] at hsplit
        obtain ⟨token, htoken, hcovers⟩ := ih (List.append_cancel_left hsplit)
        refine ⟨token, List.mem_cons_of_mem _ htoken, ?_⟩
        rwa [List.length_append, ← Nat.add_assoc]

/-! ## What holds of the tokens of a line -/

/-- Every token of a line stands in it. -/
theorem stands_of_mem_tokens (h : token ∈ tokens line) : token.Stands line := by
  have hempty : ([] : Text).length = 0 := rfl
  exact (cut_scan 0 line).stands hempty Block.commentsClosed_nil token h

/-- Every character that is not blank belongs to a token. -/
theorem exists_covers
    {before rest : Text}
    {c : Char}
    (hline : line = before ++ c :: rest)
    (hc : Text.isBlank c = false) :
    ∃ token ∈ tokens line, token.Covers before.length := by
  have hcovers := (cut_scan 0 line).exists_covers hline hc
  rwa [Nat.zero_add] at hcovers

/-- Two tokens of a line that share a position are the same. -/
theorem eq_of_covers
    {token' : Token}
    {i : Nat}
    (htoken : token ∈ tokens line)
    (htoken' : token' ∈ tokens line)
    (hi : token.Covers i)
    (hi' : token'.Covers i) :
    token = token' := by
  have hapart : (tokens line).Pairwise fun token next =>
      token.finish ≤ next.start ∨ next.finish ≤ token.start :=
    (cut_scan 0 line).apart.imp Or.inl
  by_contra hne
  have hdisjoint := @List.Pairwise.forall _ _ _ ⟨fun _ _ => Or.symm⟩ hapart _ htoken _ htoken' hne
  obtain ⟨hstart, hfinish⟩ := hi
  obtain ⟨hstart', hfinish'⟩ := hi'
  omega

/-- A line that is split at a character of a token splits the token there. -/
theorem Stands.exists_split
    (h : token.Stands line)
    {before rest : Text}
    {c : Char}
    (hline : line = before ++ c :: rest)
    (hcovers : token.Covers before.length) :
    ∃ first pre post after, before = first ++ pre ∧ rest = post ++ after ∧
      first.length = token.start ∧ CommentsClosed first ∧
      token.lexeme.text = pre ++ c :: post ∧ token.lexeme.Leads after := by
  obtain ⟨after, ⟨first, hstand, hlength, hfirst⟩, hleads⟩ := h
  obtain ⟨hstart, hfinish⟩ := hcovers
  rw [hline] at hstand
  obtain ⟨pre, rfl⟩ : first <+: before :=
    List.prefix_of_prefix_length_le ⟨_, hstand.symm⟩ (List.prefix_append before _) (by omega)
  rw [List.append_assoc] at hstand
  have htext := List.append_cancel_left hstand
  have hshort : pre.length < token.lexeme.text.length := by
    rw [finish, List.length_append] at hfinish
    omega
  obtain ⟨more, hmore⟩ : pre <+: token.lexeme.text :=
    List.prefix_of_prefix_length_le ⟨_, htext⟩ (List.prefix_append _ after) (by omega)
  rw [← hmore, List.append_assoc] at htext
  have hrest := List.append_cancel_left htext
  cases more with
  | nil =>
      rw [← hmore, List.append_nil] at hshort
      omega
  | cons d post =>
      obtain ⟨rfl, rfl⟩ := List.cons.inj hrest
      exact ⟨first, pre, post, after, rfl, rfl, hlength, hfirst, hmore.symm, hleads⟩

/-- Past its first character, outside comments, only a word goes on. -/
theorem Stands.exists_word
    (h : token.Stands line)
    {before rest : Text}
    {c : Char}
    (hline : line = before ++ c :: rest)
    (hbefore : CommentsClosed before)
    (hcovers : token.Covers before.length)
    (hinside : token.start ≠ before.length) :
    ∃ letter number, token.lexeme = .word letter number ∧ c ∈ number ∧
      Block.SignedNumeral number := by
  obtain ⟨first, pre, post, after, rfl, rfl, hlength, _, htext, hleads⟩ :=
    h.exists_split hline hcovers
  cases pre with
  | nil =>
      rw [List.append_nil] at hinside
      exact absurd hlength.symm hinside
  | cons d pre =>
      generalize token.lexeme = lexeme at htext hleads
      cases hleads with
      | @word letter number _ _ hnumber =>
          obtain ⟨rfl, rfl⟩ := List.cons.inj htext
          exact ⟨_, _, rfl, by simp, hnumber.numeral⟩
      | comment hcomment =>
          obtain ⟨tail, rfl, _⟩ := hcomment.exists_tail
          obtain ⟨rfl, rfl⟩ := List.cons.inj htext
          exact absurd hbefore (Block.not_commentsClosed hcomment.notMem_front)
      | endOfBlock => simp [Lexeme.text] at htext
      | unknown => simp [Lexeme.text] at htext

/-- What leads the text outside comments is a token, unless it is a character of a number. -/
theorem mem_tokens_or_inside
    (h : token.Stands line) :
    token ∈ tokens line ∨ ∃ c letter number start, token.lexeme = .unknown c ∧ c ∈ number ∧
      ⟨.word letter number, start⟩ ∈ tokens line ∧
      Covers ⟨.word letter number, start⟩ token.start := by
  obtain ⟨rest, ⟨before, hline, hlength, hbefore⟩, hleads⟩ := h
  obtain ⟨c, tail, hhead, hc, _⟩ := hleads.exists_head
  have hsplit : line = before ++ c :: (tail ++ rest) := by
    rw [hline, hhead, List.cons_append]
  obtain ⟨other, hother, hcovers⟩ := exists_covers hsplit hc
  have hstands := stands_of_mem_tokens hother
  by_cases hstart : other.start = before.length
  · left
    obtain ⟨rest', ⟨before', hline', hlength', _⟩, hleads'⟩ := hstands
    obtain ⟨_, htext⟩ := List.append_inj (hline.symm.trans hline') (by omega)
    have hlexeme := hleads.unique hleads' htext
    have htoken : token = other := by
      cases token
      cases other
      simp_all
    rwa [htoken]
  · right
    obtain ⟨letter, number, hword, hmem, hnumber⟩ :=
      hstands.exists_word hsplit hbefore hcovers hstart
    obtain ⟨lexeme', start'⟩ := other
    obtain ⟨lexeme, start⟩ := token
    subst hword
    cases hleads with
    | word hletter =>
        obtain ⟨rfl, _⟩ := List.cons.inj hhead
        rw [hnumber.isLetter_of_mem hmem] at hletter
        cases hletter
    | comment hcomment =>
        obtain ⟨_, rfl, _⟩ := hcomment.exists_tail
        obtain ⟨rfl, _⟩ := List.cons.inj hhead
        exact absurd hmem (hnumber.notMem (by decide) (by decide))
    | endOfBlock =>
        obtain ⟨rfl, _⟩ := List.cons.inj hhead
        exact absurd hmem (hnumber.notMem (by decide) (by decide))
    | unknown =>
        obtain ⟨rfl, _⟩ := List.cons.inj hhead
        exact ⟨_, letter, number, start', rfl, hmem, hother, hlength ▸ hcovers⟩

/-- What stands in the line is one of its tokens. -/
theorem mem_tokens_of_stands
    (h : token.Stands line)
    (hknown : ∀ c, token.lexeme ≠ .unknown c) :
    token ∈ tokens line := by
  rcases mem_tokens_or_inside h with hmem | ⟨c, _, _, _, hunknown, _⟩
  · exact hmem
  · exact absurd hunknown (hknown c)

end Token

namespace Block

variable {line : Text}

/-- The comments of a line are those that begin outside of others. -/
theorem mem_comments_iff
    {t : Text}
    {start : Nat} :
    ⟨.comment t, start⟩ ∈ tokens line ↔
      ∃ rest, Outside line start (t ++ rest) ∧ Lexeme.CommentThen t rest := by
  constructor
  · intro hmem
    obtain ⟨rest, hstand, hleads⟩ := Token.stands_of_mem_tokens hmem
    cases hleads with
    | comment hcomment => exact ⟨rest, hstand, hcomment⟩
  · rintro ⟨rest, hstand, hcomment⟩
    exact Token.mem_tokens_of_stands ⟨rest, hstand, .comment hcomment⟩ (by simp)

/-- Every semicolon outside comments ends a block. -/
theorem mem_ends_iff
    {start : Nat} :
    ⟨.endOfBlock, start⟩ ∈ tokens line ↔ ∃ rest, Outside line start (';' :: rest) := by
  constructor
  · intro hmem
    obtain ⟨rest, hstand, _⟩ := Token.stands_of_mem_tokens hmem
    exact ⟨rest, hstand⟩
  · rintro ⟨rest, hstand⟩
    exact Token.mem_tokens_of_stands ⟨rest, hstand, .endOfBlock rest⟩ (by simp)

/-- The words of a line are the letters outside comments with the longest number after each. -/
theorem mem_words_iff
    {letter : Char}
    {number : Text}
    {start : Nat} :
    ⟨.word letter number, start⟩ ∈ tokens line ↔
      ∃ rest, Outside line start (letter :: rest) ∧ Text.isLetter letter = true ∧
        LongestNumber number rest := by
  constructor
  · intro hmem
    obtain ⟨rest, hstand, hleads⟩ := Token.stands_of_mem_tokens hmem
    cases hleads with
    | word hletter hnumber => exact ⟨number ++ rest, hstand, hletter, hnumber⟩
  · rintro ⟨_, hstand, hletter, hnumber⟩
    obtain ⟨rest, rfl⟩ := hnumber.front
    exact Token.mem_tokens_of_stands ⟨rest, hstand, .word hletter hnumber⟩ (by simp)

/-- A letter outside comments begins a word exactly where a number may begin after it. -/
theorem exists_word_iff
    {letter : Char}
    {start : Nat} :
    (∃ number, ⟨.word letter number, start⟩ ∈ tokens line) ↔
      ∃ rest, Outside line start (letter :: rest) ∧ Text.isLetter letter = true ∧
        BeginsNumber rest := by
  simp only [mem_words_iff, ← Lexeme.exists_signedNumber?_iff, Lexeme.signedNumber?_eq_some_iff]
  constructor
  · rintro ⟨number, rest, hstand, hletter, hnumber⟩
    exact ⟨rest, hstand, hletter, number, hnumber⟩
  · rintro ⟨rest, hstand, hletter, number, hnumber⟩
    exact ⟨number, rest, hstand, hletter, hnumber⟩

/-- All other characters outside comments and words stand alone. -/
theorem mem_unknowns_iff
    {c : Char}
    {start : Nat} :
    ⟨.unknown c, start⟩ ∈ tokens line ↔
      (∃ rest, Outside line start (c :: rest)) ∧ Text.isBlank c = false ∧ c ≠ '(' ∧ c ≠ ';' ∧
        ∀ letter number first, ⟨.word letter number, first⟩ ∈ tokens line →
          ¬ Token.Covers ⟨.word letter number, first⟩ start := by
  constructor
  · intro hmem
    obtain ⟨rest, hstand, hleads⟩ := Token.stands_of_mem_tokens hmem
    cases hleads with
    | unknown hblank hparenthesis hend hword =>
        refine ⟨⟨rest, hstand⟩, hblank, hparenthesis, hend, ?_⟩
        intro letter number first hother hcovers
        have hself := (Token.stands_of_mem_tokens hmem).covers_start
        cases Token.eq_of_covers hmem hother hself hcovers
  · rintro ⟨⟨rest, hstand⟩, hblank, hparenthesis, hend, hwords⟩
    have hword : Text.isLetter c = true → ¬ BeginsNumber rest := by
      intro hletter hbegins
      obtain ⟨number, hnumber⟩ := exists_word_iff.mpr ⟨rest, hstand, hletter, hbegins⟩
      exact hwords c number start hnumber (Token.stands_of_mem_tokens hnumber).covers_start
    have hstands : Token.Stands ⟨.unknown c, start⟩ line :=
      ⟨rest, hstand, .unknown hblank hparenthesis hend hword⟩
    rcases Token.mem_tokens_or_inside hstands with
      hmem | ⟨_, letter, number, first, _, _, hother, hcovers⟩
    · exact hmem
    · exact absurd hcovers (hwords letter number first hother)

/-- An opening parenthesis belongs to a comment. -/
theorem exists_comment_at
    {before rest : Text}
    (hline : line = before ++ '(' :: rest) :
    ∃ t start, ⟨.comment t, start⟩ ∈ tokens line ∧
      Token.Covers ⟨.comment t, start⟩ before.length := by
  obtain ⟨token, htoken, hcovers⟩ := Token.exists_covers hline (by decide)
  obtain ⟨_, _, _, _, _, _, _, _, htext, hleads⟩ :=
    (Token.stands_of_mem_tokens htoken).exists_split hline hcovers
  by_cases hcomment : ∀ t, token.lexeme ≠ .comment t
  · exact absurd rfl (hleads.of_mem hcomment (c := '(') (by simp [htext])).2
  · obtain ⟨lexeme, start⟩ := token
    simp only [ne_eq, not_forall, not_not] at hcomment
    obtain ⟨t, rfl⟩ := hcomment
    exact ⟨t, start, htoken, hcovers⟩

/-- A comment goes on until it is closed. -/
theorem exists_comment_after
    {first mid rest : Text}
    {c : Char}
    (hline : line = (first ++ '(' :: mid) ++ c :: rest)
    (hmid : ')' ∉ mid) :
    ∃ t start, ⟨.comment t, start⟩ ∈ tokens line ∧
      Token.Covers ⟨.comment t, start⟩ (first ++ '(' :: mid).length := by
  rw [List.append_assoc, List.cons_append] at hline
  obtain ⟨t, start, hmem, hcovers⟩ := exists_comment_at hline
  obtain ⟨_, pre, post, after, rfl, hafter, hlength, _, htext, hleads⟩ :=
    (Token.stands_of_mem_tokens hmem).exists_split hline hcovers
  have hlong : mid.length < post.length := by
    by_contra hshort
    obtain ⟨more, rfl⟩ : post <+: mid :=
      List.prefix_of_prefix_length_le ⟨after, hafter.symm⟩ (List.prefix_append mid _) (by omega)
    cases hleads with
    | comment hcomment =>
        rw [Lexeme.text] at htext
        rw [htext] at hcomment
        rcases hcomment.mem_or_nil with hclosed | rfl
        · exact hmid (List.mem_append_left more hclosed)
        · simp at hafter
  dsimp only at hlength
  have hfinish : Token.finish ⟨.comment t, start⟩ = start + (pre ++ '(' :: post).length :=
    congrArg (start + List.length ·) htext
  refine ⟨t, start, hmem, ?_⟩
  simp only [Token.Covers, hfinish, List.length_append, List.length_cons]
  omega

/-- The characters of comments are those at and after an opening parenthesis, as far as it is not
closed before them. -/
theorem commented_iff
    {before rest : Text}
    {c : Char}
    (hline : line = before ++ c :: rest) :
    (∃ t start, ⟨.comment t, start⟩ ∈ tokens line ∧
        Token.Covers ⟨.comment t, start⟩ before.length) ↔
      c = '(' ∨ ¬ CommentsClosed before := by
  constructor
  · rintro ⟨t, start, hmem, hcovers⟩
    obtain ⟨first, pre, post, after, rfl, _, _, _, htext, hleads⟩ :=
      (Token.stands_of_mem_tokens hmem).exists_split hline hcovers
    cases hleads with
    | comment hcomment =>
        obtain ⟨tail, rfl, _⟩ := hcomment.exists_tail
        cases pre with
        | nil => exact Or.inl (List.cons.inj htext).1.symm
        | cons d pre =>
            obtain ⟨rfl, rfl⟩ := List.cons.inj htext
            exact Or.inr (not_commentsClosed hcomment.notMem_front)
  · rintro (rfl | hopen)
    · exact exists_comment_at hline
    · obtain ⟨first, mid, rfl, hmid⟩ : ∃ first mid, before = first ++ '(' :: mid ∧ ')' ∉ mid := by
        simpa [CommentsClosed] using hopen
      exact exists_comment_after hline hmid

/-- The tokens of a line are its segmentation. -/
theorem segmentation_tokens (line : Text) : Segmentation line (tokens line) where
  apart := (Token.cut_scan 0 line).apart
  spans := by
    intro token htoken
    have hstands := Token.stands_of_mem_tokens htoken
    refine ⟨hstands.covers_start.2, ?_⟩
    obtain ⟨rest, ⟨before, rfl, hlength, _⟩, _⟩ := hstands
    constructor
    · simp only [Token.finish, List.length_append]
      omega
    · rw [List.extract, ← hlength, List.drop_left, Token.finish, hlength, Nat.add_sub_cancel_left,
        List.take_left]
  between := by
    intro before c rest hline huncovered
    by_contra hblank
    obtain ⟨token, htoken, hcovers⟩ := Token.exists_covers hline (by simpa using hblank)
    exact huncovered token htoken hcovers
  plain := by
    intro token htoken hcomment c hc
    obtain ⟨rest, _, hleads⟩ := Token.stands_of_mem_tokens htoken
    exact (hleads.of_mem hcomment hc).1
  commented := fun _ _ _ => commented_iff
  comments := fun _ _ => mem_comments_iff
  ends := fun _ => mem_ends_iff
  words := fun _ _ _ => mem_words_iff
  wordStarts := fun _ _ => exists_word_iff
  unknowns := fun _ _ => mem_unknowns_iff

namespace Segmentation

variable {ts ts' : List Token}

/-- Which tokens a segmentation has is fixed by the line. -/
theorem mem_iff
    (h : Segmentation line ts)
    (h' : Segmentation line ts')
    (token : Token) :
    token ∈ ts ↔ token ∈ ts' := by
  have hwords : ∀ letter number start,
      ⟨.word letter number, start⟩ ∈ ts ↔ ⟨.word letter number, start⟩ ∈ ts' :=
    fun letter number start =>
      (h.words letter number start).trans (h'.words letter number start).symm
  obtain ⟨lexeme, start⟩ := token
  cases lexeme with
  | word letter number => exact hwords letter number start
  | comment t => exact (h.comments t start).trans (h'.comments t start).symm
  | endOfBlock => exact (h.ends start).trans (h'.ends start).symm
  | unknown c =>
      rw [h.unknowns, h'.unknowns]
      simp only [hwords]

theorem nodup (h : Segmentation line ts) : ts.Nodup := by
  refine (List.Pairwise.imp_of_mem ?_ h.apart)
  rintro token next htoken _ hapart rfl
  have hspan := (h.spans token htoken).1
  omega

/-- A line has one segmentation: the same tokens in the same order. -/
theorem unique (h : Segmentation line ts) (h' : Segmentation line ts') : ts = ts' := by
  refine List.Perm.eq_of_pairwise ?_ h.apart h'.apart
    ((List.perm_ext_iff_of_nodup h.nodup h'.nodup).mpr (h.mem_iff h'))
  intro token next htoken hnext hle hge
  have hspan := (h.spans token htoken).1
  have hspan' := (h'.spans next hnext).1
  omega

end Segmentation

/-- The tokens of a line are a segmentation of it, and there is no other. -/
theorem segmentation_iff
    (line : Text)
    (ts : List Token) :
    Segmentation line ts ↔ ts = tokens line :=
  ⟨fun h => h.unique (segmentation_tokens line), fun h => h ▸ segmentation_tokens line⟩

example : tokens "N1 X-.5Z;(a;)Q".toList =
    [⟨.word 'N' "1".toList, 0⟩, ⟨.word 'X' "-.5".toList, 3⟩, ⟨.unknown 'Z', 7⟩, ⟨.endOfBlock, 8⟩,
      ⟨.comment "(a;)".toList, 9⟩, ⟨.unknown 'Q', 13⟩] := by
  decide +kernel

end Block
end DualTurret
