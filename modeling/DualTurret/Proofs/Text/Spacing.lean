import DualTurret.Proofs.Block.Line
import Mathlib.Tactic.Common

/-!
# Blanks in a text

Two texts are respaced when they have the same words in the same order: blanks at either
end do not count, and between two words any blanks are as good as any others.  Past the
leading blanks such texts go in step: they show the same character, or both stand at a
break, where a text ends or goes on with a blank.

Main facts:
* `Text.Aligned.cases_head`: one step of two texts that go in step;
* `Text.respaced_trim`: a text is respaced by trimming it;
* `Text.Respaced.prefix_trim_iff`: respaced texts begin alike once they are trimmed.
-/

namespace DualTurret

namespace Text

def AllBlank (t : Text) : Prop :=
  ∀ c ∈ t, isBlank c = true

def Plain (t : Text) : Prop :=
  ∀ c ∈ t, isBlank c = false

instance (t : Text) : Decidable (AllBlank t) :=
  List.decidableBAll (fun c => isBlank c = true) t

instance (t : Text) : Decidable (Plain t) :=
  List.decidableBAll (fun c => isBlank c = false) t

theorem Plain.tail {c : Char} {t : Text} (h : Plain (c :: t)) : Plain t :=
  fun d hd => h d (List.mem_cons_of_mem c hd)

/-- The same characters, with other blanks at the end and other blanks where there are some. -/
inductive Aligned : Text → Text → Prop
  | ends {b c : Text}
      (hb : AllBlank b)
      (hc : AllBlank c) :
      Aligned b c
  | char {c : Char} {t u : Text}
      (hc : isBlank c = false)
      (rest : Aligned t u) :
      Aligned (c :: t) (c :: u)
  | gap {b c t u : Text}
      (hb : AllBlank b)
      (hc : AllBlank c)
      (hbne : b ≠ [])
      (hcne : c ≠ [])
      (rest : Aligned t u) :
      Aligned (b ++ t) (c ++ u)

/-- The same words, with other blanks around and between them. -/
def Respaced (t u : Text) : Prop :=
  ∃ lead lead' body body', AllBlank lead ∧ AllBlank lead' ∧ Aligned body body' ∧
    t = lead ++ body ∧ u = lead' ++ body'

/-- The members of closed ranges can be listed. -/
theorem mem_of_inRanges
    {ranges : List (Nat × Nat)}
    {n : Nat}
    (h : inRanges ranges n = true) :
    n ∈ ranges.flatMap fun r => List.range' r.1 (r.2 + 1 - r.1) := by
  obtain ⟨r, hr, hn⟩ := List.any_eq_true.mp h
  simp only [Bool.and_eq_true, decide_eq_true_eq] at hn
  refine List.mem_flatMap.mpr ⟨r, hr, ?_⟩
  rw [List.mem_range'_1]
  omega

theorem isWordChar_of_isBlank {c : Char} (h : isBlank c = true) : isWordChar c = false := by
  have hall : ∀ n ∈ blankRanges.flatMap fun r => List.range' r.1 (r.2 + 1 - r.1),
      isWordChar (Char.ofNat n) = false := by
    decide +kernel
  rw [← Char.ofNat_toNat c]
  exact hall c.toNat (mem_of_inRanges h)

theorem isDecimal_of_isBlank {c : Char} (h : isBlank c = true) : isDecimal c = false := by
  by_contra hdecimal
  have hword := isWordChar_of_isDecimal (by simpa using hdecimal)
  rw [isWordChar_of_isBlank h] at hword
  cases hword

theorem isLetter_of_isBlank {c : Char} (h : isBlank c = true) : isLetter c = false := by
  by_contra hletter
  have hword := isWordChar_of_isLetter (by simpa using hletter)
  rw [isWordChar_of_isBlank h] at hword
  cases hword

theorem ne_of_isBlank {c d : Char} (h : isBlank c = true) (hd : isBlank d = false) : c ≠ d := by
  rintro rfl
  rw [h] at hd
  cases hd

/-- The text ends here or goes on with a blank. -/
def AtBreak : Text → Prop
  | [] => True
  | c :: _ => isBlank c = true

/-- Nothing is taken at a break. -/
theorem AtBreak.takeWhile_eq
    {p : Char → Bool}
    (hp : ∀ c, isBlank c = true → p c = false)
    {t : Text}
    (h : AtBreak t) :
    t.takeWhile p = [] := by
  cases t with
  | nil => rfl
  | cons c t => exact List.takeWhile_cons_of_neg (by simp [hp c h])

theorem AtBreak.dropWhile_eq
    {p : Char → Bool}
    (hp : ∀ c, isBlank c = true → p c = false)
    {t : Text}
    (h : AtBreak t) :
    t.dropWhile p = t := by
  cases t with
  | nil => rfl
  | cons c t => exact List.dropWhile_cons_of_neg (by simp [hp c h])

theorem AllBlank.atBreak {b : Text} (h : AllBlank b) : AtBreak b := by
  cases b with
  | nil => trivial
  | cons c b => exact h c (by simp)

theorem AllBlank.atBreak_append
    {b : Text}
    (h : AllBlank b)
    (hne : b ≠ [])
    (t : Text) :
    AtBreak (b ++ t) := by
  cases b with
  | nil => exact absurd rfl hne
  | cons c b => exact h c (by simp)

theorem AllBlank.tail {c : Char} {b : Text} (h : AllBlank (c :: b)) : AllBlank b :=
  fun d hd => h d (List.mem_cons_of_mem c hd)

theorem AllBlank.trimLeft_append
    {b : Text}
    (h : AllBlank b)
    (t : Text) :
    trimLeft (b ++ t) = trimLeft t := by
  induction b with
  | nil => rfl
  | cons c b ih =>
      have hc : isBlank c = true := h c (by simp)
      rw [trimLeft, List.cons_append, List.dropWhile_cons_of_pos hc]
      exact ih h.tail

theorem AllBlank.trimLeft_eq {b : Text} (h : AllBlank b) : trimLeft b = [] := by
  have hempty := h.trimLeft_append []
  rwa [List.append_nil] at hempty

namespace Aligned

variable {t u : Text}

/-- Aligned texts both stand at a break, or they go on with one character. -/
theorem cases_head
    (h : Aligned t u) :
    (AtBreak t ∧ AtBreak u) ∨
      ∃ c t' u', isBlank c = false ∧ Aligned t' u' ∧ t = c :: t' ∧ u = c :: u' := by
  cases h with
  | ends hb hb' => exact Or.inl ⟨hb.atBreak, hb'.atBreak⟩
  | char hc rest => exact Or.inr ⟨_, _, _, hc, rest, rfl, rfl⟩
  | gap hb hb' hne hne' rest =>
      exact Or.inl ⟨hb.atBreak_append hne _, hb'.atBreak_append hne' _⟩

/-- Texts that go on with a character are aligned after it. -/
theorem of_cons
    {c : Char}
    (hc : isBlank c = false)
    (h : Aligned (c :: t) u) :
    ∃ u', u = c :: u' ∧ Aligned t u' := by
  rcases h.cases_head with ⟨hbreak, _⟩ | ⟨d, t', u', _, hrest, ht, rfl⟩
  · have hblank : isBlank c = true := hbreak
    rw [hc] at hblank
    cases hblank
  · cases ht
    exact ⟨u', rfl, hrest⟩

theorem symm (h : Aligned t u) : Aligned u t := by
  induction h with
  | ends hb hb' => exact ends hb' hb
  | char hc _ ih => exact char hc ih
  | gap hb hb' hne hne' _ ih => exact gap hb' hb hne' hne ih

theorem refl (t : Text) : Aligned t t := by
  induction t with
  | nil => exact ends (by simp [AllBlank]) (by simp [AllBlank])
  | cons c t ih =>
      cases hc : isBlank c with
      | false => exact char hc ih
      | true =>
          have hone : AllBlank [c] := by simpa [AllBlank] using hc
          exact gap hone hone (by simp) (by simp) ih

theorem append_blanks (t : Text) {b : Text} (hb : AllBlank b) : Aligned (t ++ b) t := by
  induction t with
  | nil => exact ends hb (by simp [AllBlank])
  | cons c t ih =>
      cases hc : isBlank c with
      | false => exact char hc ih
      | true =>
          have hone : AllBlank [c] := by simpa [AllBlank] using hc
          exact gap hone hone (by simp) (by simp) ih

theorem word_append
    (w : Text)
    (hw : Plain w)
    (h : Aligned t u) :
    Aligned (w ++ t) (w ++ u) := by
  induction w with
  | nil => exact h
  | cons c w ih => exact char (hw c (by simp)) (ih hw.tail)

theorem trimLeft (h : Aligned t u) : Aligned (trimLeft t) (trimLeft u) := by
  induction h with
  | ends hb hb' =>
      rw [hb.trimLeft_eq, hb'.trimLeft_eq]
      exact refl []
  | @char c t u hc rest _ =>
      have hkeep : ∀ s : Text, Text.trimLeft (c :: s) = c :: s := fun s =>
        List.dropWhile_cons_of_neg (by simp [hc])
      rw [hkeep, hkeep]
      exact char hc rest
  | gap hb hb' _ _ _ ih =>
      rw [hb.trimLeft_append, hb'.trimLeft_append]
      exact ih

/-- What only looks at a text as far as its first break is the same for aligned texts. -/
theorem apply_eq
    {α : Type}
    {f : Text → α}
    {a : α}
    (hbreak : ∀ s, AtBreak s → f s = a)
    (hhead : ∀ c t u, Aligned t u → f (c :: t) = f (c :: u))
    (h : Aligned t u) :
    f t = f u := by
  rcases h.cases_head with ⟨ht, hu⟩ | ⟨c, t', u', _, hrest, rfl, rfl⟩
  · rw [hbreak t ht, hbreak u hu]
  · exact hhead c t' u' hrest

section

variable {p : Char → Bool} (hp : ∀ c, isBlank c = true → p c = false)

include hp

theorem takeWhile_eq (h : Aligned t u) : t.takeWhile p = u.takeWhile p := by
  induction h with
  | ends hb hb' => rw [hb.atBreak.takeWhile_eq hp, hb'.atBreak.takeWhile_eq hp]
  | char _ _ ih => simp only [List.takeWhile_cons, ih]
  | gap hb hb' hne hne' _ _ =>
      rw [(hb.atBreak_append hne _).takeWhile_eq hp, (hb'.atBreak_append hne' _).takeWhile_eq hp]

theorem dropWhile (h : Aligned t u) : Aligned (t.dropWhile p) (u.dropWhile p) := by
  induction h with
  | ends hb hb' =>
      rw [hb.atBreak.dropWhile_eq hp, hb'.atBreak.dropWhile_eq hp]
      exact ends hb hb'
  | @char c t u hc rest ih =>
      cases hpc : p c with
      | true => simpa [List.dropWhile_cons, hpc] using ih
      | false => simpa [List.dropWhile_cons, hpc] using char hc rest
  | gap hb hb' hne hne' rest _ =>
      rw [(hb.atBreak_append hne _).dropWhile_eq hp, (hb'.atBreak_append hne' _).dropWhile_eq hp]
      exact gap hb hb' hne hne' rest

end

/-- Aligned texts begin with the same words. -/
theorem prefix_right
    {p : Text}
    (hp : Plain p)
    (h : Aligned t u)
    (hpt : p <+: t) :
    p <+: u := by
  induction p generalizing t u with
  | nil => exact List.nil_prefix
  | cons c p ih =>
      obtain ⟨rest, rfl⟩ := hpt
      obtain ⟨u', rfl, hrest⟩ := of_cons (hp c (by simp)) h
      have htail : p <+: u' :=
        ih hp.tail hrest (List.prefix_append p rest)
      exact (List.prefix_cons_inj c).mpr htail

end Aligned

theorem allBlank_takeWhile (t : Text) : AllBlank (t.takeWhile isBlank) :=
  fun _ hc => List.mem_takeWhile_imp hc

/-- A trimmed text is the text without some blanks at its ends. -/
theorem exists_trim
    (t : Text) :
    ∃ lead trail, AllBlank lead ∧ AllBlank trail ∧ t = lead ++ (trim t ++ trail) ∧
      trimLeft t = trim t ++ trail := by
  have hfront : t.takeWhile isBlank ++ trimLeft t = t := List.takeWhile_append_dropWhile
  have hback : trim t ++ (trimLeft t).rtakeWhile isBlank = trimLeft t := by
    rw [trim_eq_rdropWhile]
    exact List.rdropWhile_append_rtakeWhile
  refine ⟨t.takeWhile isBlank, (trimLeft t).rtakeWhile isBlank, allBlank_takeWhile t, ?_, ?_,
    hback.symm⟩
  · intro c hc
    exact List.mem_rtakeWhile_imp hc
  · rw [hback, hfront]

/-- Trimming a line only respaces it. -/
theorem respaced_trim (t : Text) : Respaced (trim t) t := by
  obtain ⟨lead, trail, hlead, htrail, ht, _⟩ := exists_trim t
  exact ⟨[], lead, trim t, trim t ++ trail, by simp [AllBlank], hlead,
    (Aligned.append_blanks (trim t) htrail).symm, rfl, ht⟩

namespace Respaced

variable {t u : Text}

theorem symm (h : Respaced t u) : Respaced u t := by
  obtain ⟨lead, lead', body, body', hlead, hlead', hbody, ht, hu⟩ := h
  exact ⟨lead', lead, body', body, hlead', hlead, hbody.symm, hu, ht⟩

theorem aligned_trimLeft (h : Respaced t u) : Aligned (trimLeft t) (trimLeft u) := by
  obtain ⟨lead, lead', body, body', hlead, hlead', hbody, rfl, rfl⟩ := h
  rw [hlead.trimLeft_append, hlead'.trimLeft_append]
  exact hbody.trimLeft

theorem prefix_trim
    {p : Text}
    (hp : Plain p)
    (h : Respaced t u)
    (hpt : p <+: trim t) :
    p <+: trim u := by
  obtain ⟨_, trail, _, htrail, _, ht⟩ := exists_trim t
  obtain ⟨_, trail', _, htrail', _, hu⟩ := exists_trim u
  have haligned : Aligned (trim t ++ trail) (trim u ++ trail') := by
    rw [← ht, ← hu]
    exact h.aligned_trimLeft
  have hlong : p <+: trim u ++ trail' :=
    haligned.prefix_right hp (hpt.trans (List.prefix_append _ _))
  exact (Aligned.append_blanks (trim u) htrail').prefix_right hp hlong

theorem prefix_trim_iff
    {p : Text}
    (hp : Plain p)
    (h : Respaced t u) :
    p <+: trim t ↔ p <+: trim u :=
  ⟨h.prefix_trim hp, h.symm.prefix_trim hp⟩

theorem trim_eq_nil (h : Respaced t u) (ht : trim t = []) : trim u = [] := by
  cases hu : trim u with
  | nil => rfl
  | cons c rest =>
      have hc : isBlank c = false := by
        have hhead := List.head?_dropWhile_not isBlank (trim u)
        rw [dropWhile_trim, hu] at hhead
        simpa using hhead
      have hone : [c] <+: trim t := by
        refine h.symm.prefix_trim (by simpa [Plain] using hc) ?_
        rw [hu]
        exact ⟨rest, rfl⟩
      rw [ht] at hone
      exact absurd hone (by simp)

end Respaced

/-- The pieces between some characters hold none of them. -/
theorem eq_false_of_mem_splitOnP
    {p : Char → Bool}
    (t : Text) :
    ∀ piece ∈ t.splitOnP p, ∀ c ∈ piece, p c = false := by
  induction t with
  | nil => simp
  | cons a t ih =>
      rw [List.splitOnP_cons_eq_if_modifyHead]
      cases ha : p a with
      | true => simpa using ih
      | false =>
          obtain ⟨first, rest, hpieces⟩ := List.exists_cons_of_ne_nil (List.splitOnP_ne_nil p t)
          rw [hpieces] at ih
          simp only [hpieces, List.modifyHead_cons, Bool.false_eq_true, if_false,
            List.forall_mem_cons, ha, true_and]
          exact List.forall_mem_cons.mp ih

end Text
end DualTurret
