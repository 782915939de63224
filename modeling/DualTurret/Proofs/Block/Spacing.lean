import DualTurret.Proofs.Text.Spacing
import Mathlib.Tactic.Common

/-!
# Words and markers under respacing

No word of a block reaches across a blank, and the words of a marker may stand as far
apart as they like.  So a reader of words or markers finds the same in all lines that are
respaced from each other.

Main facts:
* `Block.findAll_eq_of_respaced`: what a reader finds that does not see which blanks there are;
* `Block.gCodes_eq`, `Block.feedRate?_eq`, `Block.speedDigits?_eq`, `Block.waitCode?_eq`: the
  words of a line;
* `Block.holdsMarker_eq`: the markers of a line;
* `Block.isComment_eq`, `Block.isDivider_eq`, `Block.isProgramNumber_eq`: how a line begins.
-/

namespace DualTurret
namespace Block

open Text (Aligned AllBlank AtBreak Respaced)

variable {t u : Text}

/-- Blanks do not make a comment. -/
theorem isComment_eq (h : Respaced t u) : isComment t = isComment u := by
  rw [Bool.eq_iff_iff, isComment_iff, isComment_iff]
  exact h.prefix_trim_iff (by decide)

theorem isDivider_eq (h : Respaced t u) : isDivider t = isDivider u := by
  rw [Bool.eq_iff_iff, isDivider_iff, isDivider_iff]
  exact h.prefix_trim_iff (by decide)

theorem isProgramNumber_eq (h : Respaced t u) : isProgramNumber t = isProgramNumber u := by
  have hkeep : ∀ {s s' : Text}, Respaced s s' → isProgramNumber s = true →
      isProgramNumber s' = true := by
    intro s s' hs hnumber
    obtain ⟨c, rest, htrim, hc⟩ := (isProgramNumber_iff s).mp hnumber
    have hplain : Text.Plain ['O', c] := by
      intro d hd
      by_contra hblank
      have hblank : Text.isBlank d = true := by simpa using hblank
      rcases List.mem_pair.mp hd with rfl | rfl
      · exact absurd hblank (by decide)
      · rw [Text.isDecimal_of_isBlank hblank] at hc
        cases hc
    obtain ⟨rest', hrest⟩ := hs.prefix_trim hplain ⟨rest, htrim.symm⟩
    exact (isProgramNumber_iff s').mpr ⟨c, rest', hrest.symm, hc⟩
  rw [Bool.eq_iff_iff]
  exact ⟨hkeep h, hkeep h.symm⟩

theorem wordMayEnd_eq (h : Aligned t u) : wordMayEnd t = wordMayEnd u := by
  refine h.apply_eq (a := true) ?_ fun _ _ _ _ => rfl
  intro s hs
  cases s with
  | nil => rfl
  | cons c s => simp [wordMayEnd, Text.isWordChar_of_isBlank hs]

theorem markerMayEnd_eq (h : Aligned t u) : markerMayEnd t = markerMayEnd u := by
  refine h.apply_eq (a := true) ?_ fun _ _ _ _ => rfl
  intro s hs
  cases s with
  | nil => rfl
  | cons c s =>
      have hpoint : c ≠ '.' := Text.ne_of_isBlank hs (by decide)
      simp [markerMayEnd, Text.isDecimal_of_isBlank hs, hpoint]

theorem digitRun_fst_eq (h : Aligned t u) : (digitRun t).1 = (digitRun u).1 :=
  h.takeWhile_eq fun _ => Text.isDecimal_of_isBlank

theorem digitRun_snd_aligned (h : Aligned t u) : Aligned (digitRun t).2 (digitRun u).2 :=
  h.dropWhile fun _ => Text.isDecimal_of_isBlank

theorem decimalPart?_eq (h : Aligned t u) : decimalPart? t = decimalPart? u := by
  refine h.apply_eq (a := none) ?_ ?_
  · intro s hs
    cases s with
    | nil => rfl
    | cons c s =>
        have hpoint : c ≠ '.' := Text.ne_of_isBlank hs (by decide)
        simp [decimalPart?, hpoint]
  · intro c t u htail
    by_cases hpoint : c = '.'
    · subst hpoint
      simp only [decimalPart?, digitRun_fst_eq htail,
        wordMayEnd_eq (digitRun_snd_aligned htail)]
    · simp [decimalPart?, hpoint]

theorem gNumber?_eq (h : Aligned t u) : gNumber? t = gNumber? u := by
  simp only [gNumber?, digitRun_fst_eq h, decimalPart?_eq (digitRun_snd_aligned h),
    wordMayEnd_eq (digitRun_snd_aligned h)]

/-- The digits after a point at the front of a text. -/
def pointDigits? : Text → Option Text
  | '.' :: t => some (digitRun t).1
  | _ => none

theorem pointDigits?_of_ne {c : Char} (hc : c ≠ '.') (t : Text) : pointDigits? (c :: t) = none := by
  simp [pointDigits?, hc]

theorem pointDigits?_eq (h : Aligned t u) : pointDigits? t = pointDigits? u := by
  refine h.apply_eq (a := none) ?_ ?_
  · intro s hs
    cases s with
    | nil => rfl
    | cons c s => exact pointDigits?_of_ne (Text.ne_of_isBlank hs (by decide)) s
  · intro c t u htail
    by_cases hpoint : c = '.'
    · subst hpoint
      exact congrArg some (digitRun_fst_eq htail)
    · rw [pointDigits?_of_ne hpoint, pointDigits?_of_ne hpoint]

/-- The text of an unsigned number is fixed by the digits before and after its point. -/
theorem unsignedNumber?_fst
    (t : Text) :
    (unsignedNumber? t).map (·.1) =
      match (digitRun t).1, pointDigits? (digitRun t).2 with
      | [], none => none
      | [], some digits => if digits.isEmpty then none else some ('.' :: digits)
      | whole, none => some whole
      | whole, some digits => some (whole ++ '.' :: digits) := by
  unfold unsignedNumber?
  obtain ⟨whole, rest⟩ := digitRun t
  cases rest with
  | nil => cases whole <;> rfl
  | cons c rest =>
      by_cases hpoint : c = '.'
      · subst hpoint
        cases whole with
        | nil =>
            simp only [pointDigits?]
            split <;> simp_all
        | cons d whole => rfl
      · cases whole with
        | nil => simp [pointDigits?_of_ne hpoint, hpoint]
        | cons d whole => simp [pointDigits?_of_ne hpoint, hpoint]

theorem unsignedNumber?_fst_eq
    (h : Aligned t u) :
    (unsignedNumber? t).map (·.1) = (unsignedNumber? u).map (·.1) := by
  rw [unsignedNumber?_fst, unsignedNumber?_fst, digitRun_fst_eq h,
    pointDigits?_eq (digitRun_snd_aligned h)]

/-- Nothing but blanks precedes. -/
def AfterBreak : Option Char → Prop
  | none => True
  | some c => Text.isBlank c = true

/-- What precedes is the same, or a break on both sides. -/
def SameBefore (before before' : Option Char) : Prop :=
  before = before' ∨ AfterBreak before ∧ AfterBreak before'

/-- A test that a break passes gives the same behind the same. -/
theorem SameBefore.apply_eq
    {before before' : Option Char}
    {f : Option Char → Bool}
    (hbreak : ∀ b, AfterBreak b → f b = true)
    (h : SameBefore before before') :
    f before = f before' := by
  rcases h with rfl | ⟨hb, hb'⟩
  · rfl
  · rw [hbreak before hb, hbreak before' hb']

theorem wordMayBegin_eq
    {before before' : Option Char}
    (h : SameBefore before before') :
    wordMayBegin before = wordMayBegin before' := by
  refine h.apply_eq ?_
  intro b hb
  cases b with
  | none => rfl
  | some c => simp [wordMayBegin, Text.isWordChar_of_isBlank hb]

theorem markerMayBegin_eq
    {before before' : Option Char}
    (h : SameBefore before before') :
    markerMayBegin before = markerMayBegin before' := by
  refine h.apply_eq ?_
  intro b hb
  cases b with
  | none => rfl
  | some c => simp [markerMayBegin, Text.isLetter_of_isBlank hb]

/-- A reader that finds nothing at a break, and elsewhere does not see which blanks
there are. -/
structure BlindToBlanks {α : Type} (read : Option Char → Text → Option α) : Prop where
  atBreak : ∀ before t, AtBreak t → read before t = none
  atHead : ∀ before before' c t u, SameBefore before before' → Text.isBlank c = false →
    Aligned t u → read before (c :: t) = read before' (c :: u)

section

variable {α : Type} {read : Option Char → Text → Option α} (hread : BlindToBlanks read)

include hread

theorem findAll_of_allBlank
    {b : Text}
    (hb : AllBlank b)
    (before : Option Char) :
    findAll read before b = [] := by
  induction b generalizing before with
  | nil => simp [findAll, hread.atBreak before [] trivial]
  | cons c b ih =>
      have hc : AtBreak (c :: b) := hb.atBreak
      simp [findAll, hread.atBreak before (c :: b) hc, ih hb.tail]

/-- Over some blanks a reader finds nothing, and then stands after a break. -/
theorem exists_findAll_append
    {b : Text}
    (hb : AllBlank b)
    (hne : b ≠ [])
    (before : Option Char)
    (t : Text) :
    ∃ before', AfterBreak before' ∧ findAll read before (b ++ t) = findAll read before' t := by
  induction b generalizing before with
  | nil => exact absurd rfl hne
  | cons c b ih =>
      have hskip : findAll read before (c :: b ++ t) = findAll read (some c) (b ++ t) := by
        have hc : AtBreak (c :: (b ++ t)) := hb c (by simp)
        simp [findAll, hread.atBreak before _ hc]
      rw [hskip]
      by_cases hb' : b = []
      · subst hb'
        exact ⟨some c, hb c (by simp), rfl⟩
      · exact ih hb.tail hb' (some c)

/-- A reader that is blind to blanks finds the same in aligned texts. -/
theorem findAll_eq_of_aligned
    (h : Aligned t u)
    {before before' : Option Char}
    (hbefore : SameBefore before before') :
    findAll read before t = findAll read before' u := by
  induction h generalizing before before' with
  | ends hb hb' => rw [findAll_of_allBlank hread hb, findAll_of_allBlank hread hb']
  | @char c t u hc rest ih =>
      have hhere := hread.atHead before before' c t u hbefore hc rest
      have hthere := ih (Or.inl (Eq.refl (some c)))
      simp only [findAll, hhere, hthere]
  | @gap b b' t u hb hb' hne hne' _ ih =>
      obtain ⟨first, hfirst, heq⟩ := exists_findAll_append hread hb hne before t
      obtain ⟨second, hsecond, heq'⟩ := exists_findAll_append hread hb' hne' before' u
      rw [heq, heq']
      exact ih (Or.inr ⟨hfirst, hsecond⟩)

/-- A reader that does not see which blanks there are finds the same in respaced lines. -/
theorem findAll_eq_of_respaced (h : Respaced t u) : findAll read none t = findAll read none u := by
  obtain ⟨lead, lead', body, body', hlead, hlead', hbody, rfl, rfl⟩ := h
  have hstart : ∀ b s, AllBlank b → ∃ before, AfterBreak before ∧
      findAll read none (b ++ s) = findAll read before s := by
    intro b s hb
    by_cases hne : b = []
    · subst hne
      exact ⟨none, trivial, rfl⟩
    · exact exists_findAll_append hread hb hne none s
  obtain ⟨first, hfirst, heq⟩ := hstart lead body hlead
  obtain ⟨second, hsecond, heq'⟩ := hstart lead' body' hlead'
  rw [heq, heq']
  exact findAll_eq_of_aligned hread hbody (Or.inr ⟨hfirst, hsecond⟩)

end

/-- A reader of words with one address sees no blanks if its reading of the number sees
none. -/
theorem blindToBlanks_of_address
    {α : Type}
    {read : Option Char → Text → Option α}
    (address : Char)
    (number : Text → Option α)
    (haddress : Text.isBlank address = false)
    (hnil : ∀ before, read before [] = none)
    (hcons : ∀ before c t, read before (c :: t) =
      if c = address ∧ wordMayBegin before = true then number t else none)
    (hnumber : ∀ t u, Aligned t u → number t = number u) :
    BlindToBlanks read where
  atBreak := by
    intro before t ht
    cases t with
    | nil => exact hnil before
    | cons c t =>
        have hc : c ≠ address := Text.ne_of_isBlank ht haddress
        rw [hcons, if_neg fun h => hc h.1]
  atHead := by
    intro before before' c t u hbefore _ htail
    rw [hcons, hcons, wordMayBegin_eq hbefore, hnumber t u htail]

/-- The reader of G codes is blind to blanks. -/
theorem blindToBlanks_gCodeAt : BlindToBlanks gCodeAt := by
  refine blindToBlanks_of_address 'G' (fun t => (gNumber? t).map ('G' :: ·)) (by decide)
    (fun _ => rfl) ?_ ?_
  · intro before c t
    by_cases hc : c = 'G'
    · subst hc
      simp [gCodeAt]
    · simp [gCodeAt, hc]
  · intro t u h
    rw [gNumber?_eq h]

/-- The reader of feed rates is blind to blanks. -/
theorem blindToBlanks_feedAt : BlindToBlanks feedAt := by
  refine blindToBlanks_of_address 'F' (fun t => (unsignedNumber? t).map (·.1)) (by decide)
    (fun _ => rfl) ?_ ?_
  · intro before c t
    by_cases hc : c = 'F'
    · subst hc
      simp [feedAt]
    · simp [feedAt, hc]
  · intro t u h
    exact unsignedNumber?_fst_eq h

/-- The reader of whole numbers is blind to blanks. -/
theorem blindToBlanks_wholeWordAt
    {address : Char}
    (haddress : Text.isBlank address = false) :
    BlindToBlanks (wholeWordAt address) := by
  refine blindToBlanks_of_address address
    (fun t =>
      if !(digitRun t).1.isEmpty && wordMayEnd (digitRun t).2 then some (digitRun t).1 else none)
    haddress (fun _ => rfl) ?_ ?_
  · intro before c t
    simp only [wholeWordAt, Bool.and_eq_true, beq_iff_eq]
  · intro t u h
    simp only [digitRun_fst_eq h, wordMayEnd_eq (digitRun_snd_aligned h)]

/-- Blanks do not change the G codes of a line. -/
theorem gCodes_eq (h : Respaced t u) : gCodes t = gCodes u :=
  findAll_eq_of_respaced blindToBlanks_gCodeAt h

/-- Blanks do not change the feed rate of a line. -/
theorem feedRate?_eq (h : Respaced t u) : feedRate? t = feedRate? u := by
  rw [feedRate?, feedRate?, findAll_eq_of_respaced blindToBlanks_feedAt h]

theorem wholeWords_eq
    (h : Respaced t u)
    {address : Char}
    (haddress : Text.isBlank address = false) :
    wholeWords address t = wholeWords address u :=
  findAll_eq_of_respaced (blindToBlanks_wholeWordAt haddress) h

theorem speedDigits?_eq (h : Respaced t u) : speedDigits? t = speedDigits? u := by
  rw [speedDigits?, speedDigits?, wholeWords_eq h (by decide)]

/-- Blanks do not change the wait code of a line. -/
theorem waitCode?_eq
    (h : Respaced t u)
    (mRange pRange : ValueRange) :
    waitCode? mRange pRange t = waitCode? mRange pRange u := by
  have hcodes : ∀ address range, waitCodes address range t = waitCodes address range u := by
    intro address range
    rw [waitCodes, waitCodes, wholeWords_eq h (by cases address <;> decide)]
  rw [waitCode?, waitCode?, hcodes, hcodes]

/-- The words of a marker: there is one, and none is empty or holds a blank. -/
structure MarkerWords (words : List Text) : Prop where
  ne_nil : words ≠ []
  word_ne_nil : ∀ w ∈ words, w ≠ []
  plain : ∀ w ∈ words, Text.Plain w

theorem markerWords_words
    {marker : Text}
    (h : Text.words marker ≠ []) :
    MarkerWords (Text.words marker) where
  ne_nil := h
  word_ne_nil := by
    intro w hw
    simpa using (List.mem_filter.mp hw).2
  plain := by
    intro w hw
    exact Text.eq_false_of_mem_splitOnP marker w (List.mem_filter.mp hw).1

theorem MarkerWords.tail
    {w v : Text}
    {words : List Text}
    (h : MarkerWords (w :: v :: words)) :
    MarkerWords (v :: words) where
  ne_nil := by simp
  word_ne_nil := fun x hx => h.word_ne_nil x (List.mem_cons_of_mem w hx)
  plain := fun x hx => h.plain x (List.mem_cons_of_mem w hx)

theorem after?_of_atBreak
    {w : Text}
    (hw : w ≠ [])
    (hplain : Text.Plain w)
    (ht : AtBreak t) :
    Text.after? w t = none := by
  cases w with
  | nil => exact absurd rfl hw
  | cons d w =>
      cases t with
      | nil => rfl
      | cons c t =>
          have hne : d ≠ c := (Text.ne_of_isBlank ht (hplain d (by simp))).symm
          simp [Text.after?, hne]

theorem after?_rel
    {w : Text}
    (hplain : Text.Plain w)
    (h : Aligned t u) :
    Option.Rel Aligned (Text.after? w t) (Text.after? w u) := by
  induction w generalizing t u with
  | nil => exact Option.Rel.some h
  | cons d w ih =>
      rcases h.cases_head with ⟨ht, hu⟩ | ⟨c, t', u', _, hrest, rfl, rfl⟩
      · rw [after?_of_atBreak (by simp) hplain ht, after?_of_atBreak (by simp) hplain hu]
        exact Option.Rel.none
      · by_cases hd : d = c
        · subst hd
          simpa [Text.after?] using ih hplain.tail hrest
        · simp [Text.after?, hd]

theorem afterWords?_of_atBreak
    {words : List Text}
    (hwords : MarkerWords words)
    (ht : AtBreak t) :
    afterWords? words t = none := by
  cases words with
  | nil => exact absurd rfl hwords.ne_nil
  | cons w words =>
      have hnone : Text.after? w t = none :=
        after?_of_atBreak (hwords.word_ne_nil w (by simp)) (hwords.plain w (by simp)) ht
      cases words with
      | nil => exact hnone
      | cons v words => simp [afterWords?, hnone]

/-- At the end of a text there are no blanks to pass, but then there is no further word either. -/
theorem afterBlanks?_bind_of_atBreak
    {words : List Text}
    (hwords : MarkerWords words)
    (ht : AtBreak t) :
    (afterBlanks? t).bind (afterWords? words) = afterWords? words (Text.trimLeft t) := by
  cases t with
  | nil =>
      have hend : AtBreak [] := trivial
      exact (afterWords?_of_atBreak hwords hend).symm
  | cons c t =>
      have hc : Text.isBlank c = true := ht
      have hskip : Text.trimLeft (c :: t) = Text.trimLeft t := List.dropWhile_cons_of_pos hc
      simp [afterBlanks?, hc, hskip]

/-- After the same words, aligned texts are still aligned. -/
theorem afterWords?_rel
    {words : List Text}
    (hwords : MarkerWords words)
    (h : Aligned t u) :
    Option.Rel Aligned (afterWords? words t) (afterWords? words u) := by
  induction words generalizing t u with
  | nil => exact absurd rfl hwords.ne_nil
  | cons w words ih =>
      have hword := after?_rel (hwords.plain w (by simp)) h
      cases words with
      | nil => exact hword
      | cons v words =>
          simp only [afterWords?, Option.bind_eq_bind]
          generalize Text.after? w t = t', Text.after? w u = u' at hword
          cases hword with
          | none => exact Option.Rel.none
          | some hrest =>
              simp only [Option.bind_some]
              rcases hrest.cases_head with ⟨ht, hu⟩ | ⟨c, t', u', hc, _, rfl, rfl⟩
              · rw [afterBlanks?_bind_of_atBreak hwords.tail ht,
                  afterBlanks?_bind_of_atBreak hwords.tail hu]
                exact ih hwords.tail hrest.trimLeft
              · simp [afterBlanks?, hc]

theorem holdsSomewhere_eq_findAll
    (test : Option Char → Text → Bool)
    (before : Option Char)
    (t : Text) :
    holdsSomewhere test before t =
      !(findAll (fun b s => if test b s then some () else none) before t).isEmpty := by
  induction t generalizing before with
  | nil => cases htest : test before [] <;> simp [holdsSomewhere, findAll, htest]
  | cons c t ih =>
      cases htest : test before (c :: t) <;> simp [holdsSomewhere, findAll, htest, ih]

/-- The reader of a marker is blind to blanks. -/
theorem blindToBlanks_markerAt
    {words : List Text}
    (hwords : MarkerWords words) :
    BlindToBlanks fun before t => if markerAt words before t then some () else none where
  atBreak := by
    intro before t ht
    simp [markerAt, afterWords?_of_atBreak hwords ht]
  atHead := by
    intro before before' c t u hbefore hc htail
    have hrel := afterWords?_rel hwords (Aligned.char hc htail)
    have hsame : markerAt words before (c :: t) = markerAt words before' (c :: u) := by
      unfold markerAt
      rw [markerMayBegin_eq hbefore]
      generalize afterWords? words (c :: t) = t', afterWords? words (c :: u) = u' at hrel
      cases hrel with
      | none => rfl
      | some hrest => simp only [markerMayEnd_eq hrest]
    rw [hsame]

/-- Respaced lines hold the same markers. -/
theorem holdsMarker_eq
    (h : Respaced t u)
    {marker : Text}
    (hmarker : Text.words marker ≠ []) :
    holdsMarker t marker = holdsMarker u marker := by
  rw [holdsMarker, holdsMarker, holdsSomewhere_eq_findAll, holdsSomewhere_eq_findAll,
    findAll_eq_of_respaced (blindToBlanks_markerAt (markerWords_words hmarker)) h]

theorem holdsAny_eq
    {markers : List Text}
    (h : Respaced t u)
    (hmarkers : ∀ marker ∈ markers, Text.words marker ≠ []) :
    holdsAny t markers = holdsAny u markers := by
  unfold holdsAny
  induction markers with
  | nil => rfl
  | cons marker markers ih =>
      rw [List.any_cons, List.any_cons, holdsMarker_eq h (hmarkers marker (by simp)),
        ih fun other hother => hmarkers other (List.mem_cons_of_mem marker hother)]

/-- Blanks do not change the name whose marker a line holds. -/
theorem heldName?_eq
    {named : List (Text × Text)}
    (h : Respaced t u)
    (hnamed : ∀ entry ∈ named, Text.words entry.2 ≠ []) :
    heldName? t named = heldName? u named := by
  unfold heldName?
  induction named with
  | nil => rfl
  | cons entry named ih =>
      rw [List.find?_cons, List.find?_cons, holdsMarker_eq h (hnamed entry (by simp)),
        ih fun other hother => hnamed other (List.mem_cons_of_mem entry hother)]

end Block
end DualTurret
