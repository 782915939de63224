import DualTurret.Proofs.Block.Words

/-!
# Where a line holds a marker

The words of a marker stand in a line one after the other, taken literally, with blanks between
each two.  No letter comes right before the first of them, and neither a digit nor a point right
after the last.  A line holds the marker if its words stand so anywhere in it: every position is
tried, also inside an occurrence that did not count.

Main facts:
* `Block.spells_words`: a marker is its words with blanks between and around them;
* `Block.afterWords?_eq_some_iff`: where the words of a marker stand;
* `Block.holdsMarker_iff_stands`: which lines hold a marker.
-/

namespace DualTurret

namespace Text

/-- The words one after the other, with blanks between each two. -/
inductive SpacedWords : List Text → Text → Prop
  | last (word : Text) : SpacedWords [word] word
  | more {word gap t : Text} {words : List Text}
      (hgap : AllBlank gap)
      (hne : gap ≠ [])
      (rest : SpacedWords words t) :
      SpacedWords (word :: words) (word ++ gap ++ t)

/-- A text without blanks is one word. -/
theorem words_of_plain {t : Text} (h : Plain t) (hne : t ≠ []) : words t = [t] := by
  simp [words, List.splitOnP_eq_singleton h, hne]

/-- A blank separates the words before it from those after it. -/
theorem words_append
    {c : Char}
    (hc : isBlank c = true)
    (t u : Text) :
    words (t ++ c :: u) = words t ++ words u := by
  rw [words, List.splitOnP_append_cons t u hc, List.filter_append]
  rfl

/-- A text has no blank, or it can be split at its first one. -/
theorem plain_or_exists_blank
    (t : Text) :
    Plain t ∨ ∃ first c rest, t = first ++ c :: rest ∧ Plain first ∧ isBlank c = true := by
  induction t with
  | nil => exact Or.inl (by simp [Plain])
  | cons c t ih =>
      cases hc : isBlank c with
      | true => exact Or.inr ⟨[], c, t, rfl, by simp [Plain], hc⟩
      | false =>
          rcases ih with hplain | ⟨first, d, rest, rfl, hfirst, hd⟩
          · exact Or.inl (List.forall_mem_cons.mpr ⟨hc, hplain⟩)
          · exact Or.inr ⟨c :: first, d, rest, rfl, List.forall_mem_cons.mpr ⟨hc, hfirst⟩, hd⟩

theorem allBlank_cons
    {c : Char}
    {t : Text}
    (hc : isBlank c = true)
    (ht : AllBlank t) :
    AllBlank (c :: t) :=
  List.forall_mem_cons.mpr ⟨hc, ht⟩

/-- A text without words is blank, and any other is its words with blanks around them.  By its
first blank a text is cut into a word, which may be empty, and a shorter text. -/
theorem exists_spacedWords
    (t : Text) :
    (words t = [] → AllBlank t) ∧
      (words t ≠ [] → ∃ lead body trail, AllBlank lead ∧ AllBlank trail ∧
        SpacedWords (words t) body ∧ t = lead ++ body ++ trail) := by
  have hempty : AllBlank [] := by simp [AllBlank]
  induction hlength : t.length using Nat.strong_induction_on generalizing t with
  | _ n ih =>
      subst hlength
      rcases plain_or_exists_blank t with hplain | ⟨first, c, rest, rfl, hfirst, hc⟩
      · by_cases hne : t = []
        · subst hne
          exact ⟨fun _ => hempty, fun h => absurd rfl h⟩
        · rw [words_of_plain hplain hne]
          exact ⟨by simp, fun _ => ⟨[], t, [], hempty, hempty, .last t, by simp⟩⟩
      · obtain ⟨hblank, hspaced⟩ := ih rest.length (by simp; omega) rest rfl
        rw [words_append hc]
        by_cases hne : first = []
        · subst hne
          refine ⟨fun h => allBlank_cons hc (hblank h), fun h => ?_⟩
          obtain ⟨lead, body, trail, hlead, htrail, hbody, hrest⟩ := hspaced h
          exact ⟨c :: lead, body, trail, allBlank_cons hc hlead, htrail, hbody, by simp [hrest]⟩
        · rw [words_of_plain hfirst hne]
          refine ⟨by simp, fun _ => ?_⟩
          by_cases hrest : words rest = []
          · rw [hrest]
            exact ⟨[], first, c :: rest, hempty, allBlank_cons hc (hblank hrest), .last first, rfl⟩
          · obtain ⟨lead, body, trail, hlead, htrail, hbody, hsplit⟩ := hspaced hrest
            refine ⟨[], first ++ c :: lead ++ body, trail, hempty, htrail,
              .more (allBlank_cons hc hlead) (by simp) hbody, ?_⟩
            simp [hsplit]

end Text

namespace Block

open Text (AllBlank SpacedWords)

/-- The marker is the words, none empty and none with a blank, with blanks between each two and
perhaps before and after them. -/
structure Spells (words : List Text) (marker : Text) : Prop where
  markerWords : MarkerWords words
  spaced : ∃ lead body trail, AllBlank lead ∧ AllBlank trail ∧ SpacedWords words body ∧
    marker = lead ++ body ++ trail

/-- A marker spells its own words. -/
theorem spells_words
    {marker : Text}
    (h : Text.words marker ≠ []) :
    Spells (Text.words marker) marker :=
  ⟨markerWords_words h, (Text.exists_spacedWords marker).2 h⟩

/-- A test holds somewhere in a text if it holds where the text can be split. -/
theorem holdsSomewhere_iff
    {test : Option Char → Text → Bool}
    {before : Option Char}
    {t : Text} :
    holdsSomewhere test before t = true ↔
      ∃ first rest, t = first ++ rest ∧ test (first.getLast?.or before) rest = true := by
  rw [holdsSomewhere_eq_findAll]
  constructor
  · intro h
    obtain ⟨⟨⟩, hfound⟩ := List.exists_mem_of_ne_nil _ (by simpa using h)
    obtain ⟨first, rest, rfl, htest⟩ := mem_findAll_iff.mp hfound
    exact ⟨first, rest, rfl, by simpa using htest⟩
  · rintro ⟨first, rest, rfl, htest⟩
    have hfound : () ∈ findAll (fun b s => if test b s then some () else none) before
        (first ++ rest) := mem_findAll_iff.mpr ⟨first, rest, rfl, if_pos htest⟩
    simpa using List.ne_nil_of_mem hfound

/-- Words with blanks between them do not begin with a blank. -/
theorem exists_head_of_spacedWords
    {words : List Text}
    (hwords : MarkerWords words)
    {t : Text}
    (h : SpacedWords words t) :
    ∃ c tail, t = c :: tail ∧ Text.isBlank c = false := by
  cases h with
  | last word =>
      obtain ⟨c, tail, rfl⟩ := List.exists_cons_of_ne_nil (hwords.word_ne_nil _ List.mem_cons_self)
      exact ⟨c, tail, rfl, hwords.plain _ List.mem_cons_self c List.mem_cons_self⟩
  | @more word gap t words _ _ _ =>
      obtain ⟨c, tail, rfl⟩ := List.exists_cons_of_ne_nil (hwords.word_ne_nil _ List.mem_cons_self)
      exact ⟨c, tail ++ gap ++ t, rfl, hwords.plain _ List.mem_cons_self c List.mem_cons_self⟩

/-- Blanks that are passed are there, at least one. -/
theorem exists_of_afterBlanks?
    {t rest : Text}
    (h : afterBlanks? t = some rest) :
    ∃ gap, AllBlank gap ∧ gap ≠ [] ∧ t = gap ++ rest := by
  cases t with
  | nil => cases h
  | cons c t =>
      rw [afterBlanks?] at h
      split_ifs at h with hc
      cases h
      refine ⟨c :: t.takeWhile Text.isBlank,
        Text.allBlank_cons hc (Text.allBlank_takeWhile t), by simp, ?_⟩
      rw [List.cons_append]
      exact congrArg (c :: ·) List.takeWhile_append_dropWhile.symm

theorem afterBlanks?_append
    {gap : Text}
    (hgap : AllBlank gap)
    (hne : gap ≠ [])
    {c : Char}
    (hc : Text.isBlank c = false)
    (t : Text) :
    afterBlanks? (gap ++ c :: t) = some (c :: t) := by
  obtain ⟨d, gap, rfl⟩ := List.exists_cons_of_ne_nil hne
  have hd : Text.isBlank d = true := hgap d List.mem_cons_self
  have hstop : Text.trimLeft (c :: t) = c :: t := List.dropWhile_cons_of_neg (by simp [hc])
  rw [List.cons_append, afterBlanks?, if_pos hd, hgap.tail.trimLeft_append, hstop]

/-- The words of a marker stand at the front of a text, whatever blanks are between them. -/
theorem afterWords?_eq_some_iff
    {words : List Text}
    (hwords : MarkerWords words)
    {t rest : Text} :
    afterWords? words t = some rest ↔ ∃ body, SpacedWords words body ∧ t = body ++ rest := by
  induction words generalizing t with
  | nil => exact absurd rfl hwords.ne_nil
  | cons word words ih =>
      cases words with
      | nil =>
          rw [afterWords?, Text.after?_eq_some_iff]
          constructor
          · intro ht
            exact ⟨word, .last word, ht⟩
          · rintro ⟨body, hbody, ht⟩
            cases hbody with
            | last => exact ht
            | more _ _ hnone => cases hnone
      | cons next words =>
          simp only [afterWords?, Option.bind_eq_bind, Option.bind_eq_some_iff,
            Text.after?_eq_some_iff, ih hwords.tail]
          constructor
          · rintro ⟨_, rfl, after, hafter, body, hbody, rfl⟩
            obtain ⟨gap, hgap, hne, rfl⟩ := exists_of_afterBlanks? hafter
            exact ⟨word ++ gap ++ body, .more hgap hne hbody, by simp⟩
          · rintro ⟨_, hspaced, rfl⟩
            cases hspaced with
            | @more _ gap body _ hgap hne hbody =>
                obtain ⟨c, tail, rfl, hc⟩ := exists_head_of_spacedWords hwords.tail hbody
                refine ⟨gap ++ c :: (tail ++ rest), by simp, c :: (tail ++ rest), ?_,
                  c :: tail, hbody, rfl⟩
                exact afterBlanks?_append hgap hne hc (tail ++ rest)

theorem markerMayBegin_iff
    {before : Option Char} :
    markerMayBegin before = true ↔ ∀ c, before = some c → Text.isLetter c = false := by
  cases before <;> simp [markerMayBegin]

theorem markerMayEnd_iff
    {t : Text} :
    markerMayEnd t = true ↔ ∀ c, t.head? = some c → Text.isDecimal c = false ∧ c ≠ '.' := by
  cases t <;> simp [markerMayEnd]

/-- The words of a marker stand here if nothing stands too close before and after them. -/
theorem markerAt_iff
    {words : List Text}
    (hwords : MarkerWords words)
    {before : Option Char}
    {t : Text} :
    markerAt words before t = true ↔ markerMayBegin before = true ∧
      ∃ body after, SpacedWords words body ∧ t = body ++ after ∧ markerMayEnd after = true := by
  rw [markerAt, Bool.and_eq_true]
  refine and_congr_right fun _ => ?_
  cases hafter : afterWords? words t with
  | none =>
      refine ⟨fun h => (by cases h), ?_⟩
      rintro ⟨body, after, hbody, ht, _⟩
      cases hafter.symm.trans ((afterWords?_eq_some_iff hwords).mpr ⟨body, hbody, ht⟩)
  | some after =>
      constructor
      · intro hend
        obtain ⟨body, hbody, ht⟩ := (afterWords?_eq_some_iff hwords).mp hafter
        exact ⟨body, after, hbody, ht, hend⟩
      · rintro ⟨body, after', hbody, ht, hend⟩
        cases hafter.symm.trans ((afterWords?_eq_some_iff hwords).mpr ⟨body, hbody, ht⟩)
        exact hend

/-- A line holds a marker exactly if the words of the marker stand in it, literally and with blanks
between each two, no letter right before them and neither a digit nor a point right after them. -/
theorem holdsMarker_iff_stands
    (line marker : Text)
    (hmarker : Text.words marker ≠ []) :
    Spells (Text.words marker) marker ∧
      (holdsMarker line marker = true ↔
        ∃ before body after, line = before ++ body ++ after ∧
          SpacedWords (Text.words marker) body ∧
          (∀ c, before.getLast? = some c → Text.isLetter c = false) ∧
          ∀ c, after.head? = some c → Text.isDecimal c = false ∧ c ≠ '.') := by
  refine ⟨spells_words hmarker, ?_⟩
  simp only [holdsMarker, holdsSomewhere_iff, markerAt_iff (markerWords_words hmarker),
    Option.or_none, markerMayBegin_iff, markerMayEnd_iff]
  constructor
  · rintro ⟨before, _, rfl, hbegin, body, after, hbody, rfl, hend⟩
    exact ⟨before, body, after, by simp, hbody, hbegin, hend⟩
  · rintro ⟨before, body, after, rfl, hbody, hbegin, hend⟩
    exact ⟨before, body ++ after, by simp, hbegin, body, after, hbody, rfl, hend⟩

/-- Of three occurrences the first follows a letter, and the second, which overlaps it, goes on with
a digit.  The last one counts. -/
theorem holdsMarker_after_rejected :
    Text.words " M1.  M1.".toList = ["M1.".toList, "M1.".toList] ∧
      holdsMarker "XM1. M1. M1.5 M1.\tM1.;".toList " M1.  M1.".toList = true := by
  have hwords : Text.words " M1.  M1.".toList = ["M1.".toList, "M1.".toList] := by decide +kernel
  have hbegin : ∀ c, "XM1. M1. M1.5 ".toList.getLast? = some c → Text.isLetter c = false := by
    rintro c ⟨⟩
    decide
  have hend : ∀ c, [';'].head? = some c → Text.isDecimal c = false ∧ c ≠ '.' := by
    rintro c ⟨⟩
    decide
  have hgap : AllBlank ['\t'] := by decide
  refine ⟨hwords, (holdsMarker_iff_stands _ _ (by rw [hwords]; simp)).2.mpr ?_⟩
  rw [hwords]
  exact ⟨"XM1. M1. M1.5 ".toList, "M1.\tM1.".toList, [';'], by decide +kernel,
    .more hgap (by simp) (.last _), hbegin, hend⟩

end Block
end DualTurret
