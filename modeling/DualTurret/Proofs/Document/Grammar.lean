import DualTurret.Proofs.Document.Numbers
import DualTurret.Proofs.Document.Quoting

/-!
# The grammar of documents

What a document may look like, apart from how it is read: which texts spell a value, and which
value they spell.  A numeral is a whole part without needless zeros, with or without digits after
a point and a power of ten.  Quotes hold plain characters and escapes.  Lists and objects hold
parts with commas between them and spacing around them, nested to a given depth.  A text leaves
that depth if everything up to one bracket too many is as it should be; what comes after it does
not matter.

The numerals, words and quoted texts of the grammar are those that the reader takes.

Main facts:
* `Document.Spells` and `Document.Overdeep`: the values to a given depth, and the texts that
  leave it;
* `Document.Quoted.readQuoted_append` and `Document.exists_of_readQuoted`: quoted texts;
* `Document.Numeral.readAtom_append`, `Document.readAtom_named` and `Document.exists_of_readAtom`:
  numbers and words.
-/

namespace DualTurret
namespace Document

/-! ## What spells what -/

def Spacing (t : Text) : Prop :=
  ∀ c ∈ t, isSpacing c = true

/-- A character or an escape in quotes, and the code point that it stands for. -/
inductive UnitSpelling : Text → CodePoint → Prop
  | plain {c : Char} (hcontrol : 0x20 ≤ c.toNat) (hquote : c ≠ '"') (hslash : c ≠ '\\') :
      UnitSpelling [c] (CodePoint.ofChar c)
  | short {c : Char} {p : CodePoint} (h : shortEscape? c = some p) : UnitSpelling ['\\', c] p
  | digits {a b c d : Char} {p : CodePoint} (h : unit? a b c d = some p) :
      UnitSpelling ['\\', 'u', a, b, c, d] p

/-- What stands between two quotes, and its code points one by one. -/
inductive UnitsSpelling : Text → DocText → Prop
  | nil : UnitsSpelling [] []
  | cons {t rest : Text} {p : CodePoint} {units : DocText} (ht : UnitSpelling t p)
      (hrest : UnitsSpelling rest units) : UnitsSpelling (t ++ rest) (p :: units)

/-- A text in its quotes.  The halves of a surrogate pair spell one code point. -/
inductive Quoted : Text → DocText → Prop
  | mk {body : Text} {units : DocText} (h : UnitsSpelling body units) :
      Quoted ('"' :: (body ++ ['"'])) (joinPairs units)

inductive SignedDigits : Text → Int → Prop
  | bare {digits : Text} (hplain : Plain digits) (hnonempty : digits ≠ []) :
      SignedDigits digits (numeralValue digits)
  | plus {digits : Text} (hplain : Plain digits) (hnonempty : digits ≠ []) :
      SignedDigits ('+' :: digits) (numeralValue digits)
  | minus {digits : Text} (hplain : Plain digits) (hnonempty : digits ≠ []) :
      SignedDigits ('-' :: digits) (-numeralValue digits)

/-- A power of ten, in small or capital letter. -/
inductive PowerSpelling : Text → Int → Prop
  | mk {mark : Char} {t : Text} {power : Int} (hmark : mark = 'e' ∨ mark = 'E')
      (h : SignedDigits t power) : PowerSpelling (mark :: t) power

/-- A numeral: a whole number that is not too long, or a floating-point number. -/
inductive Numeral : Text → Number → Prop
  | whole (negative : Bool) {digits : Text} (hwhole : WholePart digits)
      (hlength : digits.length ≤ maxWholeDigits) :
      Numeral (signed negative digits)
        (.whole (if negative then -(numeralValue digits : Int) else numeralValue digits))
  | point (negative : Bool) {whole fraction : Text} (hwhole : WholePart whole)
      (hfraction : Plain fraction) (hnonempty : fraction ≠ []) :
      Numeral (signed negative (whole ++ '.' :: fraction))
        (.real (Binary64.ofDecimal negative (plainDigits (whole ++ fraction)) (-fraction.length)))
  | power (negative : Bool) {whole fraction t : Text} {power : Int} (hwhole : WholePart whole)
      (hfraction : Plain fraction) (hpower : PowerSpelling t power) :
      Numeral (signed negative (whole ++ (pointPart fraction ++ t)))
        (.real (Binary64.ofDecimal negative (plainDigits (whole ++ fraction))
          (power - fraction.length)))

/-- Values without parts. -/
inductive Simple : Text → Value → Prop
  | named {t : Text} {v : Value} (h : (t, v) ∈ namedValues) : Simple t v
  | number {t : Text} {x : Number} (h : Numeral t x) : Simple t (.number x)
  | quoted {t : Text} {content : DocText} (h : Quoted t content) : Simple t (.text content)

section

variable {α : Type} (Item : Text → α → Prop)

/-- Parts with commas between them and spacing around them; there is at least one. -/
inductive Sequence : Text → List α → Prop
  | last {before body after : Text} {a : α} (hbefore : Spacing before) (hbody : Item body a)
      (hafter : Spacing after) : Sequence (before ++ (body ++ after)) [a]
  | more {before body after rest : Text} {a : α} {as : List α} (hbefore : Spacing before)
      (hbody : Item body a) (hafter : Spacing after) (hrest : Sequence rest as) :
      Sequence (before ++ (body ++ (after ++ ',' :: rest))) (a :: as)

/-- Parts in brackets, or nothing but spacing in them. -/
inductive Enclosed
    (opening closing : Char) :
    Text → List α → Prop
  | empty {gap : Text} (hgap : Spacing gap) :
      Enclosed opening closing (opening :: (gap ++ [closing])) []
  | parts {body : Text} {as : List α} (h : Sequence Item body as) :
      Enclosed opening closing (opening :: (body ++ [closing])) as

/-- Parts and commas up to a place from which on there is a text of another kind. -/
inductive Interrupted
    (Stop : Text → Prop) :
    Text → Prop
  | here {gap t : Text} (hgap : Spacing gap) (ht : Stop t) : Interrupted Stop (gap ++ t)
  | later {before body after rest : Text} {a : α} (hbefore : Spacing before)
      (hbody : Item body a) (hafter : Spacing after) (hrest : Interrupted Stop rest) :
      Interrupted Stop (before ++ (body ++ (after ++ ',' :: rest)))

end

inductive Field
    (Item : Text → Value → Prop) :
    Text → DocText × Value → Prop
  | mk {key before after body : Text} {name : DocText} {v : Value} (hkey : Quoted key name)
      (hbefore : Spacing before) (hafter : Spacing after) (hbody : Item body v) :
      Field Item (key ++ (before ++ ':' :: (after ++ body))) (name, v)

/-- A key, a colon and a text of another kind. -/
inductive AfterKey
    (Stop : Text → Prop) :
    Text → Prop
  | mk {key before after t : Text} {name : DocText} (hkey : Quoted key name)
      (hbefore : Spacing before) (hafter : Spacing after) (ht : Stop t) :
      AfterKey Stop (key ++ (before ++ ':' :: (after ++ t)))

/-- A text spells a value in which lists and objects nest to the depth given. -/
def Spells : Nat → Text → Value → Prop
  | 0, t, v => Simple t v
  | depth + 1, t, v =>
      Simple t v ∨
      (∃ items, Enclosed (Spells depth) '[' ']' t items ∧ v = .list items) ∨
      ∃ given, Enclosed (Field (Spells depth)) '\x7b' '\x7d' t given ∧ v = Value.ofFields given

/-- A text leaves the depth given: all is well up to a bracket beyond it. -/
def Overdeep : Nat → Text → Prop
  | 0, t => ∃ rest, t = '[' :: rest ∨ t = '\x7b' :: rest
  | depth + 1, t =>
      (∃ rest, t = '[' :: rest ∧ Interrupted (Spells depth) (Overdeep depth) rest) ∨
      ∃ rest, t = '\x7b' :: rest ∧
        Interrupted (Field (Spells depth)) (AfterKey (Overdeep depth)) rest

/-- The document spells this value, within the depth given. -/
def Holds (depth : Nat) (t : Text) (v : Value) : Prop :=
  ∃ before body after, t = before ++ (body ++ after) ∧ Spacing before ∧ Spacing after ∧
    Spells depth body v

/-- The document spells an object, and its fields are given in this order.  They have one
level less than the document. -/
def HoldsObject (depth : Nat) (t : Text) (given : List (DocText × Value)) : Prop :=
  ∃ inner before body after, depth = inner + 1 ∧ t = before ++ (body ++ after) ∧
    Spacing before ∧ Spacing after ∧ Enclosed (Field (Spells inner)) '\x7b' '\x7d' body given

/-- The document leaves the depth given. -/
def NestsTooDeep (depth : Nat) (t : Text) : Prop :=
  ∃ gap u, t = gap ++ u ∧ Spacing gap ∧ Overdeep depth u

/-! ## Spacing -/

/-- In front of its first part, a text holds nothing but spacing. -/
theorem exists_spacing (t : Text) : ∃ gap, Spacing gap ∧ t = gap ++ skipSpacing t :=
  ⟨t.takeWhile isSpacing, fun _ hc => List.mem_takeWhile_imp hc,
    (List.takeWhile_append_dropWhile).symm⟩

theorem Spacing.nil : Spacing [] := by
  intro c hc
  cases hc

theorem Spacing.append {t u : Text} (ht : Spacing t) (hu : Spacing u) : Spacing (t ++ u) := by
  intro c hc
  rcases List.mem_append.mp hc with hc | hc
  · exact ht c hc
  · exact hu c hc

theorem Spacing.skipSpacing_append
    {gap : Text}
    (hgap : Spacing gap)
    (t : Text) :
    skipSpacing (gap ++ t) = skipSpacing t :=
  List.dropWhile_append_of_pos hgap

theorem Spacing.numberEnds_append
    {gap t : Text}
    (hgap : Spacing gap)
    (ht : NumberEnds t) :
    NumberEnds (gap ++ t) := by
  cases gap with
  | nil => exact ht
  | cons c gap =>
      have hc := hgap c List.mem_cons_self
      simp only [isSpacing, Bool.or_eq_true, beq_iff_eq] at hc
      rintro d ⟨⟩
      rcases hc with ((rfl | rfl) | rfl) | rfl
      all_goals decide

/-! ## Quoted texts -/

theorem readUnits_digits
    {a b c d : Char}
    {p : CodePoint}
    (h : unit? a b c d = some p)
    (t : Text) :
    readUnits ('\\' :: 'u' :: a :: b :: c :: d :: t) = (readUnits t).map (behind [p]) := by
  rw [readUnits]
  simp only [h]
  cases readUnits t <;> rfl

/-- What is spelled between quotes is read. -/
theorem UnitsSpelling.readUnits_append
    {body : Text}
    {units : DocText}
    (h : UnitsSpelling body units)
    (rest : Text) :
    readUnits (body ++ '"' :: rest) = some (units, rest) := by
  induction h with
  | nil => rfl
  | cons ht hrest ih =>
      cases ht with
      | plain hcontrol hquote hslash =>
          rw [List.append_assoc, List.singleton_append, readUnits_plain hcontrol hquote hslash, ih]
          rfl
      | short h =>
          rw [List.append_assoc, List.cons_append, List.singleton_append, readUnits_shortEscape h,
            ih]
          rfl
      | digits h =>
          simp only [List.cons_append, List.nil_append]
          rw [readUnits_digits h, ih]
          rfl

/-- What is read between quotes is spelled there. -/
theorem exists_of_readUnits
    {t rest : Text}
    {units : DocText}
    (h : readUnits t = some (units, rest)) :
    ∃ body, t = body ++ '"' :: rest ∧ UnitsSpelling body units := by
  fun_induction readUnits t generalizing units with
  | case1 => cases h
  | case2 t =>
      obtain ⟨rfl, rfl⟩ := Prod.mk.inj (Option.some.inj h)
      exact ⟨[], rfl, .nil⟩
  | case3 a b c d t ih =>
      obtain ⟨p, hp, h⟩ := Option.bind_eq_some_iff.mp h
      obtain ⟨⟨us, _⟩, hus, h⟩ := Option.bind_eq_some_iff.mp h
      obtain ⟨rfl, rfl⟩ := Prod.mk.inj (Option.some.inj h)
      obtain ⟨body, rfl, hbody⟩ := ih hus
      exact ⟨_, rfl, .cons (.digits hp) hbody⟩
  | case4 c t hdigits ih =>
      obtain ⟨p, hp, h⟩ := Option.bind_eq_some_iff.mp h
      obtain ⟨⟨us, _⟩, hus, h⟩ := Option.bind_eq_some_iff.mp h
      obtain ⟨rfl, rfl⟩ := Prod.mk.inj (Option.some.inj h)
      obtain ⟨body, rfl, hbody⟩ := ih hus
      exact ⟨_, rfl, .cons (.short hp) hbody⟩
  | case5 c t hquote _ hshort hplain => cases h
  | case6 c t hquote _ hshort hplain ih =>
      obtain ⟨⟨us, _⟩, hus, h⟩ := Option.bind_eq_some_iff.mp h
      obtain ⟨rfl, rfl⟩ := Prod.mk.inj (Option.some.inj h)
      obtain ⟨body, rfl, hbody⟩ := ih hus
      rw [Bool.or_eq_true, not_or, decide_eq_true_eq, Nat.not_lt, beq_iff_eq] at hplain
      exact ⟨_, rfl, .cons (.plain hplain.1 hquote hplain.2) hbody⟩

/-- A quoted text is read. -/
theorem Quoted.readQuoted_append
    {t : Text}
    {content : DocText}
    (h : Quoted t content)
    (rest : Text) :
    ∃ u, t ++ rest = '"' :: u ∧ readQuoted u = some (content, rest) := by
  obtain ⟨hunits⟩ := h
  refine ⟨_, List.cons_append, ?_⟩
  rw [readQuoted, List.append_assoc, List.singleton_append, hunits.readUnits_append]
  rfl

/-- What is read as quoted is so. -/
theorem exists_of_readQuoted
    {t rest : Text}
    {content : DocText}
    (h : readQuoted t = some (content, rest)) :
    ∃ u, '"' :: t = u ++ rest ∧ Quoted u content := by
  obtain ⟨⟨units, rest⟩, hunits, hjoin⟩ := Option.map_eq_some_iff.mp h
  obtain ⟨rfl, rfl⟩ := Prod.mk.inj hjoin
  obtain ⟨body, rfl, hbody⟩ := exists_of_readUnits hunits
  exact ⟨_, by simp, .mk hbody⟩

/-! ## Numerals -/

theorem plain_of_digitRun
    {t digits rest : Text}
    (h : digitRun t = (digits, rest)) :
    Plain digits ∧ t = digits ++ rest := by
  obtain ⟨rfl, rfl⟩ := Prod.mk.inj h
  exact ⟨fun _ hc => List.mem_takeWhile_imp hc, List.takeWhile_append_dropWhile.symm⟩

theorem plain_of_fraction?
    {t fraction rest : Text}
    (h : (fraction? t).getD ([], t) = (fraction, rest)) :
    Plain fraction ∧ t = pointPart fraction ++ rest := by
  have hnone : (([], t) : Text × Text) = (fraction, rest) →
      Plain fraction ∧ t = pointPart fraction ++ rest := by
    intro h
    obtain ⟨rfl, rfl⟩ := Prod.mk.inj h
    exact ⟨plain_zeros 0, rfl⟩
  fun_cases fraction? t with
  | case1 u digits rest' hrun hempty =>
      rw [fraction?, hrun] at h
      exact hnone (by simpa [hempty] using h)
  | case2 u digits rest' hrun hempty =>
      obtain ⟨hplain, rfl⟩ := plain_of_digitRun hrun
      rw [fraction?, hrun] at h
      obtain ⟨rfl, rfl⟩ : digits = fraction ∧ rest' = rest := by simpa [hempty] using h
      exact ⟨hplain, by rw [pointPart, if_neg hempty, List.cons_append]⟩
  | case3 u hpoint =>
      rw [fraction?.eq_2 t hpoint] at h
      exact hnone h

/-- A power of ten is read. -/
theorem PowerSpelling.exponent?_append
    {t : Text}
    {power : Int}
    (h : PowerSpelling t power)
    {rest : Text}
    (hrest : DigitsEnd rest) :
    exponent? (t ++ rest) = some (power, rest) := by
  obtain ⟨hmark, hdigits⟩ := h
  rename_i mark t
  have hmark : (mark == 'e' || mark == 'E') = true := by simpa using hmark
  cases hdigits with
  | bare hplain hnonempty =>
      obtain ⟨c, digits, rfl⟩ := List.exists_cons_of_ne_nil hnonempty
      have hc := hplain c List.mem_cons_self
      have hrun := digitRun_append hplain hrest
      rw [List.cons_append] at hrun
      simp [exponent?, hmark, ne_of_isPlainDigit hc (d := '-') rfl,
        ne_of_isPlainDigit hc (d := '+') rfl, hrun, numeralValue]
  | plus hplain hnonempty =>
      simp [exponent?, hmark, digitRun_append hplain hrest, hnonempty, numeralValue]
  | minus hplain hnonempty =>
      simp [exponent?, hmark, digitRun_append hplain hrest, hnonempty, numeralValue]

/-- What is read as a power of ten is one. -/
theorem exists_of_exponent?
    {t rest : Text}
    {power : Int}
    (h : exponent? t = some (power, rest)) :
    ∃ u, t = u ++ rest ∧ PowerSpelling u power := by
  unfold exponent? at h
  split at h
  · rename_i mark t
    split_ifs at h with hmark
    have hmark : mark = 'e' ∨ mark = 'E' := by simpa using hmark
    split at h
    rename_i negative u hsign
    rcases hrun : digitRun u with ⟨digits, rest'⟩
    obtain ⟨hplain, rfl⟩ := plain_of_digitRun hrun
    rw [hrun] at h
    dsimp only at h
    by_cases hempty : digits.isEmpty
    · rw [if_pos hempty] at h
      cases h
    rw [if_neg hempty] at h
    have hnonempty : digits ≠ [] := by simpa using hempty
    obtain ⟨rfl, rfl⟩ := Prod.mk.inj (Option.some.inj h)
    split at hsign
    all_goals obtain ⟨rfl, rfl⟩ := Prod.mk.inj hsign
    · exact ⟨mark :: '-' :: digits, rfl, .mk hmark (.minus hplain hnonempty)⟩
    · exact ⟨mark :: '+' :: digits, rfl, .mk hmark (.plus hplain hnonempty)⟩
    · exact ⟨mark :: digits, rfl, .mk hmark (.bare hplain hnonempty)⟩
  · cases h

/-- A number with a power of ten, however that is spelled. -/
theorem PowerSpelling.finishNumber_append
    {t : Text}
    {power : Int}
    (h : PowerSpelling t power)
    (negative : Bool)
    (whole : Text)
    {fraction rest : Text}
    (hfraction : Plain fraction)
    (hrest : DigitsEnd rest) :
    finishNumber negative whole (pointPart fraction ++ (t ++ rest)) =
      some (.real (Binary64.ofDecimal negative (plainDigits (whole ++ fraction))
        (power - fraction.length)), rest) := by
  have hexponent := h.exponent?_append hrest
  have hpoint : (fraction? (pointPart fraction ++ (t ++ rest))).getD
      ([], pointPart fraction ++ (t ++ rest)) = (fraction, t ++ rest) := by
    obtain ⟨rfl | rfl, _⟩ := h
    all_goals exact fraction?_pointPart hfraction (by rintro _ ⟨⟩; rfl) (by rintro _ ⟨⟩; decide)
  simp [finishNumber, hpoint, hexponent]

theorem digitsEnd_pointPart_append
    {fraction t : Text}
    (ht : DigitsEnd t) :
    DigitsEnd (pointPart fraction ++ t) := by
  unfold pointPart
  split_ifs
  · exact ht
  · rintro _ ⟨⟩
    rfl

/-- A numeral is read, if nothing that continues it follows. -/
theorem Numeral.readAtom_append
    {t : Text}
    {x : Number}
    (h : Numeral t x)
    {rest : Text}
    (hrest : NumberEnds rest) :
    readAtom (t ++ rest) = some (.number x, rest) := by
  cases h with
  | whole negative hwhole hlength =>
      rw [signed_append]
      apply readAtom_of_readMagnitude
      rw [readMagnitude_append negative hwhole hrest.digitsEnd,
        finishNumber_whole negative hlength hrest]
  | point negative hwhole hfraction hnonempty =>
      rw [signed_append, ofDecimal_plainDigits negative (hwhole.plain.append hfraction)]
      apply readAtom_of_readMagnitude
      rw [List.append_assoc, readMagnitude_append negative hwhole (by rintro _ ⟨⟩; rfl),
        List.cons_append, finishNumber_fraction negative hwhole.plain hfraction hnonempty hrest]
  | @power _ whole fraction t power hwhole hfraction hpower =>
      have hdigits : DigitsEnd (t ++ rest) := by
        obtain ⟨rfl | rfl, _⟩ := hpower
        all_goals
          rintro _ ⟨⟩
          rfl
      rw [signed_append]
      apply readAtom_of_readMagnitude
      rw [List.append_assoc, List.append_assoc,
        readMagnitude_append _ hwhole (digitsEnd_pointPart_append hdigits),
        hpower.finishNumber_append _ whole hfraction hrest.digitsEnd]

theorem exists_of_finishNumber
    {negative : Bool}
    {whole t rest : Text}
    {x : Number}
    (hwhole : WholePart whole)
    (h : finishNumber negative whole t = some (x, rest)) :
    ∃ u, t = u ++ rest ∧ Numeral (signed negative (whole ++ u)) x := by
  unfold finishNumber at h
  split at h
  rename_i fraction t' hfraction
  obtain ⟨hplain, rfl⟩ := plain_of_fraction? hfraction
  cases hexponent : exponent? t' with
  | some found =>
      obtain ⟨power, rest'⟩ := found
      obtain ⟨u, rfl, hpower⟩ := exists_of_exponent? hexponent
      simp only [hexponent, Option.isNone_some, Bool.and_false, Bool.false_eq_true, if_false,
        Option.getD_some, Option.some.injEq, Prod.mk.injEq] at h
      obtain ⟨rfl, rfl⟩ := h
      exact ⟨_, (List.append_assoc _ _ _).symm, .power negative hwhole hplain hpower⟩
  | none =>
      simp only [hexponent, Option.isNone_none, Bool.and_true, Option.getD_none] at h
      by_cases hempty : fraction.isEmpty
      · rw [if_pos hempty] at h
        by_cases hlong : maxWholeDigits < whole.length
        · rw [if_pos hlong] at h
          cases h
        rw [if_neg hlong] at h
        obtain ⟨rfl, rfl⟩ := Prod.mk.inj (Option.some.inj h)
        rw [List.isEmpty_iff] at hempty
        subst hempty
        refine ⟨[], rfl, ?_⟩
        rw [List.append_nil]
        exact .whole negative hwhole (Nat.not_lt.mp hlong)
      · rw [if_neg hempty] at h
        obtain ⟨rfl, rfl⟩ := Prod.mk.inj (Option.some.inj h)
        refine ⟨pointPart fraction, rfl, ?_⟩
        rw [pointPart, if_neg hempty, Int.zero_sub]
        exact .point negative hwhole hplain (by simpa using hempty)

theorem exists_of_readMagnitude
    {negative : Bool}
    {t rest : Text}
    {x : Number}
    (h : readMagnitude negative t = some (x, rest)) :
    ∃ u, t = u ++ rest ∧ Numeral (signed negative u) x := by
  unfold readMagnitude at h
  split at h
  · rename_i t
    obtain ⟨u, rfl, hu⟩ := exists_of_finishNumber wholePart_zero h
    exact ⟨'0' :: u, rfl, hu⟩
  · rename_i hzero
    rcases hrun : digitRun t with ⟨whole, t'⟩
    rw [hrun] at h
    obtain ⟨hplain, rfl⟩ := plain_of_digitRun hrun
    dsimp only at h
    split_ifs at h with hempty
    have hwhole : WholePart whole := by
      refine ⟨hplain, by simpa using hempty, ?_⟩
      rintro more rfl
      exact absurd rfl (hzero (more ++ t'))
    obtain ⟨u, rfl, hu⟩ := exists_of_finishNumber hwhole h
    exact ⟨whole ++ u, (List.append_assoc _ _ _).symm, hu⟩

/-- What is read as a number is a numeral. -/
theorem exists_of_readNumber
    {t rest : Text}
    {x : Number}
    (h : readNumber t = some (x, rest)) :
    ∃ u, t = u ++ rest ∧ Numeral u x := by
  unfold readNumber at h
  split at h
  · obtain ⟨u, rfl, hu⟩ := exists_of_readMagnitude h
    exact ⟨'-' :: u, rfl, hu⟩
  · obtain ⟨u, rfl, hu⟩ := exists_of_readMagnitude h
    exact ⟨u, rfl, hu⟩

/-! ## Values without parts -/

/-- What is read as a value without parts is one. -/
theorem exists_of_readAtom
    {t rest : Text}
    {v : Value}
    (h : readAtom t = some (v, rest)) :
    ∃ u, t = u ++ rest ∧ Simple u v := by
  unfold readAtom at h
  split at h
  · rename_i found hfound
    cases Option.some.inj h
    obtain ⟨⟨name, v⟩, hmem, hafter⟩ := List.exists_of_findSome?_eq_some hfound
    obtain ⟨_, hname, heq⟩ := Option.map_eq_some_iff.mp hafter
    obtain ⟨rfl, rfl⟩ := Prod.mk.inj heq
    exact ⟨name, Text.after?_eq_some_iff.mp hname, .named hmem⟩
  · obtain ⟨⟨x, _⟩, hnumber, heq⟩ := Option.map_eq_some_iff.mp h
    obtain ⟨rfl, rfl⟩ := Prod.mk.inj heq
    obtain ⟨u, rfl, hu⟩ := exists_of_readNumber hnumber
    exact ⟨u, rfl, .number hu⟩

theorem readAtom_named
    {t : Text}
    {v : Value}
    (h : (t, v) ∈ namedValues)
    (rest : Text) :
    readAtom (t ++ rest) = some (v, rest) := by
  simp only [namedValues, List.mem_cons, Prod.mk.injEq, List.not_mem_nil, or_false] at h
  rcases h with ⟨rfl, rfl⟩ | ⟨rfl, rfl⟩ | ⟨rfl, rfl⟩ | ⟨rfl, rfl⟩ | ⟨rfl, rfl⟩ | ⟨rfl, rfl⟩
  all_goals rfl

end Document
end DualTurret
