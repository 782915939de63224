import DualTurret.Proofs.Document.Parts

/-!
# The reader and the grammar

A value begins with a bracket or it has no parts.  The reader of values of one depth reads what
the grammar spells at that depth, so by induction on the depth a whole document is read as a
value exactly if it spells it.

Main facts:
* `Document.reads_readValue`: the reader of values reads the values of the grammar;
* `Document.read_eq_ok_iff`: a document is read as a value exactly if it spells that value;
* `Document.read_eq_tooDeep_iff`: the documents that nest too deep.
-/

namespace DualTurret
namespace Document

/-! ## Values without parts -/

/-- The characters with which a value without parts begins. -/
def startsSimple (c : Char) : Bool :=
  ['"', '-', 'n', 't', 'f', 'N', 'I'].contains c || isPlainDigit c

theorem ne_of_startsSimple
    {c d : Char}
    (hc : startsSimple c = true)
    (hd : startsSimple d = false) :
    c ≠ d := by
  rintro rfl
  rw [hd] at hc
  cases hc

theorem WholePart.startsSimple_signed
    {whole : Text}
    (h : WholePart whole)
    (negative : Bool)
    (t : Text) :
    ∃ c rest, signed negative (whole ++ t) = c :: rest ∧ startsSimple c = true := by
  cases negative with
  | true => exact ⟨'-', whole ++ t, rfl, rfl⟩
  | false =>
      obtain ⟨c, digits, rfl⟩ := List.exists_cons_of_ne_nil h.nonempty
      exact ⟨c, digits ++ t, rfl, by simp [startsSimple, h.plain c List.mem_cons_self]⟩

theorem Simple.exists_head
    {t : Text}
    {v : Value}
    (h : Simple t v) :
    ∃ c rest, t = c :: rest ∧ startsSimple c = true := by
  cases h with
  | named h =>
      simp only [namedValues, List.mem_cons, Prod.mk.injEq, List.not_mem_nil, or_false] at h
      rcases h with ⟨rfl, _⟩ | ⟨rfl, _⟩ | ⟨rfl, _⟩ | ⟨rfl, _⟩ | ⟨rfl, _⟩ | ⟨rfl, _⟩
      all_goals exact ⟨_, _, rfl, rfl⟩
  | number h =>
      cases h with
      | whole negative hwhole hlength =>
          simpa only [List.append_nil] using hwhole.startsSimple_signed negative []
      | point negative hwhole hfraction hnonempty => exact hwhole.startsSimple_signed negative _
      | power negative hwhole hfraction hpower => exact hwhole.startsSimple_signed negative _
  | quoted h =>
      obtain ⟨_⟩ := h
      exact ⟨_, _, rfl, rfl⟩

theorem Simple.opens {t : Text} {v : Value} (h : Simple t v) : Opens t := by
  obtain ⟨c, rest, rfl, hc⟩ := h.exists_head
  have hne : ∀ d, startsSimple d = false → c ≠ d := fun d hd => ne_of_startsSimple hc hd
  refine ⟨c, rest, rfl, ?_, hne _ rfl, hne _ rfl⟩
  simp [isSpacing, hne ' ' rfl, hne '\t' rfl, hne '\n' rfl, hne '\r' rfl]

def readSimple : Text → Except ReadError (Value × Text)
  | '"' :: t => do
      let (content, rest) ← orMalformed (readQuoted t)
      return (.text content, rest)
  | t => orMalformed (readAtom t)

/-- Outside brackets a value has no parts. -/
theorem readValue_eq_readSimple
    (size depth : Nat)
    {t : Text}
    (ht : ∀ c ∈ t.head?, c ≠ '[' ∧ c ≠ '\x7b') :
    readValue size depth t = readSimple t := by
  cases t with
  | nil => cases depth <;> rfl
  | cons c t =>
      obtain ⟨hlist, hobject⟩ := ht c rfl
      by_cases hquote : c = '"'
      · subst hquote
        cases depth <;> rfl
      · rw [readValue_of_atom size depth hquote hlist hobject, readSimple]
        intro u hcons
        exact hquote (List.cons.inj hcons).1

theorem readSimple_of_readAtom
    {t : Text}
    {found : Value × Text}
    (h : readAtom t = some found) :
    readSimple t = .ok found := by
  unfold readSimple
  split
  · cases h
  · rw [h]
    rfl

/-- A value without parts is read. -/
theorem Simple.readSimple_append
    {t : Text}
    {v : Value}
    (h : Simple t v)
    {rest : Text}
    (hrest : NumberEnds rest) :
    readSimple (t ++ rest) = .ok (v, rest) := by
  cases h with
  | quoted h =>
      obtain ⟨u, hu, hread⟩ := h.readQuoted_append rest
      rw [hu, readSimple, hread]
      rfl
  | named h => exact readSimple_of_readAtom (readAtom_named h rest)
  | number h => exact readSimple_of_readAtom (h.readAtom_append hrest)

/-- What is read as a value without parts is one. -/
theorem exists_of_readSimple
    {t rest : Text}
    {v : Value}
    (h : readSimple t = .ok (v, rest)) :
    ∃ u, t = u ++ rest ∧ Simple u v := by
  unfold readSimple at h
  split at h
  · rename_i t
    cases hquoted : readQuoted t with
    | none =>
        rw [hquoted] at h
        cases h
    | some found =>
        obtain ⟨content, rest'⟩ := found
        rw [hquoted] at h
        obtain ⟨rfl, rfl⟩ := Prod.mk.inj (Except.ok.inj h)
        obtain ⟨u, hu, hcontent⟩ := exists_of_readQuoted hquoted
        exact ⟨u, hu, .quoted hcontent⟩
  · cases hatom : readAtom t with
    | none =>
        rw [hatom] at h
        cases h
    | some found =>
        rw [hatom] at h
        cases Except.ok.inj h
        exact exists_of_readAtom hatom

theorem orMalformed_ne_tooDeep
    {α : Type}
    (found : Option α) :
    orMalformed found ≠ .error .tooDeep := by
  cases found <;> exact nofun

/-- A value without parts is never too deep. -/
theorem readSimple_ne_tooDeep (t : Text) : readSimple t ≠ .error .tooDeep := by
  unfold readSimple
  split
  · rename_i t
    cases readQuoted t <;> exact nofun
  · exact orMalformed_ne_tooDeep _

/-! ## Values -/

/-- A list takes one level of depth. -/
theorem readValue_list
    (size depth : Nat)
    (t : Text) :
    readValue size (depth + 1) ('[' :: t) =
      (readEnclosed ']' (readValue size depth) size t).map
        fun found => (.list found.1, found.2) := by
  rw [readValue, readEnclosed]
  split
  · rename_i rest hclose
    rw [hclose, if_pos List.head?_cons]
    rfl
  · rename_i hopen
    rw [if_neg fun hclose => (List.head?_eq_some_iff.mp hclose).elim hopen, readItems_eq]
    cases readSequence ']' (readValue size depth) size (skipSpacing t) <;> rfl

/-- An object takes one level of depth. -/
theorem readValue_braces
    (size depth : Nat)
    (t : Text) :
    readValue size (depth + 1) ('\x7b' :: t) =
      (readEnclosed '\x7d' (readField (readValue size depth)) size t).map
        fun found => (Value.ofFields found.1, found.2) := by
  rw [readValue, readEnclosed]
  split
  · rename_i rest hclose
    rw [hclose, if_pos List.head?_cons]
    rfl
  · rename_i hopen
    rw [if_neg fun hclose => (List.head?_eq_some_iff.mp hclose).elim hopen, readFields_eq]
    cases readSequence '\x7d' (readField (readValue size depth)) size (skipSpacing t) <;> rfl

theorem Simple.readValue_append
    {t : Text}
    {v : Value}
    (h : Simple t v)
    (size depth : Nat)
    {rest : Text}
    (hrest : NumberEnds rest) :
    readValue size depth (t ++ rest) = .ok (v, rest) := by
  have hread := h.readSimple_append hrest
  obtain ⟨c, t, rfl, hc⟩ := h.exists_head
  rw [readValue_eq_readSimple size depth, hread]
  rintro d ⟨⟩
  exact ⟨ne_of_startsSimple hc rfl, ne_of_startsSimple hc rfl⟩

/-- A list, an object, or neither begins here. -/
theorem bracket_cases
    (t : Text) :
    (∃ u, t = '[' :: u) ∨ (∃ u, t = '\x7b' :: u) ∨ ∀ c ∈ t.head?, c ≠ '[' ∧ c ≠ '\x7b' := by
  cases t with
  | nil => exact .inr (.inr nofun)
  | cons c t =>
      by_cases hlist : c = '['
      · exact .inl ⟨t, by rw [hlist]⟩
      by_cases hobject : c = '\x7b'
      · exact .inr (.inl ⟨t, by rw [hobject]⟩)
      refine .inr (.inr ?_)
      rintro d ⟨⟩
      exact ⟨hlist, hobject⟩

theorem opens_list (t : Text) : Opens ('[' :: t) :=
  ⟨_, _, rfl, by decide⟩

theorem opens_braces (t : Text) : Opens ('\x7b' :: t) :=
  ⟨_, _, rfl, by decide⟩

theorem Enclosed.exists_cons
    {α : Type}
    {Item : Text → α → Prop}
    {opening closing : Char}
    {t : Text}
    {as : List α}
    (h : Enclosed Item opening closing t as) :
    ∃ u, t = opening :: u := by
  cases h with
  | empty => exact ⟨_, rfl⟩
  | parts => exact ⟨_, rfl⟩

/-- At depth zero only values without parts are read. -/
theorem reads_readValue_zero
    (size : Nat) :
    Reads size (readValue size 0) (Spells 0) (Overdeep 0) where
  exists_of_ok := by
    intro t rest v h
    rcases bracket_cases t with ⟨u, rfl⟩ | ⟨u, rfl⟩ | ht
    · cases h
    · cases h
    · rw [readValue_eq_readSimple size 0 ht] at h
      exact exists_of_readSimple h
  stop_of_tooDeep := by
    intro t h
    rcases bracket_cases t with ⟨u, rfl⟩ | ⟨u, rfl⟩ | ht
    · exact ⟨u, .inl rfl⟩
    · exact ⟨u, .inr rfl⟩
    · rw [readValue_eq_readSimple size 0 ht] at h
      exact absurd h (readSimple_ne_tooDeep t)
  ok_append := by
    intro t v h _ rest hrest
    exact Simple.readValue_append h size 0 hrest
  tooDeep_of_stop := by
    rintro t ⟨rest, rfl | rfl⟩ _
    · rfl
    · rfl
  opens := Simple.opens
  opens_of_stop := by
    rintro t ⟨rest, rfl | rfl⟩
    · exact opens_list rest
    · exact opens_braces rest

/-- One more level of depth lets one more level of brackets be read. -/
theorem Reads.readValue_succ
    {size depth : Nat}
    (hvalues : Reads size (readValue size depth) (Spells depth) (Overdeep depth)) :
    Reads size (readValue size (depth + 1)) (Spells (depth + 1)) (Overdeep (depth + 1)) where
  exists_of_ok := by
    intro t rest v h
    rcases bracket_cases t with ⟨u, rfl⟩ | ⟨u, rfl⟩ | ht
    · rw [readValue_list] at h
      obtain ⟨items, hitems, rfl⟩ := exists_of_map_eq_ok h
      obtain ⟨w, hw, hlist⟩ := hvalues.exists_of_readEnclosed '[' hitems
      exact ⟨w, hw, .inr (.inl ⟨items, hlist, rfl⟩)⟩
    · rw [readValue_braces] at h
      obtain ⟨given, hgiven, rfl⟩ := exists_of_map_eq_ok h
      obtain ⟨w, hw, hobject⟩ := hvalues.field.exists_of_readEnclosed '\x7b' hgiven
      exact ⟨w, hw, .inr (.inr ⟨given, hobject, rfl⟩)⟩
    · rw [readValue_eq_readSimple size _ ht] at h
      obtain ⟨w, hw, hsimple⟩ := exists_of_readSimple h
      exact ⟨w, hw, .inl hsimple⟩
  stop_of_tooDeep := by
    intro t h
    rcases bracket_cases t with ⟨u, rfl⟩ | ⟨u, rfl⟩ | ht
    · rw [readValue_list] at h
      exact .inl ⟨u, rfl, hvalues.interrupted_of_readEnclosed (eq_error_of_map_eq_error h)⟩
    · rw [readValue_braces] at h
      exact .inr ⟨u, rfl, hvalues.field.interrupted_of_readEnclosed (eq_error_of_map_eq_error h)⟩
    · rw [readValue_eq_readSimple size _ ht] at h
      exact absurd h (readSimple_ne_tooDeep t)
  ok_append := by
    rintro t v (hsimple | ⟨items, hlist, rfl⟩ | ⟨given, hobject, rfl⟩) hsize rest hrest
    · exact hsimple.readValue_append size _ hrest
    · obtain ⟨u, hu, hread⟩ := hvalues.readEnclosed_append (.inl rfl) hlist hsize rest
      rw [hu, readValue_list, hread]
      rfl
    · obtain ⟨u, hu, hread⟩ := hvalues.field.readEnclosed_append (.inr rfl) hobject hsize rest
      rw [hu, readValue_braces, hread]
      rfl
  tooDeep_of_stop := by
    rintro t (⟨rest, rfl, hrest⟩ | ⟨rest, rfl, hrest⟩) hsize
    · rw [readValue_list, hvalues.readEnclosed_of_interrupted (.inl rfl) hrest
        (Nat.le_of_succ_le hsize)]
      rfl
    · rw [readValue_braces, hvalues.field.readEnclosed_of_interrupted (.inr rfl) hrest
        (Nat.le_of_succ_le hsize)]
      rfl
  opens := by
    rintro t v (hsimple | ⟨items, hlist, rfl⟩ | ⟨given, hobject, rfl⟩)
    · exact hsimple.opens
    · obtain ⟨u, rfl⟩ := hlist.exists_cons
      exact opens_list u
    · obtain ⟨u, rfl⟩ := hobject.exists_cons
      exact opens_braces u
  opens_of_stop := by
    rintro t (⟨rest, rfl, _⟩ | ⟨rest, rfl, _⟩)
    · exact opens_list rest
    · exact opens_braces rest

/-- The reader of values reads the values of the grammar, to every depth. -/
theorem reads_readValue
    (size depth : Nat) :
    Reads size (readValue size depth) (Spells depth) (Overdeep depth) := by
  induction depth with
  | zero => exact reads_readValue_zero size
  | succ depth ih => exact ih.readValue_succ

/-! ## Documents -/

theorem skipSpacing_isEmpty_iff {t : Text} : (skipSpacing t).isEmpty = true ↔ Spacing t := by
  rw [List.isEmpty_iff, skipSpacing, List.dropWhile_eq_nil_iff]
  rfl

/-- Only spacing may follow the value of a document. -/
theorem read_of_readValue
    {depth : Nat}
    {t rest : Text}
    {v : Value}
    (h : readValue t.length depth (skipSpacing t) = .ok (v, rest)) :
    read depth t = if (skipSpacing rest).isEmpty then .ok v else .error .malformed := by
  rw [read, h]
  rfl

theorem read_of_readValue_error
    {depth : Nat}
    {t : Text}
    {e : ReadError}
    (h : readValue t.length depth (skipSpacing t) = .error e) :
    read depth t = .error e := by
  rw [read, h]
  rfl

/-- A document is read as a value exactly if it spells that value, with spacing around it. -/
theorem read_eq_ok_iff
    {depth : Nat}
    {t : Text}
    {v : Value} :
    read depth t = .ok v ↔ Holds depth t v := by
  have hreads := reads_readValue t.length depth
  constructor
  · intro h
    cases hvalue : readValue t.length depth (skipSpacing t) with
    | error e =>
        rw [read_of_readValue_error hvalue] at h
        cases h
    | ok found =>
        obtain ⟨v', after⟩ := found
        rw [read_of_readValue hvalue] at h
        split_ifs at h with hafter
        cases Except.ok.inj h
        obtain ⟨before, hbefore, ht⟩ := exists_spacing t
        obtain ⟨body, hbody, hspells⟩ := hreads.exists_of_ok hvalue
        exact ⟨before, body, after, by rw [← hbody, ← ht], hbefore,
          skipSpacing_isEmpty_iff.mp hafter, hspells⟩
  · rintro ⟨before, body, after, rfl, hbefore, hafter, hspells⟩
    have hends : NumberEnds after := by
      simpa using hafter.numberEnds_append (t := []) nofun
    have hlength : body.length ≤ (before ++ (body ++ after)).length := by
      simp only [List.length_append]
      omega
    have hvalue : readValue (before ++ (body ++ after)).length depth
        (skipSpacing (before ++ (body ++ after))) = .ok (v, after) := by
      rw [((hreads.opens hspells).append after).skipSpacing_append hbefore]
      exact hreads.ok_append hspells hlength hends
    rw [read_of_readValue hvalue, if_pos (skipSpacing_isEmpty_iff.mpr hafter)]

/-- A document nests too deep exactly if all is well in it up to a bracket too many. -/
theorem read_eq_tooDeep_iff
    {depth : Nat}
    {t : Text} :
    read depth t = .error .tooDeep ↔ NestsTooDeep depth t := by
  have hreads := reads_readValue t.length depth
  constructor
  · intro h
    cases hvalue : readValue t.length depth (skipSpacing t) with
    | ok found =>
        obtain ⟨v, after⟩ := found
        rw [read_of_readValue hvalue] at h
        split_ifs at h
        cases h
    | error e =>
        rw [read_of_readValue_error hvalue] at h
        cases Except.error.inj h
        obtain ⟨gap, hgap, ht⟩ := exists_spacing t
        exact ⟨gap, skipSpacing t, ht, hgap, hreads.stop_of_tooDeep hvalue⟩
  · rintro ⟨gap, u, rfl, hgap, hu⟩
    have hlength : u.length ≤ (gap ++ u).length := by
      rw [List.length_append]
      omega
    apply read_of_readValue_error
    rw [(hreads.opens_of_stop hu).skipSpacing_append hgap]
    exact hreads.tooDeep_of_stop hu hlength

/-- A document of an object is read as the object of its fields. -/
theorem HoldsObject.read_eq
    {depth : Nat}
    {t : Text}
    {given : List (DocText × Value)}
    (h : HoldsObject depth t given) :
    read depth t = .ok (Value.ofFields given) := by
  obtain ⟨inner, before, body, after, rfl, ht, hbefore, hafter, hobject⟩ := h
  exact read_eq_ok_iff.mpr
    ⟨before, body, after, ht, hbefore, hafter, .inr (.inr ⟨given, hobject, rfl⟩)⟩

/-- A document gives its fields in one way only.  Where the object begins is settled by the
spacing, and what it gives by the reader. -/
theorem HoldsObject.unique
    {depth : Nat}
    {t : Text}
    {given others : List (DocText × Value)}
    (h : HoldsObject depth t given)
    (hothers : HoldsObject depth t others) :
    given = others := by
  have hread : ∀ {fields : List (DocText × Value)}, HoldsObject depth t fields →
      ∃ rest, readEnclosed '\x7d' (readField (readValue t.length (depth - 1))) t.length
        (skipSpacing t).tail = .ok (fields, rest) := by
    rintro fields ⟨inner, before, body, after, rfl, ht, hbefore, hafter, hobject⟩
    have hreads := (reads_readValue t.length inner).field
    have hlength : body.length ≤ t.length := by
      rw [ht, List.length_append, List.length_append]
      omega
    obtain ⟨u, hu, hread⟩ := hreads.readEnclosed_append (.inr rfl) hobject hlength after
    have hstart : skipSpacing t = '\x7b' :: u := by
      rw [ht, hu, (opens_braces u).skipSpacing_append hbefore]
    exact ⟨after, by rw [hstart, List.tail_cons, Nat.add_sub_cancel, hread]⟩
  obtain ⟨rest, hgiven⟩ := hread h
  obtain ⟨rest', hothers⟩ := hread hothers
  rw [hgiven] at hothers
  exact (Prod.mk.inj (Except.ok.inj hothers)).1

/-- What is read as an object is a document of one. -/
theorem exists_holdsObject_of_read
    {depth : Nat}
    {t : Text}
    {fields : List (DocText × Value)}
    (h : read depth t = .ok (.object fields)) :
    ∃ given, HoldsObject depth t given := by
  obtain ⟨before, body, after, ht, hbefore, hafter, hspells⟩ := read_eq_ok_iff.mp h
  cases depth with
  | zero =>
      cases hspells with
      | named h => simp [namedValues] at h
  | succ inner =>
      obtain hsimple | ⟨items, _, hlist⟩ | ⟨given, hobject, _⟩ := hspells
      · cases hsimple with
        | named h => simp [namedValues] at h
      · cases hlist
      · exact ⟨given, inner, before, body, after, rfl, ht, hbefore, hafter, hobject⟩

end Document
end DualTurret
