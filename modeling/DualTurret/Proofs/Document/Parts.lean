import DualTurret.Proofs.Document.Fields
import DualTurret.Proofs.Document.Grammar

/-!
# Parts of documents

The reader takes from the front of a text what the grammar allows there, and all of it.  For a
reader of parts this is one bundle of facts, `Document.Reads`: what it takes is spelled by what
it took, it takes what is spelled if nothing after that continues a number, and it runs out of
depth exactly on the texts that leave the depth.

Lists and objects are read in the same way, so the bundle passes from the parts to what stands
between two brackets for both at once, and from values to fields.

Main facts:
* `Document.Reads.field`: a reader of values gives a reader of fields;
* `Document.Reads.exists_of_readEnclosed` and `Document.Reads.readEnclosed_append`: parts in
  brackets are read exactly if they are spelled;
* `Document.Reads.interrupted_of_readEnclosed` and `Document.Reads.readEnclosed_of_interrupted`:
  where the reader runs out of depth.
-/

namespace DualTurret
namespace Document

section

variable {α β : Type} {found : Except ReadError (α × Text)} {f : α → β}

theorem exists_of_map_eq_ok
    {b : β}
    {rest : Text}
    (h : (found.map fun pair => (f pair.1, pair.2)) = .ok (b, rest)) :
    ∃ a, found = .ok (a, rest) ∧ b = f a := by
  cases found with
  | error e => cases h
  | ok pair =>
      obtain ⟨rfl, rfl⟩ := Prod.mk.inj (Except.ok.inj h)
      exact ⟨pair.1, rfl, rfl⟩

theorem eq_error_of_map_eq_error
    {e : ReadError}
    (h : (found.map fun pair => (f pair.1, pair.2)) = .error e) :
    found = .error e := by
  cases found with
  | error e => exact congrArg _ (Except.error.inj h)
  | ok pair => cases h

end

/-- A part can begin here: neither spacing nor a closing bracket comes first. -/
def Opens (t : Text) : Prop :=
  ∃ c rest, t = c :: rest ∧ isSpacing c = false ∧ c ≠ ']' ∧ c ≠ '\x7d'

theorem Opens.append {t : Text} (h : Opens t) (u : Text) : Opens (t ++ u) := by
  obtain ⟨c, rest, rfl, hc⟩ := h
  exact ⟨c, rest ++ u, rfl, hc⟩

theorem Opens.one_le_length {t : Text} (h : Opens t) : 1 ≤ t.length := by
  obtain ⟨c, rest, rfl, hc⟩ := h
  exact Nat.le_add_left 1 rest.length

/-- The brackets that end a list or an object. -/
def IsClosing (c : Char) : Prop :=
  c = ']' ∨ c = '\x7d'

namespace IsClosing

variable {c : Char} (h : IsClosing c)

include h

theorem isSpacing_eq : isSpacing c = false := by
  rcases h with rfl | rfl <;> rfl

theorem comma_ne : ',' ≠ c := by
  rcases h with rfl | rfl <;> decide

theorem numberEnds (t : Text) : NumberEnds (c :: t) := by
  rcases h with rfl | rfl
  all_goals
    rintro d ⟨⟩
    decide

end IsClosing

theorem skipSpacing_cons
    {c : Char}
    (hc : isSpacing c = false)
    (t : Text) :
    skipSpacing (c :: t) = c :: t :=
  List.dropWhile_cons_of_neg (by simp [hc])

theorem Opens.skipSpacing_append
    {t gap : Text}
    (h : Opens t)
    (hgap : Spacing gap) :
    skipSpacing (gap ++ t) = t := by
  obtain ⟨c, rest, rfl, hc, _⟩ := h
  rw [hgap.skipSpacing_append, skipSpacing_cons hc]

theorem Quoted.opens {t : Text} {content : DocText} (h : Quoted t content) : Opens t := by
  obtain ⟨_⟩ := h
  exact ⟨_, _, rfl, by decide⟩

/-! ## Readers of parts -/

/-- A reader of parts takes what the grammar allows, and runs out of depth where the text leaves
it.  The size bounds the texts on which it must do so: a list is read with that much fuel. -/
structure Reads
    {α : Type}
    (size : Nat)
    (item : Text → Except ReadError (α × Text))
    (Item : Text → α → Prop)
    (Stop : Text → Prop) : Prop where
  exists_of_ok : ∀ {t rest a}, item t = .ok (a, rest) → ∃ u, t = u ++ rest ∧ Item u a
  stop_of_tooDeep : ∀ {t}, item t = .error .tooDeep → Stop t
  ok_append : ∀ {t a}, Item t a → t.length ≤ size → ∀ {rest}, NumberEnds rest →
    item (t ++ rest) = .ok (a, rest)
  tooDeep_of_stop : ∀ {t}, Stop t → t.length ≤ size → item t = .error .tooDeep
  opens : ∀ {t a}, Item t a → Opens t
  opens_of_stop : ∀ {t}, Stop t → Opens t

/-- Parts up to a closing bracket: at least one, and at most as many as the fuel.  Both
`readItems` and `readFields` are of this kind. -/
def readSequence
    {α : Type}
    (closing : Char)
    (item : Text → Except ReadError (α × Text)) :
    Nat → Text → Except ReadError (List α × Text)
  | 0, _ => .error .malformed
  | fuel + 1, t => do
      let (a, rest) ← item t
      match skipSpacing rest with
      | [] => .error .malformed
      | c :: rest =>
          if c = closing then return ([a], rest)
          else if c = ',' then do
            let (as, rest) ← readSequence closing item fuel (skipSpacing rest)
            return (a :: as, rest)
          else .error .malformed

def readField
    (item : Text → Except ReadError (Value × Text))
    (t : Text) :
    Except ReadError ((DocText × Value) × Text) := do
  let (key, rest) ← orMalformed (readKey? t)
  let (value, rest) ← item rest
  return ((key, value), rest)

/-- The items of a list are a sequence. -/
theorem readItems_eq
    (item : Text → Except ReadError (Value × Text))
    (fuel : Nat)
    (t : Text) :
    readItems item fuel t = readSequence ']' item fuel t := by
  induction fuel generalizing t with
  | zero => rfl
  | succ fuel ih =>
      rw [readItems, readSequence]
      cases item t with
      | error e => rfl
      | ok found =>
          obtain ⟨v, rest⟩ := found
          simp only [bind, Except.bind, ih]
          cases skipSpacing rest with
          | nil => rfl
          | cons c rest =>
              by_cases hclose : c = ']'
              · subst hclose
                rfl
              by_cases hcomma : c = ','
              · subst hcomma
                rfl
              simp [hclose, hcomma]

/-- The fields of an object are a sequence. -/
theorem readFields_eq
    (item : Text → Except ReadError (Value × Text))
    (fuel : Nat)
    (t : Text) :
    readFields item fuel t = readSequence '\x7d' (readField item) fuel t := by
  induction fuel generalizing t with
  | zero => rfl
  | succ fuel ih =>
      rw [readFields, readSequence, readField]
      cases orMalformed (readKey? t) with
      | error e => rfl
      | ok found =>
          obtain ⟨key, rest⟩ := found
          simp only [bind, Except.bind]
          cases item rest with
          | error e => rfl
          | ok found =>
              obtain ⟨v, rest⟩ := found
              simp only [pure, Except.pure, ih]
              cases skipSpacing rest with
              | nil => rfl
              | cons c rest =>
                  by_cases hclose : c = '\x7d'
                  · subst hclose
                    rfl
                  by_cases hcomma : c = ','
                  · subst hcomma
                    rfl
                  simp [hclose, hcomma]

section

variable {α : Type} {size fuel : Nat} {item : Text → Except ReadError (α × Text)}
  {Item : Text → α → Prop} {Stop : Text → Prop} {closing : Char}

theorem Sequence.spacing_append
    {gap body : Text}
    {as : List α}
    (hgap : Spacing gap)
    (h : Sequence Item body as) :
    Sequence Item (gap ++ body) as := by
  cases h with
  | last hbefore hbody hafter =>
      rw [← List.append_assoc]
      exact .last (hgap.append hbefore) hbody hafter
  | more hbefore hbody hafter hrest =>
      rw [← List.append_assoc]
      exact .more (hgap.append hbefore) hbody hafter hrest

theorem Interrupted.spacing_append
    {gap t : Text}
    (hgap : Spacing gap)
    (h : Interrupted Item Stop t) :
    Interrupted Item Stop (gap ++ t) := by
  cases h with
  | here hgap' ht =>
      rw [← List.append_assoc]
      exact .here (hgap.append hgap') ht
  | later hbefore hbody hafter hrest =>
      rw [← List.append_assoc]
      exact .later (hgap.append hbefore) hbody hafter hrest

theorem readSequence_last
    {t rest more : Text}
    {a : α}
    (hitem : item t = .ok (a, rest))
    (hrest : skipSpacing rest = closing :: more) :
    readSequence closing item (fuel + 1) t = .ok ([a], more) := by
  simp [readSequence, hitem, hrest, bind, Except.bind, pure, Except.pure]

theorem readSequence_more
    {t rest more : Text}
    {a : α}
    (hitem : item t = .ok (a, rest))
    (hrest : skipSpacing rest = ',' :: more)
    (hclosing : ',' ≠ closing) :
    readSequence closing item (fuel + 1) t =
      (readSequence closing item fuel (skipSpacing more)).map
        fun found => (a :: found.1, found.2) := by
  simp only [readSequence, hitem, hrest, bind, Except.bind, if_neg hclosing, if_true]
  cases readSequence closing item fuel (skipSpacing more) <;> rfl

theorem readSequence_error
    {t : Text}
    {e : ReadError}
    (hitem : item t = .error e) :
    readSequence closing item (fuel + 1) t = .error e := by
  simp only [readSequence, hitem, bind, Except.bind]

/-- What can happen at one part of a sequence. -/
theorem readSequence_succ
    (closing : Char)
    (item : Text → Except ReadError (α × Text))
    (fuel : Nat)
    (t : Text) :
    (∃ e, item t = .error e ∧ readSequence closing item (fuel + 1) t = .error e) ∨
    ∃ a gap rest, item t = .ok (a, gap ++ rest) ∧ Spacing gap ∧
      ((∃ more, rest = closing :: more ∧
          readSequence closing item (fuel + 1) t = .ok ([a], more)) ∨
        (∃ more, rest = ',' :: more ∧
          readSequence closing item (fuel + 1) t =
            (readSequence closing item fuel (skipSpacing more)).map
              fun found => (a :: found.1, found.2)) ∨
        readSequence closing item (fuel + 1) t = .error .malformed) := by
  cases hitem : item t with
  | error e => exact .inl ⟨e, rfl, readSequence_error hitem⟩
  | ok found =>
      obtain ⟨a, rest⟩ := found
      obtain ⟨gap, hgap, hrest⟩ := exists_spacing rest
      refine .inr ⟨a, gap, skipSpacing rest, by rw [← hrest], hgap, ?_⟩
      cases hskip : skipSpacing rest with
      | nil => exact .inr (.inr (by simp only [readSequence, hitem, hskip, bind, Except.bind]))
      | cons c more =>
          by_cases hclose : c = closing
          · subst hclose
            exact .inl ⟨more, rfl, readSequence_last hitem hskip⟩
          by_cases hcomma : c = ','
          · subst hcomma
            exact .inr (.inl ⟨more, rfl, readSequence_more hitem hskip hclose⟩)
          · refine .inr (.inr ?_)
            simp only [readSequence, hitem, hskip, bind, Except.bind, if_neg hclose, if_neg hcomma]

namespace Reads

/-- What is read as a sequence is one. -/
theorem exists_of_readSequence
    (hitem : Reads size item Item Stop)
    {t rest : Text}
    {as : List α}
    (h : readSequence closing item fuel t = .ok (as, rest)) :
    ∃ body, t = body ++ closing :: rest ∧ Sequence Item body as := by
  induction fuel generalizing t as with
  | zero => cases h
  | succ fuel ih =>
      rcases readSequence_succ closing item fuel t with ⟨e, _, hread⟩ |
        ⟨a, gap, rest', hread, hgap, ⟨more, rfl, hlast⟩ | ⟨more, rfl, hmore⟩ | hbad⟩
      · rw [hread] at h
        cases h
      · rw [hlast] at h
        obtain ⟨rfl, rfl⟩ := Prod.mk.inj (Except.ok.inj h)
        obtain ⟨u, rfl, hu⟩ := hitem.exists_of_ok hread
        exact ⟨[] ++ (u ++ gap), by simp, .last .nil hu hgap⟩
      · rw [hmore] at h
        obtain ⟨others, hrest, rfl⟩ := exists_of_map_eq_ok h
        obtain ⟨u, rfl, hu⟩ := hitem.exists_of_ok hread
        obtain ⟨body, hbody, hsequence⟩ := ih hrest
        obtain ⟨gap', hgap', hmore'⟩ := exists_spacing more
        refine ⟨[] ++ (u ++ (gap ++ ',' :: (gap' ++ body))), ?_,
          .more .nil hu hgap (hsequence.spacing_append hgap')⟩
        rw [hmore', hbody]
        simp
      · rw [hbad] at h
        cases h

/-- A sequence that is left by depth is interrupted there. -/
theorem interrupted_of_readSequence
    (hitem : Reads size item Item Stop)
    {t : Text}
    (h : readSequence closing item fuel t = .error .tooDeep) :
    Interrupted Item Stop t := by
  induction fuel generalizing t with
  | zero => cases h
  | succ fuel ih =>
      rcases readSequence_succ closing item fuel t with ⟨e, herror, hread⟩ |
        ⟨a, gap, rest', hread, hgap, ⟨more, rfl, hlast⟩ | ⟨more, rfl, hmore⟩ | hbad⟩
      · rw [hread] at h
        cases Except.error.inj h
        exact .here .nil (hitem.stop_of_tooDeep herror)
      · rw [hlast] at h
        cases h
      · rw [hmore] at h
        have hrest := ih (eq_error_of_map_eq_error h)
        obtain ⟨u, rfl, hu⟩ := hitem.exists_of_ok hread
        obtain ⟨gap', hgap', hmore'⟩ := exists_spacing more
        rw [hmore']
        exact .later .nil hu hgap (hrest.spacing_append hgap')
      · rw [hbad] at h
        cases h

/-- A part with a comma after it is read, and the rest of the sequence after that. -/
theorem readSequence_part
    (hitem : Reads size item Item Stop)
    (hclosing : IsClosing closing)
    {before body after : Text}
    {a : α}
    (hbefore : Spacing before)
    (hbody : Item body a)
    (hafter : Spacing after)
    (hsize : body.length ≤ size)
    (more : Text) :
    readSequence closing item (fuel + 1)
        (skipSpacing (before ++ (body ++ (after ++ ',' :: more)))) =
      (readSequence closing item fuel (skipSpacing more)).map
        fun found => (a :: found.1, found.2) := by
  have hopens := (hitem.opens hbody).append (after ++ ',' :: more)
  have hread := hitem.ok_append hbody hsize (hafter.numberEnds_append (numberEnds_comma more))
  have hcomma : skipSpacing (after ++ ',' :: more) = ',' :: more := by
    rw [hafter.skipSpacing_append, skipSpacing_cons rfl]
  rw [hopens.skipSpacing_append hbefore]
  exact readSequence_more hread hcomma hclosing.comma_ne

/-- Every part takes at least one character, so the fuel lasts to the closing bracket. -/
theorem readSequence_append
    (hitem : Reads size item Item Stop)
    (hclosing : IsClosing closing)
    {body : Text}
    {as : List α}
    (h : Sequence Item body as)
    (hsize : body.length ≤ size)
    (hfuel : body.length ≤ fuel)
    (rest : Text) :
    readSequence closing item fuel (skipSpacing (body ++ closing :: rest)) = .ok (as, rest) := by
  induction h generalizing fuel with
  | @last before body after a hbefore hbody hafter =>
      have hopens := hitem.opens hbody
      have hlength := hopens.one_le_length
      simp only [List.length_append] at hsize hfuel
      obtain ⟨fuel, rfl⟩ := Nat.exists_eq_succ_of_ne_zero (show fuel ≠ 0 by omega)
      have hread := hitem.ok_append hbody (by omega)
        (hafter.numberEnds_append (hclosing.numberEnds rest))
      rw [List.append_assoc, List.append_assoc, (hopens.append _).skipSpacing_append hbefore]
      refine readSequence_last hread ?_
      rw [hafter.skipSpacing_append, skipSpacing_cons hclosing.isSpacing_eq]
  | @more before body after more a as hbefore hbody hafter hmore ih =>
      simp only [List.length_append, List.length_cons] at hsize hfuel
      obtain ⟨fuel, rfl⟩ := Nat.exists_eq_succ_of_ne_zero (show fuel ≠ 0 by omega)
      have htext : before ++ (body ++ (after ++ ',' :: more)) ++ closing :: rest =
          before ++ (body ++ (after ++ ',' :: (more ++ closing :: rest))) := by
        simp only [List.append_assoc, List.cons_append]
      rw [htext, hitem.readSequence_part hclosing hbefore hbody hafter (by omega),
        ih (by omega) (by omega)]
      rfl

/-- An interrupted sequence is left by depth. -/
theorem readSequence_of_interrupted
    (hitem : Reads size item Item Stop)
    (hclosing : IsClosing closing)
    {t : Text}
    (h : Interrupted Item Stop t)
    (hsize : t.length ≤ size)
    (hfuel : t.length ≤ fuel) :
    readSequence closing item fuel (skipSpacing t) = .error .tooDeep := by
  induction h generalizing fuel with
  | @here gap t hgap ht =>
      have hopens := hitem.opens_of_stop ht
      have hlength := hopens.one_le_length
      rw [List.length_append] at hsize hfuel
      obtain ⟨fuel, rfl⟩ := Nat.exists_eq_succ_of_ne_zero (show fuel ≠ 0 by omega)
      rw [hopens.skipSpacing_append hgap]
      exact readSequence_error (hitem.tooDeep_of_stop ht (by omega))
  | @later before body after more a hbefore hbody hafter hmore ih =>
      simp only [List.length_append, List.length_cons] at hsize hfuel
      obtain ⟨fuel, rfl⟩ := Nat.exists_eq_succ_of_ne_zero (show fuel ≠ 0 by omega)
      rw [hitem.readSequence_part hclosing hbefore hbody hafter (by omega),
        ih (by omega) (by omega)]
      rfl

end Reads

/-- What follows an opening bracket, up to the closing one. -/
def readEnclosed
    (closing : Char)
    (item : Text → Except ReadError (α × Text))
    (size : Nat)
    (t : Text) :
    Except ReadError (List α × Text) :=
  if (skipSpacing t).head? = some closing then .ok ([], (skipSpacing t).tail)
  else readSequence closing item size (skipSpacing t)

theorem IsClosing.head?_ne
    (hclosing : IsClosing closing)
    {t : Text}
    (h : Opens t) :
    t.head? ≠ some closing := by
  obtain ⟨c, rest, rfl, _, hlist, hobject⟩ := h
  rw [List.head?_cons, ne_eq, Option.some.injEq]
  rcases hclosing with rfl | rfl
  · exact hlist
  · exact hobject

namespace Reads

/-- Where a sequence begins. -/
theorem opens_of_sequence
    (hitem : Reads size item Item Stop)
    {body : Text}
    {as : List α}
    (h : Sequence Item body as)
    (rest : Text) :
    Opens (skipSpacing (body ++ rest)) := by
  cases h with
  | last hbefore hbody hafter =>
      have hopens := (hitem.opens hbody).append
      rw [List.append_assoc, List.append_assoc, (hopens _).skipSpacing_append hbefore]
      exact hopens _
  | more hbefore hbody hafter hmore =>
      have hopens := (hitem.opens hbody).append
      rw [List.append_assoc, List.append_assoc, (hopens _).skipSpacing_append hbefore]
      exact hopens _

theorem opens_of_interrupted
    (hitem : Reads size item Item Stop)
    {t : Text}
    (h : Interrupted Item Stop t) :
    Opens (skipSpacing t) := by
  cases h with
  | here hgap ht =>
      rw [(hitem.opens_of_stop ht).skipSpacing_append hgap]
      exact hitem.opens_of_stop ht
  | later hbefore hbody hafter hmore =>
      have hopens := (hitem.opens hbody).append
      rw [(hopens _).skipSpacing_append hbefore]
      exact hopens _

/-- What is read between brackets stands between them. -/
theorem exists_of_readEnclosed
    (hitem : Reads size item Item Stop)
    (opening : Char)
    {t rest : Text}
    {as : List α}
    (h : readEnclosed closing item fuel t = .ok (as, rest)) :
    ∃ u, opening :: t = u ++ rest ∧ Enclosed Item opening closing u as := by
  obtain ⟨gap, hgap, ht⟩ := exists_spacing t
  unfold readEnclosed at h
  split_ifs at h with hclose
  · obtain ⟨more, hmore⟩ := List.head?_eq_some_iff.mp hclose
    rw [hmore] at h ht
    obtain ⟨rfl, rfl⟩ := Prod.mk.inj (Except.ok.inj h)
    exact ⟨opening :: (gap ++ [closing]), by simp [ht], .empty hgap⟩
  · obtain ⟨body, hbody, hsequence⟩ := hitem.exists_of_readSequence h
    refine ⟨opening :: (gap ++ body ++ [closing]), ?_, .parts (hsequence.spacing_append hgap)⟩
    rw [ht, hbody]
    simp

theorem interrupted_of_readEnclosed
    (hitem : Reads size item Item Stop)
    {t : Text}
    (h : readEnclosed closing item fuel t = .error .tooDeep) :
    Interrupted Item Stop t := by
  obtain ⟨gap, hgap, ht⟩ := exists_spacing t
  unfold readEnclosed at h
  split_ifs at h with hclose
  rw [ht]
  exact (hitem.interrupted_of_readSequence h).spacing_append hgap

/-- Parts in brackets are read. -/
theorem readEnclosed_append
    (hitem : Reads size item Item Stop)
    (hclosing : IsClosing closing)
    {opening : Char}
    {t : Text}
    {as : List α}
    (h : Enclosed Item opening closing t as)
    (hsize : t.length ≤ size)
    (rest : Text) :
    ∃ u, t ++ rest = opening :: u ∧ readEnclosed closing item size u = .ok (as, rest) := by
  cases h with
  | @empty gap hgap =>
      refine ⟨gap ++ closing :: rest, by simp, ?_⟩
      rw [readEnclosed, hgap.skipSpacing_append, skipSpacing_cons hclosing.isSpacing_eq]
      exact if_pos rfl
  | @parts body _ hsequence =>
      rw [List.length_cons, List.length_append] at hsize
      refine ⟨body ++ closing :: rest, by simp, ?_⟩
      rw [readEnclosed, if_neg (hclosing.head?_ne (hitem.opens_of_sequence hsequence _))]
      exact hitem.readSequence_append hclosing hsequence (by omega) (by omega) rest

/-- Parts in brackets that are interrupted by depth are not read. -/
theorem readEnclosed_of_interrupted
    (hitem : Reads size item Item Stop)
    (hclosing : IsClosing closing)
    {t : Text}
    (h : Interrupted Item Stop t)
    (hsize : t.length ≤ size) :
    readEnclosed closing item size t = .error .tooDeep := by
  rw [readEnclosed, if_neg (hclosing.head?_ne (hitem.opens_of_interrupted h))]
  exact hitem.readSequence_of_interrupted hclosing h hsize hsize

end Reads

end

/-! ## Fields -/

/-- The key of a field is read, with spacing around the colon. -/
theorem readKey?_append
    {key before after rest : Text}
    {name : DocText}
    (hkey : Quoted key name)
    (hbefore : Spacing before)
    (hafter : Spacing after)
    (hrest : Opens rest) :
    readKey? (key ++ (before ++ ':' :: (after ++ rest))) = some (name, rest) := by
  obtain ⟨u, hu, hread⟩ := hkey.readQuoted_append (before ++ ':' :: (after ++ rest))
  rw [hu, readKey?, hread]
  simp only [Option.bind_eq_bind, Option.bind_some, hbefore.skipSpacing_append,
    skipSpacing_cons (show isSpacing ':' = false from rfl), hrest.skipSpacing_append hafter]
  rfl

/-- What is read as a key is one. -/
theorem exists_of_readKey?
    {t rest : Text}
    {name : DocText}
    (h : readKey? t = some (name, rest)) :
    ∃ key before after, t = key ++ (before ++ ':' :: (after ++ rest)) ∧ Quoted key name ∧
      Spacing before ∧ Spacing after := by
  unfold readKey? at h
  split at h
  · obtain ⟨⟨key, u⟩, hkey, h⟩ := Option.bind_eq_some_iff.mp h
    dsimp only at h
    split at h
    · rename_i v hcolon
      obtain ⟨rfl, rfl⟩ := Prod.mk.inj (Option.some.inj h)
      obtain ⟨text, htext, hquoted⟩ := exists_of_readQuoted hkey
      obtain ⟨before, hbefore, hu⟩ := exists_spacing u
      obtain ⟨after, hafter, hv⟩ := exists_spacing v
      exact ⟨text, before, after, by rw [htext, hu, hcolon, ← hv], hquoted, hbefore, hafter⟩
    · cases h
  · cases h

theorem readField_of_readKey?
    {t rest : Text}
    {name : DocText}
    (h : readKey? t = some (name, rest))
    (item : Text → Except ReadError (Value × Text)) :
    readField item t = (item rest).map fun found => ((name, found.1), found.2) := by
  rw [readField, h]
  simp only [orMalformed, bind, Except.bind]
  cases item rest <;> rfl

/-- A reader of values gives a reader of fields. -/
theorem Reads.field
    {size : Nat}
    {item : Text → Except ReadError (Value × Text)}
    {Item : Text → Value → Prop}
    {Stop : Text → Prop}
    (hitem : Reads size item Item Stop) :
    Reads size (readField item) (Field Item) (AfterKey Stop) where
  exists_of_ok := by
    intro t rest field h
    cases hread : readKey? t with
    | none =>
        rw [readField, hread] at h
        cases h
    | some found =>
        obtain ⟨name, rest'⟩ := found
        obtain ⟨key, before, after, rfl, hkey, hbefore, hafter⟩ := exists_of_readKey? hread
        rw [readField_of_readKey? hread] at h
        obtain ⟨v, hvalue, rfl⟩ := exists_of_map_eq_ok h
        obtain ⟨u, rfl, hu⟩ := hitem.exists_of_ok hvalue
        exact ⟨_, by simp, .mk hkey hbefore hafter hu⟩
  stop_of_tooDeep := by
    intro t h
    cases hread : readKey? t with
    | none =>
        rw [readField, hread] at h
        cases h
    | some found =>
        obtain ⟨name, rest'⟩ := found
        obtain ⟨key, before, after, rfl, hkey, hbefore, hafter⟩ := exists_of_readKey? hread
        rw [readField_of_readKey? hread] at h
        exact .mk hkey hbefore hafter (hitem.stop_of_tooDeep (eq_error_of_map_eq_error h))
  ok_append := by
    rintro _ _ ⟨hkey, hbefore, hafter, hbody⟩ hsize rest hrest
    simp only [List.length_append, List.length_cons] at hsize
    simp only [List.append_assoc, List.cons_append]
    have hread := readKey?_append hkey hbefore hafter ((hitem.opens hbody).append rest)
    rw [readField_of_readKey? hread, hitem.ok_append hbody (by omega) hrest]
    rfl
  tooDeep_of_stop := by
    rintro _ ⟨hkey, hbefore, hafter, ht⟩ hsize
    simp only [List.length_append, List.length_cons] at hsize
    have hread := readKey?_append hkey hbefore hafter (hitem.opens_of_stop ht)
    rw [readField_of_readKey? hread, hitem.tooDeep_of_stop ht (by omega)]
    rfl
  opens := by
    rintro _ _ ⟨hkey, hbefore, hafter, hbody⟩
    exact hkey.opens.append _
  opens_of_stop := by
    rintro _ ⟨hkey, hbefore, hafter, ht⟩
    exact hkey.opens.append _

end Document
end DualTurret
