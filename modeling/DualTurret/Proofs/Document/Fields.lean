import DualTurret.Proofs.Document.Numbers
import DualTurret.Proofs.Document.Quoting

/-!
# Objects in documents

A value that is neither a list nor an object is read back from its text, whatever follows it,
as long as that does not continue a number.  The fields of an object are written with a comma
or a line feed after each value, so they are read back one by one.

Main facts:
* `Document.readValue_write`: values without parts;
* `Document.read_write_object`: objects of such values.
-/

namespace DualTurret

/-- Values without parts that a document can hold. -/
def Value.Writable : Value → Prop
  | .number x => x.Writable
  | .list _ => False
  | .object _ => False
  | _ => True

instance : DecidablePred Value.Writable
  | .number x => inferInstanceAs (Decidable x.Writable)
  | .list _ => inferInstanceAs (Decidable False)
  | .object _ => inferInstanceAs (Decidable False)
  | .null => inferInstanceAs (Decidable True)
  | .truth _ => inferInstanceAs (Decidable True)
  | .text _ => inferInstanceAs (Decidable True)

/-- A value as it comes back: the surrogate pairs of a text are joined. -/
def Value.rejoined : Value → Value
  | .text t => .text (Document.joinPairs t)
  | v => v

namespace Document

/-- A written value without parts is read as the value with its surrogate pairs joined. -/
theorem readValue_write
    (size nesting depth : Nat)
    {v : Value}
    (hv : v.Writable)
    {rest : Text}
    (hrest : NumberEnds rest) :
    readValue size nesting (write depth v ++ rest) = .ok (v.rejoined, rest) := by
  cases v with
  | null =>
      rw [write]
      exact readValue_of_atom size nesting (by decide) (by decide) (by decide) _
  | truth b =>
      rw [write]
      cases b with
      | true => exact readValue_of_atom size nesting (by decide) (by decide) (by decide) _
      | false => exact readValue_of_atom size nesting (by decide) (by decide) (by decide) _
  | number x =>
      rw [write]
      exact readValue_numberText size nesting hv hrest
  | text t =>
      have htext : write depth (.text t) ++ rest = '"' :: (t.flatMap escape ++ '"' :: rest) := by
        simp [write, quote]
      rw [htext, readValue, readQuoted_quote]
      rfl
  | list items => cases hv
  | object fields => cases hv

/-- What is read as a value does not begin with spacing. -/
theorem skipSpacing_of_readValue
    {size nesting : Nat}
    {t : Text}
    {found : Value × Text}
    (h : readValue size nesting t = .ok found) :
    skipSpacing t = t := by
  cases t with
  | nil => rfl
  | cons c t =>
      cases hc : isSpacing c with
      | false => simp [skipSpacing, hc]
      | true =>
          simp only [isSpacing, Bool.or_eq_true, beq_iff_eq] at hc
          rcases hc with ((rfl | rfl) | rfl) | rfl
          all_goals
            rw [readValue_of_atom size nesting (by decide) (by decide) (by decide)] at h
            cases h

theorem skipSpacing_newLine
    (depth : Nat)
    (t : Text) :
    skipSpacing (newLine depth ++ t) = skipSpacing t := by
  have hblanks : ∀ d ∈ newLine depth, isSpacing d = true := by
    intro d hd
    rcases List.mem_cons.mp hd with rfl | hd
    · rfl
    · rw [List.eq_of_mem_replicate hd]
      rfl
  exact List.dropWhile_append_of_pos hblanks

/-- A key with its colon is read up to the value. -/
theorem readKey?_quote
    (key : DocText)
    {t : Text}
    (ht : skipSpacing t = t) :
    readKey? (quote key ++ ": ".toList ++ t) = some (joinPairs key, t) := by
  have hblank : skipSpacing (' ' :: t) = t := by
    rw [skipSpacing, List.dropWhile_cons_of_pos (by rfl)]
    exact ht
  have htext : quote key ++ ": ".toList ++ t =
      '"' :: (key.flatMap escape ++ '"' :: ':' :: ' ' :: t) := by
    simp [quote]
  rw [htext, readKey?, readQuoted_quote]
  exact congrArg (fun rest => some (joinPairs key, rest)) hblank

/-- What may follow a value in an object. -/
theorem numberEnds_newLine (depth : Nat) (t : Text) : NumberEnds (newLine depth ++ t) := by
  rintro c ⟨⟩
  decide

theorem numberEnds_comma (t : Text) : NumberEnds (',' :: t) := by
  rintro c ⟨⟩
  decide

def rejoinedField (field : DocText × Value) : DocText × Value :=
  (joinPairs field.1, field.2.rejoined)

section

variable {size nesting depth fuel : Nat} {key : DocText} {v : Value} {tail rest : Text}

/-- The last field is followed by the closing brace. -/
theorem readFields_last
    (hv : v.Writable)
    (htail : NumberEnds tail)
    (hend : skipSpacing tail = '\x7d' :: rest) :
    readFields (readValue size nesting) (fuel + 1)
        (quote key ++ ": ".toList ++ (write depth v ++ tail)) =
      .ok ([rejoinedField (key, v)], rest) := by
  have hvalue := readValue_write size nesting depth hv htail
  have hkey := readKey?_quote key (skipSpacing_of_readValue hvalue)
  rw [readFields, hkey]
  simp only [orMalformed, bind, Except.bind, hvalue, hend]
  rfl

/-- Any other field is followed by a comma and the fields after it. -/
theorem readFields_more
    (hv : v.Writable)
    (htail : NumberEnds tail)
    {more : Text}
    (hcomma : skipSpacing tail = ',' :: more)
    {fields : List (DocText × Value)}
    (hmore : readFields (readValue size nesting) fuel (skipSpacing more) = .ok (fields, rest)) :
    readFields (readValue size nesting) (fuel + 1)
        (quote key ++ ": ".toList ++ (write depth v ++ tail)) =
      .ok (rejoinedField (key, v) :: fields, rest) := by
  have hvalue := readValue_write size nesting depth hv htail
  have hkey := readKey?_quote key (skipSpacing_of_readValue hvalue)
  rw [readFields, hkey]
  simp only [orMalformed, bind, Except.bind, hvalue, hcomma, hmore]
  rfl

end

/-- The fields of an object up to its closing brace are read back one by one. -/
theorem readFields_writeFields
    (size nesting depth : Nat)
    (key : DocText)
    {v : Value}
    {fields : List (DocText × Value)}
    (hv : v.Writable)
    (hfields : ∀ field ∈ fields, field.2.Writable)
    {fuel : Nat}
    (hfuel : fields.length < fuel)
    (rest : Text) :
    readFields (readValue size nesting) fuel
        (quote key ++ ": ".toList ++
          (write depth v ++ (writeFields depth fields ++ (newLine 0 ++ '\x7d' :: rest)))) =
      .ok (rejoinedField (key, v) :: fields.map rejoinedField, rest) := by
  obtain ⟨fuel, rfl⟩ := Nat.exists_eq_succ_of_ne_zero (Nat.ne_zero_of_lt hfuel)
  induction fields generalizing key v fuel with
  | nil =>
      rw [writeFields, List.nil_append]
      exact readFields_last hv (numberEnds_newLine 0 _) (skipSpacing_newLine 0 _)
  | cons field fields ih =>
      obtain ⟨key', v'⟩ := field
      rw [List.length_cons] at hfuel
      obtain ⟨fuel, rfl⟩ := Nat.exists_eq_succ_of_ne_zero (show fuel ≠ 0 by omega)
      have htail : writeFields depth ((key', v') :: fields) ++ (newLine 0 ++ '\x7d' :: rest) =
          ',' :: (newLine depth ++ (quote key' ++ ": ".toList ++
            (write depth v' ++ (writeFields depth fields ++ (newLine 0 ++ '\x7d' :: rest))))) := by
        simp [writeFields]
      rw [htail]
      refine readFields_more hv (numberEnds_comma _) rfl ?_
      rw [skipSpacing_newLine]
      exact ih key' (hfields (key', v') List.mem_cons_self)
        (fun field hfield => hfields field (List.mem_cons_of_mem _ hfield)) fuel (by omega)

/-- There are at least as many characters as fields. -/
theorem length_le_writeFields
    (depth : Nat)
    (fields : List (DocText × Value)) :
    fields.length ≤ (writeFields depth fields).length := by
  induction fields with
  | nil => exact Nat.zero_le _
  | cons field fields ih =>
      obtain ⟨key, v⟩ := field
      simp only [writeFields, List.cons_append, List.length_cons, List.length_append]
      omega

/-- An object is read from its brace on. -/
theorem readValue_object
    {size nesting : Nat}
    {t : Text}
    {fields : List (DocText × Value)}
    {rest : Text}
    (hquote : t.head? = some '"')
    (hfields : readFields (readValue size nesting) size t = .ok (fields, rest))
    (depth : Nat) :
    readValue size (nesting + 1) ('\x7b' :: (newLine depth ++ t)) =
      .ok (Value.ofFields fields, rest) := by
  obtain ⟨t, rfl⟩ : ∃ u, t = '"' :: u := List.head?_eq_some_iff.mp hquote
  have hstart : skipSpacing ('"' :: t) = '"' :: t := rfl
  rw [readValue, skipSpacing_newLine, hstart]
  split
  · rename_i hbrace
    cases hbrace
  · rw [hfields]
    rfl

/-- A document of one object whose values have no parts is read as that object, with the
surrogate pairs of its texts joined. -/
theorem read_write_object
    (depth : Nat)
    {fields : List (DocText × Value)}
    (hnonempty : fields ≠ [])
    (hfields : ∀ field ∈ fields, field.2.Writable) :
    read (depth + 1) (write 0 (.object fields)) =
      .ok (Value.ofFields (fields.map rejoinedField)) := by
  obtain ⟨⟨key, v⟩, fields, rfl⟩ := List.exists_cons_of_ne_nil hnonempty
  have htext : write 0 (.object ((key, v) :: fields)) =
      '\x7b' :: (newLine 1 ++ (quote key ++ ": ".toList ++
        (write 1 v ++ (writeFields 1 fields ++ (newLine 0 ++ ['\x7d']))))) := by
    simp [write]
  have hlength : fields.length < (write 0 (.object ((key, v) :: fields))).length := by
    have hle := length_le_writeFields 1 fields
    rw [htext]
    simp only [List.length_cons, List.length_append]
    omega
  have hread := readFields_writeFields (write 0 (.object ((key, v) :: fields))).length depth 1 key
    (hfields (key, v) List.mem_cons_self)
    (fun field hfield => hfields field (List.mem_cons_of_mem _ hfield)) hlength []
  have hvalue := readValue_object rfl hread 1
  have hstart : skipSpacing (write 0 (.object ((key, v) :: fields))) =
      write 0 (.object ((key, v) :: fields)) := by
    rw [htext]
    rfl
  rw [← htext] at hvalue
  rw [read, hstart, hvalue]
  rfl

end Document
end DualTurret
