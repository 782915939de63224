import DualTurret.Machine.Storage
import DualTurret.Proofs.Document.Fields
import DualTurret.Proofs.Text.Utf8
import Mathlib.Data.List.Nodup

/-!
# Saving and loading configurations

A saved configuration is a document of six fields with distinct keys.  Its bytes decode to its
text, the text is read as the object of the six fields, and the fields fit a configuration
again.  So what is loaded is what was saved, and no default stands in for it.

Main fact: `Config.load?_save?`.
-/

namespace DualTurret

/-- No text holds two halves of a surrogate pair side by side. -/
def Value.Separate : Value → Prop
  | .text t => t.Separate
  | _ => True

def Value.Spelled : Value → Prop
  | .text t => ∃ u : Text, t = DocText.ofText u
  | _ => True

namespace Value

theorem Spelled.separate {v : Value} (h : v.Spelled) : v.Separate := by
  cases v with
  | text t =>
      obtain ⟨u, rfl⟩ := h
      exact DocText.separate_ofText u
  | _ => trivial

theorem rejoined_eq_self_iff {v : Value} : v.rejoined = v ↔ v.Separate := by
  cases v with
  | text t =>
      rw [rejoined, Separate, text.injEq]
      exact DocText.joinPairs_eq_self_iff
  | _ => exact ⟨fun _ => trivial, fun _ => rfl⟩

theorem setField_of_notMem
    {fields : List (DocText × Value)}
    {key : DocText}
    (h : key ∉ fields.map Prod.fst)
    (value : Value) :
    setField fields key value = fields ++ [(key, value)] := by
  have hany : (fields.any fun field => field.1 == key) = false := by
    rw [List.any_eq_false]
    intro field hfield hkey
    exact h (List.mem_map.mpr ⟨field, hfield, eq_of_beq hkey⟩)
  rw [setField, if_neg (by simp [hany])]

/-- Fields whose keys are new go to the end, in order. -/
theorem foldl_setField
    {fields given : List (DocText × Value)}
    (h : ((fields ++ given).map Prod.fst).Nodup) :
    given.foldl (fun fields field => setField fields field.1 field.2) fields =
      fields ++ given := by
  induction given generalizing fields with
  | nil => rw [List.foldl_nil, List.append_nil]
  | cons field given ih =>
      have hkey : field.1 ∉ fields.map Prod.fst := by
        intro hmem
        rw [List.map_append, List.map_cons] at h
        exact (List.nodup_append.mp h).2.2 _ hmem _ List.mem_cons_self rfl
      rw [List.foldl_cons, setField_of_notMem hkey, ih (by simpa using h), List.append_assoc]
      rfl

/-- Fields with distinct keys make up their object as they are. -/
theorem ofFields_of_nodup
    {given : List (DocText × Value)}
    (h : (given.map Prod.fst).Nodup) :
    ofFields given = .object given :=
  congrArg object (foldl_setField h)

end Value

namespace Config

def rejoined (c : Config) : Config where
  name := c.name.rejoined
  dialect := c.dialect.rejoined
  maxSpindleSpeed := c.maxSpindleSpeed.rejoined
  minFeedRate := c.minFeedRate.rejoined
  maxBlockLength := c.maxBlockLength.rejoined
  releaseLookahead := c.releaseLookahead.rejoined

theorem fields_rejoined (c : Config) : c.fields.map Document.rejoinedField = c.rejoined.fields := by
  have hkey : ∀ key : Text, Document.joinPairs (DocText.ofText key) = DocText.ofText key :=
    fun key => DocText.joinPairs_eq_self_iff.mpr (DocText.separate_ofText key)
  simp [fields, keys, rejoined, Document.rejoinedField, hkey]

theorem nodup_keys (c : Config) : (c.fields.map Prod.fst).Nodup := by
  have hkeys : c.fields.map Prod.fst = keys.map DocText.ofText := rfl
  rw [hkeys]
  decide +kernel

/-- A configuration is read back from its own fields. -/
theorem ofFields?_fields (c : Config) : ofFields? c.fields = some c :=
  rfl

theorem forall_fields_iff
    {c : Config}
    {holds : Value → Prop} :
    (∀ field ∈ c.fields, holds field.2) ↔
      holds c.name ∧ holds c.dialect ∧ holds c.maxSpindleSpeed ∧ holds c.minFeedRate ∧
        holds c.maxBlockLength ∧ holds c.releaseLookahead := by
  simp [fields, keys]

theorem rejoined_eq_self_iff
    {c : Config} :
    c.rejoined = c ↔ ∀ field ∈ c.fields, field.2.Separate := by
  rw [forall_fields_iff]
  simp only [← Value.rejoined_eq_self_iff]
  cases c
  simp [rejoined]

/-- A value without parts lies at the top. -/
theorem height_of_writable {v : Value} (h : v.Writable) : v.height = 0 := by
  cases v with
  | list items => cases h
  | object fields => cases h
  | _ => rw [Value.height]

/-- A configuration without lists and objects is saved. -/
theorem save?_of_writable
    (height : Nat)
    {c : Config}
    (hc : ∀ field ∈ c.fields, field.2.Writable) :
    c.save? height = some (Document.write 0 (.object c.fields)) := by
  rw [save?, if_pos]
  rw [List.all_eq_true]
  intro field hfield
  simp [height_of_writable (hc field hfield)]

/-- The text of a configuration without lists and objects is loaded as the configuration, with
the surrogate pairs of its texts joined. -/
theorem load?_encode_write
    {depth : Nat}
    (hdepth : 0 < depth)
    {c : Config}
    (hc : ∀ field ∈ c.fields, field.2.Writable) :
    load? depth (some (Utf8.encode (Document.write 0 (.object c.fields)))) =
      some ⟨c.rejoined, false⟩ := by
  obtain ⟨inner, rfl⟩ := Nat.exists_eq_add_of_lt hdepth
  rw [Nat.zero_add]
  have hread := Document.read_write_object inner (by simp [fields, keys]) hc
  rw [fields_rejoined, Value.ofFields_of_nodup (nodup_keys c.rejoined)] at hread
  have hparse : parse (inner + 1) (Utf8.encode (Document.write 0 (.object c.fields))) =
      .ok c.rejoined := by
    rw [parse, Utf8.decode?_encode]
    simp only [Document.orMalformed, bind, Except.bind, hread, ofValue?, ofFields?_fields]
  simp only [load?, Option.map_some, hparse]

/-- A configuration whose fields are texts, numbers, truth values or null is saved, and what is
loaded from the file is that configuration, without a warning.  Only halves of a surrogate pair
that stand side by side in a text do not come back as they were: they are joined. -/
theorem load?_save?
    (height depth : Nat)
    (hdepth : 0 < depth)
    (c : Config)
    (hc : ∀ field ∈ c.fields, field.2.Writable) :
    ∃ content, c.save? height = some content ∧
      load? depth (some (Utf8.encode content)) = some ⟨c.rejoined, false⟩ ∧
      (c.rejoined = c ↔ ∀ field ∈ c.fields, field.2.Separate) ∧
      ((∀ field ∈ c.fields, field.2.Separate) →
        load? depth (some (Utf8.encode content)) = some ⟨c, false⟩) ∧
      ((∀ field ∈ c.fields, field.2.Spelled) →
        load? depth (some (Utf8.encode content)) = some ⟨c, false⟩) := by
  have hload := load?_encode_write hdepth hc
  have hseparate : (∀ field ∈ c.fields, field.2.Separate) →
      load? depth (some (Utf8.encode (Document.write 0 (.object c.fields)))) =
        some ⟨c, false⟩ := by
    intro h
    rw [hload, rejoined_eq_self_iff.mpr h]
  refine ⟨_, save?_of_writable height hc, hload, rejoined_eq_self_iff, hseparate, ?_⟩
  intro hspelled
  exact hseparate fun field hfield => (hspelled field hfield).separate

/-- A name with a quote, escapes and a character beyond sixteen bits, and the negative number of
the smallest magnitude. -/
theorem load?_save?_odd_name :
    ∃ c : Config, c.name = Value.ofText "\"\\\n\x7fé😀".toList ∧
      c.maxSpindleSpeed = Value.ofInt (-12000) ∧
      c.minFeedRate = .number (.real (.finite true ⟨1, by decide⟩)) ∧
      (∀ field ∈ c.fields, field.2.Writable) ∧
      ∃ content, c.save? 495 = some content ∧
        load? 990 (some (Utf8.encode content)) = some ⟨c, false⟩ := by
  refine ⟨{ integrex100 with
    name := Value.ofText "\"\\\n\x7fé😀".toList
    maxSpindleSpeed := Value.ofInt (-12000)
    minFeedRate := .number (.real (.finite true ⟨1, by decide⟩)) }, rfl, rfl, rfl, ?_⟩
  have hwritable : ∀ field ∈ Config.fields { integrex100 with
      name := Value.ofText "\"\\\n\x7fé😀".toList
      maxSpindleSpeed := Value.ofInt (-12000)
      minFeedRate := .number (.real (.finite true ⟨1, by decide⟩)) }, field.2.Writable :=
    forall_fields_iff.mpr ⟨trivial, trivial, by decide, trivial, by decide, by decide⟩
  obtain ⟨content, hsave, _, _, _, hload⟩ := load?_save? 495 990 (by decide) _ hwritable
  refine ⟨hwritable, content, hsave, hload ?_⟩
  exact forall_fields_iff.mpr ⟨⟨_, rfl⟩, ⟨_, rfl⟩, trivial, trivial, trivial, trivial⟩

/-- A name of two code points, the halves of one pair, comes back as the one code point of the
pair: the file holds the same escapes for both. -/
theorem load?_save?_joins_halves :
    ∃ c : Config, c.name = .text [0xD83D, 0xDE00] ∧
      (∀ field ∈ c.fields, field.2.Writable) ∧
      ∃ content, c.save? 495 = some content ∧
        load? 990 (some (Utf8.encode content)) =
          some ⟨{ c with name := .text [0x1F600] }, false⟩ ∧
        load? 990 (some (Utf8.encode content)) ≠ some ⟨c, false⟩ := by
  have hwritable : ∀ field ∈ Config.fields { integrex100 with name := .text [0xD83D, 0xDE00] },
      field.2.Writable :=
    forall_fields_iff.mpr ⟨trivial, trivial, by decide, trivial, by decide, by decide⟩
  have hdepth : 0 < 990 := by decide
  have hload := load?_encode_write hdepth hwritable
  have hrejoined : rejoined { integrex100 with name := .text [0xD83D, 0xDE00] } =
      { integrex100 with name := .text [0x1F600] } := rfl
  rw [hrejoined] at hload
  refine ⟨_, rfl, hwritable, _, save?_of_writable 495 hwritable, hload, ?_⟩
  rw [hload]
  intro hsame
  cases hsame

end Config
end DualTurret
