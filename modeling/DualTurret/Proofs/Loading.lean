import DualTurret.Proofs.Document.Reading
import DualTurret.Proofs.Storage

/-!
# Loading is all or nothing

A file is loaded exactly if its bytes are the bytes of a text, the text is a document of an
object, the object has a name and no key that a configuration does not have.  Then each field
has the last value that was given for its key, or its default; no warning is raised.  In every
other case the default preset stands in as it is.  Nothing is loaded only from a document that
nests too deep.

Main facts:
* `Config.parse_eq_ok_iff`: what is taken from the bytes of a file;
* `Config.load?_eq_none_iff`: the files that are not loaded at all;
* `Config.load?_all_or_nothing`.
-/

namespace DualTurret

/-! ## The last value of a key -/

namespace Value

variable {fields : List (DocText × Value)}

theorem lookup_append
    (fields more : List (DocText × Value))
    (key : Text) :
    lookup (fields ++ more) key = (lookup fields key).or (lookup more key) := by
  rw [lookup, List.find?_append, Option.map_or]
  rfl

theorem isSome_lookup_iff
    {key : Text} :
    (lookup fields key).isSome ↔ DocText.ofText key ∈ fields.map Prod.fst := by
  rw [lookup, Option.isSome_map, List.find?_isSome, List.mem_map]
  exact exists_congr fun field => and_congr_right fun _ => beq_iff_eq

theorem lookup_singleton_of_eq
    {field : DocText × Value}
    {key : Text}
    (h : field.1 = DocText.ofText key) :
    lookup [field] key = some field.2 := by
  rw [lookup, List.find?_cons_of_pos (by simpa using h)]
  rfl

theorem lookup_singleton_of_ne
    {field : DocText × Value}
    {key : Text}
    (h : field.1 ≠ DocText.ofText key) :
    lookup [field] key = none := by
  rw [lookup, List.find?_cons_of_neg (by simpa using h)]
  rfl

/-- Replaces the value of a field with this key. -/
def replaceField (k : DocText) (v : Value) (field : DocText × Value) : DocText × Value :=
  if field.1 == k then (k, v) else field

theorem fst_replaceField
    (k : DocText)
    (v : Value)
    (field : DocText × Value) :
    (replaceField k v field).1 = field.1 := by
  unfold replaceField
  split_ifs with hkey
  · exact (eq_of_beq hkey).symm
  · rfl

/-- A key that is there keeps its place and gets the new value. -/
theorem setField_of_mem
    {k : DocText}
    (h : k ∈ fields.map Prod.fst)
    (v : Value) :
    setField fields k v = fields.map (replaceField k v) := by
  obtain ⟨field, hfield, rfl⟩ := List.mem_map.mp h
  exact if_pos (List.any_eq_true.mpr ⟨field, hfield, beq_self_eq_true field.1⟩)

/-- Setting a field adds at most its key. -/
theorem mem_keys_setField
    {key k : DocText}
    {v : Value} :
    key ∈ (setField fields k v).map Prod.fst ↔ key ∈ fields.map Prod.fst ∨ key = k := by
  by_cases hk : k ∈ fields.map Prod.fst
  · rw [setField_of_mem hk, List.map_map]
    have hfst : Prod.fst ∘ replaceField k v = Prod.fst := funext (fst_replaceField k v)
    rw [hfst]
    exact ⟨.inl, fun h => h.elim id fun heq => heq ▸ hk⟩
  · rw [setField_of_notMem hk, List.map_append, List.mem_append]
    simp

/-- Setting a field changes the value of its key and of no other. -/
theorem lookup_setField
    (fields : List (DocText × Value))
    (field : DocText × Value)
    (key : Text) :
    lookup (setField fields field.1 field.2) key =
      (lookup [field] key).or (lookup fields key) := by
  by_cases hk : field.1 ∈ fields.map Prod.fst
  · have hlookup : lookup (fields.map (replaceField field.1 field.2)) key =
        (fields.find? fun other => other.1 == DocText.ofText key).map
          fun other => (replaceField field.1 field.2 other).2 := by
      rw [lookup, List.find?_map, Option.map_map]
      simp only [Function.comp_def, fst_replaceField]
    rw [setField_of_mem hk, hlookup]
    by_cases hkey : field.1 = DocText.ofText key
    · rw [lookup_singleton_of_eq hkey, Option.some_or]
      have hsome : (fields.find? fun other => other.1 == DocText.ofText key).isSome := by
        rw [hkey, ← isSome_lookup_iff, lookup, Option.isSome_map] at hk
        exact hk
      obtain ⟨other, hother⟩ := Option.isSome_iff_exists.mp hsome
      have hfound := List.find?_some hother
      rw [← hkey] at hfound
      rw [hother, Option.map_some, replaceField, if_pos hfound]
    · rw [lookup_singleton_of_ne hkey, Option.none_or, lookup]
      cases hother : fields.find? fun other => other.1 == DocText.ofText key with
      | none => rfl
      | some other =>
          have hfound := List.find?_some hother
          have hne : ¬ (other.1 == field.1) = true := by
            rw [beq_iff_eq] at hfound ⊢
            exact fun heq => hkey (heq ▸ hfound)
          rw [Option.map_some, replaceField, if_neg hne]
          rfl
  · rw [setField_of_notMem hk, lookup_append]
    by_cases hkey : field.1 = DocText.ofText key
    · have hnone : lookup fields key = none := by
        rw [← Option.not_isSome_iff_eq_none, isSome_lookup_iff, ← hkey]
        exact hk
      rw [hnone, Option.none_or, Option.or_none]
    · rw [lookup_singleton_of_ne hkey, Option.none_or, Option.or_none]

/-- The object of some fields has the keys that were given. -/
theorem mem_keys_foldl_setField
    {given : List (DocText × Value)}
    {key : DocText} :
    key ∈ (given.foldl (fun fields field => setField fields field.1 field.2) fields).map Prod.fst ↔
      key ∈ fields.map Prod.fst ∨ key ∈ given.map Prod.fst := by
  induction given generalizing fields with
  | nil => simp
  | cons field given ih =>
      rw [List.foldl_cons, ih, mem_keys_setField, List.map_cons, List.mem_cons, or_assoc]

/-- Of several values given for a key, the object has the last. -/
theorem lookup_foldl_setField
    (given : List (DocText × Value))
    (key : Text) :
    lookup (given.foldl (fun fields field => setField fields field.1 field.2) fields) key =
      (lookup given.reverse key).or (lookup fields key) := by
  induction given generalizing fields with
  | nil => rfl
  | cons field given ih =>
      rw [List.foldl_cons, ih, lookup_setField, List.reverse_cons, lookup_append, Option.or_assoc]

end Value

namespace Config

/-- The keys with their defaults.  A name has none. -/
def declared : List (Text × Option Value) :=
  let base : Config := { name := .null }
  keys.zip [none, some base.dialect, some base.maxSpindleSpeed, some base.minFeedRate,
    some base.maxBlockLength, some base.releaseLookahead]

/-- There is a name, and no key that a configuration does not have. -/
structure Fits (given : List (DocText × Value)) : Prop where
  named : DocText.ofText "name".toList ∈ given.map Prod.fst
  known : ∀ key ∈ given.map Prod.fst, key ∈ keys.map DocText.ofText

/-- Each field has the last value given for its key, or its default. -/
def TakenFrom (c : Config) (given : List (DocText × Value)) : Prop :=
  ∀ entry ∈ declared,
    Value.lookup c.fields entry.1 = (Value.lookup given.reverse entry.1).or entry.2

/-- The file holds the bytes of a document of an object with these fields. -/
def Gives (depth : Nat) (file : Option (List UInt8)) (given : List (DocText × Value)) : Prop :=
  ∃ content, file = some (Utf8.encode content) ∧ Document.HoldsObject depth content given

/-- The file holds the bytes of a document that nests deeper than it is read. -/
def Overnested (depth : Nat) (file : Option (List UInt8)) : Prop :=
  ∃ content, file = some (Utf8.encode content) ∧ Document.NestsTooDeep depth content

/-- Some values make up a configuration if they are those of its six keys. -/
theorem forall_declared_iff
    (found : Text → Option Value)
    (c : Config) :
    (∀ entry ∈ declared, Value.lookup c.fields entry.1 = (found entry.1).or entry.2) ↔
      found "name".toList = some c.name ∧
      (found "dialect".toList).getD integrex100.dialect = c.dialect ∧
      (found "max_spindle_speed".toList).getD integrex100.maxSpindleSpeed = c.maxSpindleSpeed ∧
      (found "min_feed_rate".toList).getD integrex100.minFeedRate = c.minFeedRate ∧
      (found "max_block_length".toList).getD integrex100.maxBlockLength = c.maxBlockLength ∧
      (found "release_lookahead_lines".toList).getD integrex100.releaseLookahead =
        c.releaseLookahead := by
  have hname : Value.lookup c.fields "name".toList = some c.name := rfl
  have hdialect : Value.lookup c.fields "dialect".toList = some c.dialect := rfl
  have hspeed : Value.lookup c.fields "max_spindle_speed".toList = some c.maxSpindleSpeed := rfl
  have hfeed : Value.lookup c.fields "min_feed_rate".toList = some c.minFeedRate := rfl
  have hlength : Value.lookup c.fields "max_block_length".toList = some c.maxBlockLength := rfl
  have hahead : Value.lookup c.fields "release_lookahead_lines".toList =
    some c.releaseLookahead := rfl
  unfold declared keys
  simp only [List.zip_cons_cons, List.zip_nil_right, List.forall_mem_cons, hname, hdialect,
    hspeed, hfeed, hlength, hahead, Option.or_none, Option.or_some, Option.some.injEq,
    List.not_mem_nil, false_implies, implies_true, and_true, eq_comm, integrex100]

theorem all_known_iff
    {given : List (DocText × Value)} :
    (given.all fun field => (keys.map DocText.ofText).contains field.1) = true ↔
      ∀ key ∈ given.map Prod.fst, key ∈ keys.map DocText.ofText := by
  rw [List.all_eq_true, List.forall_mem_map]
  exact forall₂_congr fun field _ => List.contains_iff_mem

/-- Fields make up a configuration exactly if they fit and each counts in its place. -/
theorem ofFields?_eq_some_iff
    {given : List (DocText × Value)}
    {c : Config} :
    ofFields? given = some c ↔ Fits given ∧ ∀ entry ∈ declared,
      Value.lookup c.fields entry.1 = (Value.lookup given entry.1).or entry.2 := by
  rw [forall_declared_iff (Value.lookup given) c]
  by_cases hknown : ∀ key ∈ given.map Prod.fst, key ∈ keys.map DocText.ofText
  · rw [ofFields?, if_pos (all_known_iff.mpr hknown)]
    cases hname : Value.lookup given "name".toList with
    | none => simp
    | some name =>
        have hfits : Fits given := ⟨Value.isSome_lookup_iff.mp (by rw [hname]; rfl), hknown⟩
        obtain ⟨name', dialect, speed, feed, length, ahead⟩ := c
        simp [hfits, integrex100]
  · rw [ofFields?, if_neg fun hall => hknown (all_known_iff.mp hall)]
    exact ⟨nofun, fun h => absurd h.1.known hknown⟩

/-- Fields that fit make a configuration. -/
theorem exists_ofFields?
    {given : List (DocText × Value)}
    (h : Fits given) :
    ∃ c, ofFields? given = some c := by
  obtain ⟨name, hname⟩ := Option.isSome_iff_exists.mp (Value.isSome_lookup_iff.mpr h.named)
  rw [ofFields?, if_pos (all_known_iff.mpr h.known), hname]
  exact ⟨_, rfl⟩

/-- The fields of an object are those that were given for it, so they fit together. -/
theorem fits_foldl_setField_iff
    {given : List (DocText × Value)} :
    Fits (given.foldl (fun fields field => Value.setField fields field.1 field.2) []) ↔
      Fits given := by
  have hkeys : ∀ key, key ∈ (given.foldl
      (fun fields field => Value.setField fields field.1 field.2) []).map Prod.fst ↔
        key ∈ given.map Prod.fst := by
    intro key
    rw [Value.mem_keys_foldl_setField]
    simp
  constructor
  · rintro ⟨hnamed, hknown⟩
    exact ⟨(hkeys _).mp hnamed, fun key hkey => hknown key ((hkeys key).mpr hkey)⟩
  · rintro ⟨hnamed, hknown⟩
    exact ⟨(hkeys _).mpr hnamed, fun key hkey => hknown key ((hkeys key).mp hkey)⟩

/-- An object is a configuration exactly if its fields as given fit; the last values count. -/
theorem ofValue?_ofFields_eq_some_iff
    {given : List (DocText × Value)}
    {c : Config} :
    ofValue? (Value.ofFields given) = some c ↔ Fits given ∧ c.TakenFrom given := by
  have hlookup : ∀ key, Value.lookup (given.foldl
      (fun fields field => Value.setField fields field.1 field.2) []) key =
        Value.lookup given.reverse key := by
    intro key
    rw [Value.lookup_foldl_setField]
    exact Option.or_none
  rw [Value.ofFields, ofValue?, ofFields?_eq_some_iff, fits_foldl_setField_iff]
  simp only [hlookup]
  rfl

theorem exists_takenFrom
    {given : List (DocText × Value)}
    (h : Fits given) :
    ∃ c : Config, c.TakenFrom given := by
  obtain ⟨c, hc⟩ := exists_ofFields? (fits_foldl_setField_iff.mpr h)
  exact ⟨c, (ofValue?_ofFields_eq_some_iff.mp hc).2⟩

/-! ## Files -/

section

variable {depth : Nat}

/-- What the bytes of a text give is what the text is read as, if that is a configuration. -/
theorem parse_encode_eq
    (content : Text) :
    parse depth (Utf8.encode content) =
      Document.read depth content >>= fun value => Document.orMalformed (ofValue? value) := by
  rw [parse, Utf8.decode?_encode]
  rfl

theorem exists_encode_of_parse_ne
    {bytes : List UInt8}
    (h : parse depth bytes ≠ .error .malformed) :
    ∃ content, bytes = Utf8.encode content := by
  cases hdecode : Utf8.decode? bytes with
  | some content => exact ⟨content, Utf8.decode?_eq_some_iff.mp hdecode⟩
  | none =>
      rw [parse, hdecode] at h
      exact absurd rfl h

/-- A configuration is taken from the bytes of a file exactly if they give fields that fit. -/
theorem parse_eq_ok_iff
    {bytes : List UInt8}
    {c : Config} :
    parse depth bytes = .ok c ↔
      ∃ given, Gives depth (some bytes) given ∧ Fits given ∧ c.TakenFrom given := by
  constructor
  · intro h
    obtain ⟨content, rfl⟩ := exists_encode_of_parse_ne (by rw [h]; exact nofun)
    rw [parse_encode_eq] at h
    cases hread : Document.read depth content with
    | error e =>
        rw [hread] at h
        cases h
    | ok value =>
        rw [hread] at h
        cases hvalue : ofValue? value with
        | none =>
            simp only [bind, Except.bind, hvalue] at h
            cases h
        | some c' =>
            simp only [bind, Except.bind, hvalue] at h
            cases Except.ok.inj h
            cases value with
            | object fields =>
                obtain ⟨given, hobject⟩ := Document.exists_holdsObject_of_read hread
                rw [hobject.read_eq] at hread
                rw [← Except.ok.inj hread] at hvalue
                exact ⟨given, ⟨content, rfl, hobject⟩, ofValue?_ofFields_eq_some_iff.mp hvalue⟩
            | _ => cases hvalue
  · rintro ⟨given, ⟨content, hfile, hobject⟩, hfits, htaken⟩
    cases Option.some.inj hfile
    have hvalue := ofValue?_ofFields_eq_some_iff.mpr ⟨hfits, htaken⟩
    rw [parse_encode_eq, hobject.read_eq]
    simp only [bind, Except.bind, hvalue]
    rfl

/-- Reading is left by depth exactly where the document nests too deep. -/
theorem parse_eq_tooDeep_iff
    {bytes : List UInt8} :
    parse depth bytes = .error .tooDeep ↔ Overnested depth (some bytes) := by
  constructor
  · intro h
    obtain ⟨content, rfl⟩ := exists_encode_of_parse_ne (by rw [h]; exact nofun)
    refine ⟨content, rfl, Document.read_eq_tooDeep_iff.mp ?_⟩
    rw [parse_encode_eq] at h
    cases hread : Document.read depth content with
    | error e =>
        rw [hread] at h
        exact congrArg _ (Except.error.inj h)
    | ok value =>
        rw [hread] at h
        exact absurd h (Document.orMalformed_ne_tooDeep _)
  · rintro ⟨content, hfile, hdeep⟩
    cases Option.some.inj hfile
    rw [parse_encode_eq, Document.read_eq_tooDeep_iff.mpr hdeep]
    rfl

/-- Only from a document that nests too deep nothing is loaded. -/
theorem load?_eq_none_iff
    {file : Option (List UInt8)} :
    load? depth file = none ↔ Overnested depth file := by
  cases file with
  | none => exact ⟨nofun, nofun⟩
  | some bytes =>
      rw [← parse_eq_tooDeep_iff]
      cases hparse : parse depth bytes with
      | ok c => simp [load?, hparse]
      | error e => cases e <;> simp [load?, hparse]

/-- What is loaded without a warning is what the file holds. -/
theorem load?_eq_unwarned_iff
    {file : Option (List UInt8)}
    {c : Config} :
    load? depth file = some ⟨c, false⟩ ↔
      ∃ given, Gives depth file given ∧ Fits given ∧ c.TakenFrom given := by
  cases file with
  | none => simp [load?, Gives]
  | some bytes =>
      rw [← parse_eq_ok_iff]
      cases hparse : parse depth bytes with
      | ok c' => simp [load?, hparse]
      | error e => cases e <;> simp [load?, hparse]

/-- What is loaded with a warning is the default preset. -/
theorem config_of_load?_warned
    {file : Option (List UInt8)}
    {c : Config}
    (h : load? depth file = some ⟨c, true⟩) :
    c = integrex100 := by
  unfold load? at h
  split at h
  · cases h
  · cases h
  · cases h
    rfl

/-- A file gives its fields in one way only. -/
theorem Gives.unique
    {file : Option (List UInt8)}
    {given others : List (DocText × Value)}
    (h : Gives depth file given)
    (hothers : Gives depth file others) :
    given = others := by
  obtain ⟨content, rfl, hobject⟩ := h
  obtain ⟨content', hfile, hobject'⟩ := hothers
  have hdecode := Utf8.decode?_encode content
  rw [Option.some.inj hfile, Utf8.decode?_encode] at hdecode
  cases Option.some.inj hdecode
  exact hobject.unique hobject'

end

/-- Loading takes all of a file or nothing of it.  Whatever bytes a file holds, and also if there
are none to be had, there is a configuration unless the document nests too deep.  Without a
warning each of its fields has the last value given for its key in the file, or its default.
With a warning it is the default preset.  There is no warning exactly if the bytes are those of
a text that is a document of an object, with a name and with no key but the six. -/
theorem load?_all_or_nothing
    (depth : Nat)
    (file : Option (List UInt8))
    (hdepth : ¬ Overnested depth file) :
    ∃ choice, load? depth file = some choice ∧
      ((choice.warned = false ∧ (∃! given, Gives depth file given) ∧
          ∀ given, Gives depth file given → choice.config.TakenFrom given) ∨
        (choice.warned = true ∧ choice.config = integrex100)) ∧
      (choice.warned = false ↔ ∃ given, Gives depth file given ∧ Fits given) := by
  obtain ⟨⟨c, warned⟩, hload⟩ := Option.ne_none_iff_exists'.mp (mt load?_eq_none_iff.mp hdepth)
  refine ⟨⟨c, warned⟩, hload, ?_⟩
  cases warned with
  | false =>
      obtain ⟨given, hgiven, hfits, htaken⟩ := load?_eq_unwarned_iff.mp hload
      refine ⟨.inl ⟨rfl, ⟨given, hgiven, fun others h => h.unique hgiven⟩, ?_⟩,
        fun _ => ⟨given, hgiven, hfits⟩, fun _ => rfl⟩
      intro others hothers
      rw [← hgiven.unique hothers]
      exact htaken
  | true =>
      refine ⟨.inr ⟨rfl, config_of_load?_warned hload⟩, nofun, ?_⟩
      rintro ⟨given, hgiven, hfits⟩
      obtain ⟨c', htaken⟩ := exists_takenFrom hfits
      rw [load?_eq_unwarned_iff.mpr ⟨given, hgiven, hfits, htaken⟩] at hload
      cases hload

/-- A file that names its machine twice, once with an escape in the key, and gives a limit that
is no number. -/
def twiceNamed : List UInt8 :=
  Utf8.encode
    "\x7b\"name\": \"A\",\n\"min_feed_rate\":NaN , \"na\\u006de\":\"B\"\x7d ".toList

/-- A name that is given twice counts once, as the last one. -/
theorem load?_all_or_nothing_twiceNamed :
    ¬ Overnested 990 (some twiceNamed) ∧ ∃ choice, load? 990 (some twiceNamed) = some choice ∧
      choice.warned = false ∧ choice.config.name.shown = DocText.ofText "B".toList ∧
      ∃ given, Gives 990 (some twiceNamed) given ∧ Fits given ∧ choice.config.TakenFrom given := by
  have hwarned : (load? 990 (some twiceNamed)).map (·.warned) = some false := by decide +kernel
  have hname : (load? 990 (some twiceNamed)).map (·.config.name.shown) =
      some (DocText.ofText "B".toList) := by
    decide +kernel
  have hdepth : ¬ Overnested 990 (some twiceNamed) := by
    intro h
    rw [load?_eq_none_iff.mpr h] at hwarned
    cases hwarned
  obtain ⟨choice, hload, hcases, hiff⟩ := load?_all_or_nothing 990 (some twiceNamed) hdepth
  rw [hload] at hwarned hname
  have hunwarned : choice.warned = false := Option.some.inj hwarned
  obtain ⟨given, hgiven, hfits⟩ := hiff.mp hunwarned
  rcases hcases with ⟨_, _, htaken⟩ | ⟨hother, _⟩
  · exact ⟨hdepth, choice, hload, hunwarned, Option.some.inj hname, given, hgiven, hfits,
      htaken given hgiven⟩
  · rw [hunwarned] at hother
    cases hother

end Config
end DualTurret
