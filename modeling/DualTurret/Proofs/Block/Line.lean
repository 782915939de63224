import DualTurret.Analysis
import Mathlib.Data.List.DropRight

/-!
# Physical lines

What makes a line blank, decoration or a program header, said of its trimmed text,
and what a physical line selects.  Trimming twice is trimming once, so it does not
matter that the tests for comments and headers trim a text that is trimmed already.
-/

namespace DualTurret

namespace Text

theorem trim_eq_rdropWhile
    (t : Text) :
    trim t = (t.dropWhile isBlank).rdropWhile isBlank :=
  rfl

theorem dropWhile_trim (t : Text) : (trim t).dropWhile isBlank = trim t := by
  have hprefix : trim t <+: t.dropWhile isBlank := by
    rw [trim_eq_rdropWhile]
    exact List.rdropWhile_prefix isBlank _
  cases htrim : trim t with
  | nil => rfl
  | cons c rest =>
      rw [htrim] at hprefix
      obtain ⟨tail, htail⟩ := hprefix
      have hhead := List.head?_dropWhile_not isBlank t
      rw [← htail] at hhead
      have hc : isBlank c = false := by simpa using hhead
      exact List.dropWhile_cons_of_neg (by simp [hc])

@[simp] theorem trim_trim (t : Text) : trim (trim t) = trim t := by
  rw [trim_eq_rdropWhile (trim t), dropWhile_trim, trim_eq_rdropWhile,
    List.rdropWhile_idempotent]

/-- A line feed between two texts ends the lines of the first. -/
theorem lines_append (t u : Text) : lines (t ++ '\n' :: u) = lines t ++ lines u :=
  List.splitOn_append_cons_self t u

end Text

namespace Block

/-- A comment begins with a parenthesis once blanks are left out. -/
theorem isComment_iff (line : Text) : isComment line = true ↔ ['('] <+: Text.trim line := by
  unfold isComment
  split
  · rename_i rest htrim
    exact ⟨fun _ => htrim ▸ ⟨rest, rfl⟩, fun _ => rfl⟩
  · rename_i hno
    constructor
    · intro h
      cases h
    · rintro ⟨rest, hrest⟩
      exact absurd hrest.symm (hno rest)

theorem isDivider_iff
    (line : Text) :
    isDivider line = true ↔ ['(', '='] <+: Text.trim line := by
  unfold isDivider
  split
  · rename_i rest htrim
    exact ⟨fun _ => htrim ▸ ⟨rest, rfl⟩, fun _ => rfl⟩
  · rename_i hno
    constructor
    · intro h
      cases h
    · rintro ⟨rest, hrest⟩
      exact absurd hrest.symm (hno rest)

/-- A program number is an O with a digit after it. -/
theorem isProgramNumber_iff
    (line : Text) :
    isProgramNumber line = true ↔
      ∃ c rest, Text.trim line = 'O' :: c :: rest ∧ Text.isDecimal c = true := by
  unfold isProgramNumber
  split
  · rename_i c rest htrim
    constructor
    · intro h
      exact ⟨c, rest, htrim, h⟩
    · rintro ⟨c', rest', htrim', hc⟩
      rw [htrim] at htrim'
      cases htrim'
      exact hc
  · rename_i hno
    constructor
    · intro h
      cases h
    · rintro ⟨c, rest, htrim, _⟩
      exact absurd htrim (hno c rest)

theorem isProgramNumber_trim
    (line : Text) :
    isProgramNumber (Text.trim line) = isProgramNumber line := by
  unfold isProgramNumber
  rw [Text.trim_trim]

/-- A marker of at least one word does not stand in an empty text. -/
theorem holdsMarker_nil
    {marker : Text}
    (h : Text.words marker ≠ []) :
    holdsMarker [] marker = false := by
  have hnone : afterWords? (Text.words marker) [] = none := by
    cases hwords : Text.words marker with
    | nil => exact absurd hwords h
    | cons word words =>
        have hmem : word ∈ Text.words marker := by simp [hwords]
        have hword : word ≠ [] := by
          simpa using (List.mem_filter.mp hmem).2
        cases word with
        | nil => exact absurd rfl hword
        | cons c word =>
            cases words with
            | nil => rfl
            | cons next words => rfl
  simp [holdsMarker, holdsSomewhere, markerAt, hnone]

end Block

namespace Dialect

/-- What a physical line selects: the name of a turret and its marker.  Decoration
selects nothing. -/
def selection? (d : Dialect) (line : Text) : Option (Text × Text) :=
  if ['(', '='] <+: Text.trim line then none else d.selectedTurret? (Text.trim line)

def markers (d : Dialect) : List Text :=
  d.turretSelect.map Prod.snd ++ d.spindleSelect.map Prod.snd ++ d.millingStart ++
    d.millingStop ++ d.crossStart ++ d.crossStop ++ [d.balanceStart, d.balanceEnd]

/-- Every marker has at least one word. -/
def Worded (d : Dialect) : Prop :=
  ∀ marker ∈ d.markers, Text.words marker ≠ []

instance (d : Dialect) : Decidable d.Worded :=
  inferInstanceAs (Decidable (∀ marker ∈ d.markers, Text.words marker ≠ []))

/-- An empty line selects no turret, since every marker has a word. -/
theorem selectedTurret?_nil
    {d : Dialect}
    (hd : d.Worded) :
    d.selectedTurret? [] = none := by
  unfold selectedTurret? Block.heldName?
  rw [List.find?_eq_none]
  intro entry hentry
  have hmarker : entry.2 ∈ d.markers := by
    simp only [markers, List.mem_append]
    simp [List.mem_map_of_mem hentry]
  rw [Block.holdsMarker_nil (hd entry.2 hmarker)]
  simp

/-- A line that is passed over selects nothing. -/
theorem selection?_of_skipped
    {d : Dialect}
    (hd : d.Worded)
    {line : Text}
    (hskip : Machine.isSkipped line = true) :
    d.selection? line = none := by
  unfold selection?
  split_ifs with hdivider
  · rfl
  · have hplain : Block.isDivider line = false := by
      rwa [← Block.isDivider_iff, Bool.not_eq_true] at hdivider
    have hblank : Text.trim line = [] := by
      simpa [Machine.isSkipped, hplain] using hskip
    rw [hblank, selectedTurret?_nil hd]

/-- A line that is not passed over selects by its trimmed text. -/
theorem selection?_of_read
    {d : Dialect}
    {line : Text}
    (hskip : Machine.isSkipped line = false) :
    d.selection? line = d.selectedTurret? (Text.trim line) := by
  have hdivider : ¬ ['(', '='] <+: Text.trim line := by
    rw [← Block.isDivider_iff]
    simp only [Machine.isSkipped, Bool.or_eq_false_iff] at hskip
    simp [hskip.2]
  simp [selection?, hdivider]

end Dialect
end DualTurret
