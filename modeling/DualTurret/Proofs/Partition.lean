import DualTurret.Proofs.Block.Line
import DualTurret.Proofs.Scan.Run

/-!
# Every line has its place

A result divides the physical lines of a program: a line is dropped, or it stands
once in the common section or in the stream of one turret, trimmed and with its own
number.  Where it stands is a matter of the lines up to it.  The scan only remembers
the turret selected last; the invariant `Machine.Reaches.lastSelected` ties this memory
to the lines already read.
-/

namespace DualTurret

namespace Dialect

def SelectsIn (d : Dialect) (lines : List Text) : Prop :=
  ∃ line ∈ lines, d.selection? line ≠ none

/-- The last of the lines that select a turret selects this one. -/
def RoutesTo (d : Dialect) (lines : List Text) (t : Turret) : Prop :=
  ∃ before line after marker, lines = before ++ line :: after ∧
    d.selection? line = some (t.name, marker) ∧ ∀ other ∈ after, d.selection? other = none

/-- The line that follows some others belongs nowhere: it is blank, decoration, or a
program header before the first selection. -/
def Drops (d : Dialect) (before : List Text) (line : Text) : Prop :=
  Text.trim line = [] ∨ ['(', '='] <+: Text.trim line ∨
    (¬ d.SelectsIn (before ++ [line]) ∧
      ∃ c rest, Text.trim line = 'O' :: c :: rest ∧ Text.isDecimal c = true)

/-- One of the lines belongs to a turret and selects a spindle that there is not. -/
def Stops (d : Dialect) (lines : List Text) : Prop :=
  ∃ before line after, lines = before ++ line :: after ∧ ¬ d.Drops before line ∧
    d.selection? line = none ∧ (∃ t, d.RoutesTo (before ++ [line]) t) ∧
    ∃ name, d.UnknownSpindle (Text.trim line) name

/-- The dialect of the lathes, with a marker for a spindle that there is not. -/
def thirdSpindle : Dialect :=
  { integrex with spindleSelect := [("HD3".toList, "M901".toList)] }

/-- The turret that some lines leave selected. -/
def LastSelected
    (d : Dialect)
    (lines : List Text) :
    Option Turret → Prop
  | none => ¬ d.SelectsIn lines
  | some t => d.RoutesTo lines t

theorem RoutesTo.selectsIn
    {d : Dialect}
    {lines : List Text}
    {t : Turret}
    (h : d.RoutesTo lines t) :
    d.SelectsIn lines := by
  obtain ⟨before, line, after, marker, rfl, hline, _⟩ := h
  exact ⟨line, by simp, by simp [hline]⟩

/-- A line that selects a turret routes to it. -/
theorem routesTo_concat
    {d : Dialect}
    (lines : List Text)
    {line : Text}
    {t : Turret}
    {marker : Text}
    (hline : d.selection? line = some (t.name, marker)) :
    d.RoutesTo (lines ++ [line]) t :=
  ⟨lines, line, [], marker, rfl, hline, by simp⟩

/-- A line that selects nothing leaves the selection as it is. -/
theorem LastSelected.concat
    {d : Dialect}
    {lines : List Text}
    {line : Text}
    {turret : Option Turret}
    (h : d.LastSelected lines turret)
    (hline : d.selection? line = none) :
    d.LastSelected (lines ++ [line]) turret := by
  cases turret with
  | none =>
      rintro ⟨other, hother, hselect⟩
      rcases List.mem_append.mp hother with hother | hother
      · exact h ⟨other, hother, hselect⟩
      · rw [List.mem_singleton.mp hother] at hselect
        exact hselect hline
  | some t =>
      obtain ⟨before, first, after, marker, rfl, hfirst, hafter⟩ := h
      refine ⟨before, first, after ++ [line], marker, by simp, hfirst, ?_⟩
      intro other hother
      rcases List.mem_append.mp hother with hother | hother
      · exact hafter other hother
      · rw [List.mem_singleton.mp hother]
        exact hline

/-- A line that is read is dropped only as a header before the first selection. -/
theorem drops_iff_of_read
    {d : Dialect}
    {before : List Text}
    {line : Text}
    (hskip : Machine.isSkipped line = false) :
    d.Drops before line ↔
      ¬ d.SelectsIn (before ++ [line]) ∧ Block.isProgramNumber line = true := by
  simp only [Machine.isSkipped, Bool.or_eq_false_iff, List.isEmpty_eq_false_iff] at hskip
  have hdivider : ¬ ['(', '='] <+: Text.trim line := by
    rw [← Block.isDivider_iff, hskip.2]
    simp
  rw [Block.isProgramNumber_iff]
  simp only [Drops, hskip.1, hdivider, false_or]

/-- A line that is passed over is dropped. -/
theorem drops_of_skipped
    {d : Dialect}
    {before : List Text}
    {line : Text}
    (hskip : Machine.isSkipped line = true) :
    d.Drops before line := by
  simp only [Machine.isSkipped, Bool.or_eq_true, List.isEmpty_iff] at hskip
  rcases hskip with hblank | hdivider
  · exact Or.inl hblank
  · exact Or.inr (Or.inl ((Block.isDivider_iff line).mp hdivider))

end Dialect

/-- Where the line after some others stands, among streams that are given. -/
inductive Placement
    (d : Dialect)
    (streams : Stream → List ClassifiedLine)
    (before : List Text)
    (line : Text) :
    Prop
  | dropped
      (hdrop : d.Drops before line)
      (habsent : ∀ stream, ∀ entry ∈ streams stream, entry.line ≠ before.length + 1)
  | common
      (hdrop : ¬ d.Drops before line)
      (hselect : ¬ d.SelectsIn (before ++ [line]))
      (hentry : ∃ entry ∈ streams .common, entry.line = before.length + 1 ∧
        entry.text = Text.trim line ∧ entry.tag = .common)
  | routed (t : Turret)
      (hdrop : ¬ d.Drops before line)
      (hroute : d.RoutesTo (before ++ [line]) t)
      (hentry : ∃ entry ∈ streams (.turret t), entry.line = before.length + 1 ∧
        entry.text = Text.trim line ∧
        (entry.tag = .turretSelect ↔ d.selection? line ≠ none))

/-- The streams divide the lines among them: every line has its place, no number stands twice
or is not that of a line, and the streams keep the order of the lines, the common section
first. -/
structure Partition
    (d : Dialect)
    (lines : List Text)
    (streams : Stream → List ClassifiedLine) : Prop where
  placed : ∀ before line after, lines = before ++ line :: after →
    Placement d streams before line
  unique : ∀ stream stream' entry entry', entry ∈ streams stream → entry' ∈ streams stream' →
    entry.line = entry'.line → stream = stream' ∧ entry = entry'
  numbered : ∀ stream, ∀ entry ∈ streams stream, 1 ≤ entry.line ∧ entry.line ≤ lines.length
  increasing : ∀ stream, (streams stream).Pairwise fun a b => a.line < b.line
  commonFirst : ∀ entry ∈ streams .common, ∀ t, ∀ entry' ∈ streams (.turret t),
    entry.line < entry'.line

namespace Machine

variable {m : Machine} {raw done : List Text} {s : Trace}

/-- The scan remembers the turret that the lines read so far leave selected. -/
theorem Reaches.lastSelected
    (hd : m.dialect.Worded)
    (h : Reaches m raw done s) :
    m.dialect.LastSelected done s.progress.turret := by
  induction h with
  | start =>
      rintro ⟨line, hline, _⟩
      cases hline
  | skip _ hskip ih => exact ih.concat (Dialect.selection?_of_skipped hd hskip)
  | @advance done s line outcome _ hskip step ih =>
      have hselection := Dialect.selection?_of_read (d := m.dialect) hskip
      cases step with
      | header hselect => exact ih.concat (hselection.trans hselect)
      | common hselect => exact ih.concat (hselection.trans hselect)
      | select hselect =>
          exact Dialect.routesTo_concat done (hselection.trans hselect)
      | routed hselect => exact ih.concat (hselection.trans hselect)

/-- Before the first selection nothing stands in the stream of a turret. -/
theorem Reaches.not_mem_turret
    (h : Reaches m raw done s)
    (hturret : s.progress.turret = none)
    (t : Turret)
    (entry : ClassifiedLine) :
    entry ∉ s.stream (.turret t) := by
  induction h with
  | start =>
      intro hentry
      cases hentry
  | skip _ _ ih => exact ih hturret
  | advance _ _ step ih =>
      rw [Trace.mem_stream_after, not_or]
      cases step with
      | header => exact ⟨ih hturret, by simp⟩
      | common => exact ⟨ih hturret, by simp⟩
      | select => cases hturret
      | routed _ hsome =>
          have hnone : _ = none := hturret
          simp only [Trace.after, routedOutcome, routedProgress] at hnone
          rw [hsome] at hnone
          cases hnone

/-- A line joins the common section only while no turret is selected. -/
theorem Reaches.common_line_lt
    (h : Reaches m raw done s) :
    ∀ entry ∈ s.stream .common, ∀ t, ∀ entry' ∈ s.stream (.turret t),
      entry.line < entry'.line := by
  induction h with
  | start =>
      intro entry hentry
      cases hentry
  | skip _ _ ih => exact ih
  | @advance done s line outcome before _ step ih =>
      intro entry hentry t entry' hentry'
      rcases Trace.mem_stream_after.mp hentry with hold | hnew
      · rcases Trace.mem_stream_after.mp hentry' with hold' | hnew'
        · exact ih entry hold t entry' hold'
        · have hle := (before.entry_line_bounds hold).2
          rw [step.placed_line hnew']
          omega
      · rcases Trace.mem_stream_after.mp hentry' with hold' | hnew'
        · cases step with
          | header => cases hnew
          | common _ hturret =>
              exact absurd hold' (before.not_mem_turret hturret t entry')
          | select => cases hnew
          | routed => cases hnew
        · rw [hnew] at hnew'
          cases hnew'

/-- A line keeps its place when another line is read. -/
theorem placement_after
    {d : Dialect}
    {before : List Text}
    {line : Text}
    {outcome : Outcome}
    {number : Int}
    (hnew : ∀ stream entry, outcome.placed = some (stream, entry) → entry.line = number)
    (hnumber : (before.length + 1 : Int) ≠ number)
    (h : Placement d s.stream before line) :
    Placement d (s.after outcome number).stream before line := by
  cases h with
  | dropped hdrop habsent =>
      refine Placement.dropped hdrop ?_
      intro stream entry hentry
      rcases Trace.mem_stream_after.mp hentry with hentry | hplaced
      · exact habsent stream entry hentry
      · rw [hnew stream entry hplaced]
        exact hnumber.symm
  | common hdrop hselect hentry =>
      obtain ⟨entry, hmem, hspec⟩ := hentry
      exact Placement.common hdrop hselect
        ⟨entry, Trace.mem_stream_after.mpr (Or.inl hmem), hspec⟩
  | routed t hdrop hroute hentry =>
      obtain ⟨entry, hmem, hspec⟩ := hentry
      exact Placement.routed t hdrop hroute
        ⟨entry, Trace.mem_stream_after.mpr (Or.inl hmem), hspec⟩

/-- A step places its line where the lines before it say. -/
theorem Reaches.placement_of_advance
    (before : Reaches m raw done s)
    (hlast : m.dialect.LastSelected done s.progress.turret)
    {line : Text}
    {outcome : Outcome}
    (hskip : isSkipped line = false)
    (step : Advance m raw s.progress done.length (done.length + 1) (Text.trim line) outcome) :
    Placement m.dialect (s.after outcome (done.length + 1)).stream done line := by
  have hselection := Dialect.selection?_of_read (d := m.dialect) hskip
  have hdrops : m.dialect.Drops done line ↔ _ := Dialect.drops_iff_of_read hskip
  cases step with
  | header hselect hturret hnumber =>
      rw [hturret] at hlast
      have hnone := hlast.concat (hselection.trans hselect)
      rw [Block.isProgramNumber_trim] at hnumber
      refine Placement.dropped (hdrops.mpr ⟨hnone, hnumber⟩) ?_
      intro stream entry hentry
      rcases Trace.mem_stream_after.mp hentry with hentry | hplaced
      · have hle := (before.entry_line_bounds hentry).2
        omega
      · cases hplaced
  | common hselect hturret hnumber =>
      rw [hturret] at hlast
      have hnone := hlast.concat (hselection.trans hselect)
      rw [Block.isProgramNumber_trim] at hnumber
      refine Placement.common ?_ hnone
        ⟨_, Trace.mem_stream_after.mpr (Or.inr rfl), rfl, rfl, rfl⟩
      rw [hdrops, hnumber]
      simp
  | @select t marker hselect =>
      have hroute := Dialect.routesTo_concat (d := m.dialect) done (hselection.trans hselect)
      refine Placement.routed t ?_ hroute
        ⟨_, Trace.mem_stream_after.mpr (Or.inr rfl), rfl, rfl, ?_⟩
      · rw [hdrops]
        exact fun h => h.1 hroute.selectsIn
      · simp [TurretState.snapshot, hselection, hselect]
  | @routed t signals hselect hturret =>
      rw [hturret] at hlast
      have hroute := hlast.concat (hselection.trans hselect)
      refine Placement.routed t ?_ hroute
        ⟨_, Trace.mem_stream_after.mpr (Or.inr rfl), rfl, rfl, ?_⟩
      · rw [hdrops]
        exact fun h => h.1 (Dialect.RoutesTo.selectsIn hroute)
      · simp only [routedEntry, TurretState.snapshot, hselection, hselect]
        split_ifs <;> simp

theorem eq_last_or_before
    {last line : Text}
    {first after : List Text}
    (h : done ++ [last] = first ++ line :: after) :
    (first = done ∧ line = last) ∨ ∃ rest, done = first ++ line :: rest := by
  rcases List.eq_nil_or_concat' after with rfl | ⟨rest, other, rfl⟩
  · obtain ⟨hfirst, hline⟩ := List.append_inj' h rfl
    exact Or.inl ⟨hfirst.symm, (List.singleton_injective hline).symm⟩
  · right
    refine ⟨rest, ?_⟩
    rw [← List.cons_append, ← List.append_assoc] at h
    exact (List.append_inj' h rfl).1

/-- Every line that was read has its place. -/
theorem Reaches.placement
    (hd : m.dialect.Worded)
    (h : Reaches m raw done s) :
    ∀ first line after, done = first ++ line :: after →
      Placement m.dialect s.stream first line := by
  induction h with
  | start =>
      intro first line after hsplit
      simp at hsplit
  | skip before hskip ih =>
      intro first line after hsplit
      rcases eq_last_or_before hsplit with ⟨rfl, rfl⟩ | ⟨rest, hdone⟩
      · refine Placement.dropped (Dialect.drops_of_skipped hskip) ?_
        intro stream entry hentry
        have hle := (before.entry_line_bounds hentry).2
        omega
      · exact ih first line rest hdone
  | advance before hskip step ih =>
      intro first line after hsplit
      rcases eq_last_or_before hsplit with ⟨rfl, rfl⟩ | ⟨rest, hdone⟩
      · exact before.placement_of_advance (before.lastSelected hd) hskip step
      · refine placement_after (fun stream entry hplaced => step.placed_line hplaced) ?_
          (ih first line rest hdone)
        rw [hdone, List.length_append, List.length_cons]
        omega

/-- A scan gives every line that it has read its place. -/
theorem Reaches.partition
    (hd : m.dialect.Worded)
    (h : Reaches m raw done s) :
    Partition m.dialect done s.stream where
  placed := h.placement hd
  unique := fun _ _ _ _ hentry hentry' hline => h.entry_unique hentry hentry' hline
  numbered := fun _ _ hentry => h.entry_line_bounds hentry
  increasing := h.stream_increasing
  commonFirst := h.common_line_lt

/-- A scan that has gone on has met no unknown spindle. -/
theorem Reaches.not_stops
    (hd : m.dialect.Worded)
    (h : Reaches m raw done s) :
    ¬ m.dialect.Stops done := by
  induction h with
  | start =>
      rintro ⟨first, line, after, hsplit, _⟩
      simp at hsplit
  | skip _ hskip ih =>
      rintro ⟨first, line, after, hsplit, hdrop, hstop⟩
      rcases eq_last_or_before hsplit with ⟨rfl, rfl⟩ | ⟨rest, hdone⟩
      · exact hdrop (Dialect.drops_of_skipped hskip)
      · exact ih ⟨first, line, rest, hdone, hdrop, hstop⟩
  | advance before hskip step ih =>
      rintro ⟨first, line, after, hsplit, hdrop, hselection, ⟨t, hroute⟩, name, hname⟩
      rcases eq_last_or_before hsplit with ⟨rfl, rfl⟩ | ⟨rest, hdone⟩
      · have hlast := (before.lastSelected hd).concat hselection
        cases step with
        | header _ hturret =>
            rw [hturret] at hlast
            exact hlast hroute.selectsIn
        | common _ hturret =>
            rw [hturret] at hlast
            exact hlast hroute.selectsIn
        | select hselect =>
            rw [Dialect.selection?_of_read hskip, hselect] at hselection
            cases hselection
        | routed _ _ hsignals =>
            rw [signals_of_unknownSpindle hname] at hsignals
            cases hsignals
      · exact ih ⟨first, line, rest, hdone, hdrop, hselection, ⟨t, hroute⟩, name, hname⟩

/-- Where there is no result, a line of a turret has selected an unknown spindle, or a message
shows a number that can not be written. -/
theorem stops_of_error
    {program : Text}
    {fault : Fault}
    (hconfig : m.config.Numeric)
    (hturrets : m.dialect.NamesTurrets)
    (hwords : m.dialect.Worded)
    (h : m.analyze program = .error fault) :
    (m.dialect.Stops (Text.lines program) ∧ ∃ name, fault = .unknownName ⟨.spindle, name⟩) ∨
      (¬ m.Writable ∧ fault = .tooLong) := by
  obtain ⟨done, line, rest, s, t, hlines, hreach, hskip, hturret, hselect, hstop⟩ :=
    exists_stop hconfig hturrets h
  rcases hstop with ⟨name, hname, rfl⟩ | ⟨rfl, hlong⟩
  · left
    have hselection : m.dialect.selection? line = none := by
      rw [Dialect.selection?_of_read hskip, hselect]
    have hroute := (hreach.lastSelected hwords).concat hselection
    rw [hturret] at hroute
    refine ⟨⟨done, line, rest, hlines, ?_, hselection, ⟨t, hroute⟩, name, hname⟩, name, rfl⟩
    rw [Dialect.drops_iff_of_read hskip]
    exact fun hdrop => hdrop.1 (Dialect.RoutesTo.selectsIn hroute)
  · exact Or.inr ⟨hlong, rfl⟩

/-- Either a line of a turret selects a spindle that there is not, and this stops the
analysis, or a number over 4300 digits stops it, or it gives every physical line its place. -/
theorem analyze_places_each_line
    (m : Machine)
    (program : Text)
    (hconfig : m.config.Numeric)
    (hturrets : m.dialect.NamesTurrets)
    (hwords : m.dialect.Worded) :
    (m.dialect.Stops (Text.lines program) ∧
        ∃ name, m.analyze program = .error (.unknownName ⟨.spindle, name⟩)) ∨
      (¬ m.Writable ∧ m.analyze program = .error .tooLong) ∨
      (¬ m.dialect.Stops (Text.lines program) ∧
        ∃ r, m.analyze program = .ok r ∧
          Partition m.dialect (Text.lines program) r.stream) := by
  cases h : m.analyze program with
  | error fault =>
      rcases stops_of_error hconfig hturrets hwords h with ⟨hstops, name, rfl⟩ | ⟨hlong, rfl⟩
      · exact Or.inl ⟨hstops, name, rfl⟩
      · exact Or.inr (Or.inl ⟨hlong, rfl⟩)
  | ok r =>
      obtain ⟨s, hreach, rfl⟩ := exists_reaches h
      refine Or.inr (Or.inr ⟨hreach.not_stops hwords, _, rfl, ?_⟩)
      rw [Trace.toResult_stream]
      exact hreach.partition hwords

/-- A program with a header before and after the first selection, and selections in
decoration, in a comment and with blanks around it. -/
theorem analyze_places_mixed_lines :
    (Config.preset Config.defaultPreset).config.Numeric ∧ Dialect.integrex.NamesTurrets ∧
      Dialect.integrex.Worded ∧
      ∃ r, (Machine.ofPreset Config.defaultPreset).analyze
          "O1\nG50\n(= G109 L2\n\n G109  L1 \nO2\n(G109 L2)\nM901".toList = .ok r ∧
        Partition Dialect.integrex
          (Text.lines "O1\nG50\n(= G109 L2\n\n G109  L1 \nO2\n(G109 L2)\nM901".toList)
          r.stream := by
  refine ⟨Config.numeric_preset _, Dialect.integrex_namesTurrets,
    (by decide), ?_⟩
  rcases analyze_places_each_line (Machine.ofPreset Config.defaultPreset)
      "O1\nG50\n(= G109 L2\n\n G109  L1 \nO2\n(G109 L2)\nM901".toList
      (Config.numeric_preset _) Dialect.integrex_namesTurrets
      (by decide) with ⟨hstops, _⟩ | ⟨hlong, _⟩ | ⟨_, hplaced⟩
  · obtain ⟨_, line, _, _, _, _, _, name, hname⟩ := hstops
    exact absurd hname (not_unknownSpindle Dialect.integrex_namesSpindles _ _)
  · exact absurd (writable_ofPreset _) hlong
  · exact hplaced

/-- A dialect that names the turrets only is not enough: here no line has a place. -/
theorem analyze_third_spindle_places_nothing :
    Config.integrex100.Numeric ∧ Dialect.thirdSpindle.NamesTurrets ∧
      Dialect.thirdSpindle.Worded ∧
      ∀ r, (Machine.mk Config.integrex100 Dialect.thirdSpindle).analyze
        "G109 L1\nM901".toList ≠ .ok r := by
  have hfails : (Machine.mk Config.integrex100 Dialect.thirdSpindle).analyze
      "G109 L1\nM901".toList = .error (.unknownName ⟨.spindle, "HD3".toList⟩) := by
    rfl
  refine ⟨Config.numeric_preset Config.defaultPreset, Dialect.integrex_namesTurrets,
    (by decide), ?_⟩
  intro r hr
  rw [hfails] at hr
  cases hr

end Machine
end DualTurret
