import DualTurret.Proofs.Safety
import DualTurret.Proofs.Scan.Moment

/-!
# What one step leaves alone

A scan may be driven line by line, with any numbers, texts and repetitions.  Wherever it
stands, one more line adds to the ends of the logs, the streams and the wait histories, and it
touches the state of the selected turret only.  This holds also of a line that is stopped; such
a line is placed nowhere.

The frame is proved of the outcome of a line, in the three cases of `Machine.readLine_cases`, and
carried over to the lists of a scan by what `Scan.after` does to them.  Since what is only added
to stays a prefix, it carries over to any further lines.

Main facts:
* `Machine.readLine_frame`: the frame of the outcome of a line;
* `Outcome.Frame.scan`: the frame of the step that adds it to a scan;
* `Scan.Stepped.extends_readAll`: further lines only add to a scan.
-/

namespace DualTurret

/-- A text with the position and the number under which it is read. -/
structure Scan.Call where
  index : Int
  line : Int
  text : Text

/-- The scan after reading some lines one at a time. -/
def Scan.readAll (m : Machine) (raw : List Text) (s : Scan) (calls : List Scan.Call) : Scan :=
  calls.foldl (fun s call => (s.step m raw call.index call.line call.text).1) s

/-- The line is a program header before the first turret selection. -/
def Dialect.HeaderLine (d : Dialect) (p : Progress) (text : Text) : Prop :=
  p.routing = false ∧ d.selectedTurret? text = none ∧ Block.isProgramNumber text = true

/-- The later scan has kept all that the earlier one had, and in its place. -/
structure Scan.Extends (s s' : Scan) : Prop where
  routing : s.progress.routing = true → s'.progress.routing = true
  log : ∀ severity, Log.withSeverity s.log severity <+: Log.withSeverity s'.log severity
  stream : ∀ stream, s.stream stream <+: s'.stream stream
  waits : ∀ t, (s.progress.states.get t).waits <+: (s'.progress.states.get t).waits

/-- What reading a line changes of a scan, and what it leaves alone.  A line that is not stopped
adds one line to one stream, unless it is a header; a line that is stopped adds to none. -/
structure Scan.Frame
    (d : Dialect)
    (s s' : Scan)
    (fault : Option Fault)
    (line : Int)
    (text : Text) : Prop where
  kept : s.Extends s'
  added : ∀ severity, ∃ found, Log.withSeverity s'.log severity =
    Log.withSeverity s.log severity ++ found ∧ ∀ diagnostic ∈ found, diagnostic.line = line
  grown : fault = none → ¬ d.HeaderLine s.progress text → ∃ place entry,
    s'.stream place = s.stream place ++ [entry] ∧ entry.line = line ∧ entry.text = text ∧
      ∀ other, other ≠ place → s'.stream other = s.stream other
  same : fault ≠ none ∨ d.HeaderLine s.progress text →
    ∀ stream, s'.stream stream = s.stream stream
  others : ∀ t, s'.progress.turret ≠ some t →
    s'.progress.states.get t = s.progress.states.get t
  quiet : d.selectedTurret? text ≠ none ∨ s.progress.routing = false →
    s'.progress.states = s.progress.states ∧ s'.progress.session = s.progress.session

/-- What the outcome of a line changes of the progress, and where it places the line. -/
structure Outcome.Frame
    (d : Dialect)
    (p : Progress)
    (line : Int)
    (text : Text)
    (outcome : Outcome) : Prop where
  routing : p.routing = true → outcome.progress.routing = true
  waits : ∀ t, (p.states.get t).waits <+: (outcome.progress.states.get t).waits
  placed : outcome.fault = none → ¬ d.HeaderLine p text → ∃ place entry,
    outcome.placed = some (place, entry) ∧ entry.line = line ∧ entry.text = text
  notPlaced : outcome.fault ≠ none ∨ d.HeaderLine p text → outcome.placed = none
  others : ∀ t, outcome.progress.turret ≠ some t →
    outcome.progress.states.get t = p.states.get t
  quiet : d.selectedTurret? text ≠ none ∨ p.routing = false →
    outcome.progress.states = p.states ∧ outcome.progress.session = p.session

theorem Scan.Extends.refl (s : Scan) : s.Extends s :=
  ⟨id, fun _ => List.prefix_rfl, fun _ => List.prefix_rfl, fun _ => List.prefix_rfl⟩

theorem Scan.Extends.trans
    {s s' s'' : Scan}
    (h : s.Extends s')
    (h' : s'.Extends s'') :
    s.Extends s'' where
  routing hrouting := h'.routing (h.routing hrouting)
  log severity := (h.log severity).trans (h'.log severity)
  stream stream := (h.stream stream).trans (h'.stream stream)
  waits t := (h.waits t).trans (h'.waits t)

/-- What a line adds to the log carries the number of the line. -/
theorem Scan.exists_added
    (s : Scan)
    (outcome : Outcome)
    (line : Int)
    (severity : Severity) :
    ∃ found, Log.withSeverity (s.after outcome line).log severity =
      Log.withSeverity s.log severity ++ found ∧ ∀ diagnostic ∈ found, diagnostic.line = line := by
  refine ⟨_, by rw [Scan.log_after, Log.withSeverity_append], ?_⟩
  intro diagnostic hmem
  obtain ⟨finding, _, rfl⟩ := List.mem_map.mp (List.mem_filter.mp hmem).1
  rfl

theorem Scan.stream_prefix_after
    (s : Scan)
    (outcome : Outcome)
    (line : Int)
    (stream : Stream) :
    s.stream stream <+: (s.after outcome line).stream stream := by
  cases hplaced : outcome.placed with
  | none =>
      have hsame := Scan.stream_after_of_not_placed hplaced s line stream
      exact hsame ▸ List.prefix_rfl
  | some placed =>
      rw [Scan.stream_after_of_placed hplaced]
      exact List.prefix_append _ _

/-- The frame of an outcome is the frame of the step that adds it to a scan. -/
theorem Outcome.Frame.scan
    {d : Dialect}
    {s : Scan}
    {line : Int}
    {text : Text}
    {outcome : Outcome}
    (h : outcome.Frame d s.progress line text) :
    s.Frame d (s.after outcome line) outcome.fault line text where
  kept := by
    constructor
    · rw [Scan.progress_after]
      exact h.routing
    · intro severity
      obtain ⟨found, hfound, _⟩ := s.exists_added outcome line severity
      rw [hfound]
      exact List.prefix_append _ _
    · exact s.stream_prefix_after outcome line
    · rw [Scan.progress_after]
      exact h.waits
  added := s.exists_added outcome line
  grown := by
    intro hfault hheader
    obtain ⟨place, entry, hplaced, hline, htext⟩ := h.placed hfault hheader
    refine ⟨place, entry, ?_, hline, htext, ?_⟩
    · rw [Scan.stream_after_of_placed hplaced, if_pos rfl]
    · intro other hother
      rw [Scan.stream_after_of_placed hplaced, if_neg hother, List.append_nil]
  same hnone := Scan.stream_after_of_not_placed (h.notPlaced hnone) s line
  others := by
    rw [Scan.progress_after]
    exact h.others
  quiet := by
    rw [Scan.progress_after]
    exact h.quiet

namespace Machine

variable {m : Machine} {raw : List Text} {p : Progress} {t : Turret} {index line : Int}
  {text : Text}

/-- A selection keeps the frame. -/
theorem readSelection_frame
    {marker : Text}
    (hselect : m.dialect.selectedTurret? text = some (t.name, marker)) :
    (readSelection { p with routing := true } t marker line text).Frame m.dialect p line text where
  routing _ := rfl
  waits _ := List.prefix_rfl
  placed _ _ := ⟨_, _, rfl, rfl, rfl⟩
  notPlaced := by
    rintro (hfault | hheader)
    · exact absurd rfl hfault
    · rw [hheader.2.1] at hselect
      cases hselect
  others _ _ := rfl
  quiet _ := ⟨rfl, rfl⟩

/-- A line before the first selection keeps the frame. -/
theorem readCommon_frame
    (hp : p.Coherent)
    (hselect : m.dialect.selectedTurret? text = none)
    (hturret : p.turret = none) :
    (readCommon p line text).Frame m.dialect p line text := by
  have hheader : m.dialect.HeaderLine p text ↔ Block.isProgramNumber text = true := by
    have hrouting : p.routing = false := by
      rw [hp, hturret]
      rfl
    exact ⟨fun h => h.2.2, fun h => ⟨hrouting, hselect, h⟩⟩
  rw [readCommon]
  split_ifs with hnumber
  · exact {
      routing := id
      waits := fun _ => List.prefix_rfl
      placed := fun _ hno => absurd (hheader.mpr hnumber) hno
      notPlaced := fun _ => rfl
      others := fun _ _ => rfl
      quiet := fun _ => ⟨rfl, rfl⟩ }
  · exact {
      routing := id
      waits := fun _ => List.prefix_rfl
      placed := fun _ _ => ⟨_, _, rfl, rfl, rfl⟩
      notPlaced := fun h => h.elim (absurd rfl) fun h => absurd (hheader.mp h) hnumber
      others := fun _ _ => rfl
      quiet := fun _ => ⟨rfl, rfl⟩ }

/-- A line of the selected turret changes the state of that turret at most, and only adds to its
wait codes. -/
theorem readRouted_states
    (m : Machine)
    (raw : List Text)
    (p : Progress)
    (t : Turret)
    (index line : Int)
    (text : Text) :
    ∃ state : TurretState, (p.states.get t).waits <+: state.waits ∧
      (m.readRouted raw p t index line text).progress.states = p.states.set t state := by
  rw [readRouted]
  split
  · refine ⟨p.states.get t, List.prefix_rfl, ?_⟩
    cases t <;> rfl
  · rename_i signals _
    refine ⟨(m.follow (p.states.get t) signals line text).1, List.prefix_append _ _, ?_⟩
    dsimp only
    split <;> rfl

/-- A line of the selected turret is placed with it, unless it is stopped. -/
theorem readRouted_placed
    (m : Machine)
    (raw : List Text)
    (p : Progress)
    (t : Turret)
    (index line : Int)
    (text : Text) :
    ((m.readRouted raw p t index line text).fault = none → ∃ entry,
      (m.readRouted raw p t index line text).placed = some (.turret t, entry) ∧
        entry.line = line ∧ entry.text = text) ∧
    ((m.readRouted raw p t index line text).fault ≠ none →
      (m.readRouted raw p t index line text).placed = none) := by
  rw [readRouted]
  split
  · exact ⟨fun h => absurd h (Option.some_ne_none _), fun _ => rfl⟩
  · dsimp only
    split
    · exact ⟨fun h => absurd h (Option.some_ne_none _), fun _ => rfl⟩
    · cases (Check.run _).2 with
      | none => exact ⟨fun _ => ⟨_, rfl, rfl, rfl⟩, fun h => absurd rfl h⟩
      | some fault => exact ⟨fun h => absurd h (Option.some_ne_none _), fun _ => rfl⟩

/-- A line of a turret keeps the frame, also where it is stopped. -/
theorem readRouted_frame
    (hp : p.Coherent)
    (hselect : m.dialect.selectedTurret? text = none)
    (hturret : p.turret = some t) :
    (m.readRouted raw p t index line text).Frame m.dialect p line text := by
  have hrouting : p.routing = true := by
    rw [hp, hturret]
    rfl
  have hheader : ¬ m.dialect.HeaderLine p text := by
    intro h
    rw [h.1] at hrouting
    cases hrouting
  obtain ⟨hroutes, hselected⟩ := readRouted_selection m raw p t index line text
  obtain ⟨state, hwaits, hstates⟩ := readRouted_states m raw p t index line text
  obtain ⟨hplaced, hstopped⟩ := readRouted_placed m raw p t index line text
  constructor
  · rw [hroutes]
    exact id
  · intro u
    rw [hstates]
    by_cases hu : t = u
    · subst hu
      rw [PerTurret.get_set_self]
      exact hwaits
    · have hsame := PerTurret.get_set_of_ne p.states hu state
      exact hsame ▸ List.prefix_rfl
  · intro hfault _
    obtain ⟨entry, hentry⟩ := hplaced hfault
    exact ⟨.turret t, entry, hentry⟩
  · rintro (hfault | h)
    · exact hstopped hfault
    · exact absurd h hheader
  · intro u hu
    have hne : t ≠ u := by
      rintro rfl
      exact hu (hselected.trans hturret)
    rw [hstates, PerTurret.get_set_of_ne _ hne]
  · rintro (hsome | hnone)
    · exact absurd hselect hsome
    · rw [hrouting] at hnone
      cases hnone

/-- The frame of the outcome of a line, stopped or not. -/
theorem readLine_frame
    (hturrets : m.dialect.NamesTurrets)
    (hp : p.Coherent)
    (raw : List Text)
    (index line : Int)
    (text : Text) :
    (m.readLine raw p index line text).Frame m.dialect p line text := by
  rcases readLine_cases hturrets hp raw index line text with
    ⟨t, marker, hselect, hread⟩ | ⟨hselect, hturret, hread⟩ | ⟨hselect, t, hturret, hread⟩
  · rw [hread]
    exact readSelection_frame hselect
  · rw [hread]
    exact readCommon_frame hp hselect hturret
  · rw [hread]
    exact readRouted_frame hp hselect hturret

end Machine

section

variable {m : Machine} {raw : List Text} {s : Scan}

/-- Every call keeps the frame. -/
theorem Scan.Stepped.frame
    (hturrets : m.dialect.NamesTurrets)
    (hs : s.Stepped m raw)
    (index line : Int)
    (text : Text) :
    s.Frame m.dialect (s.step m raw index line text).1 (s.step m raw index line text).2 line
      text := by
  rw [Scan.step_eq]
  exact (Machine.readLine_frame hturrets (hs.coherent hturrets) raw index line text).scan

/-- A line that asks for a message that can not be written is placed nowhere. -/
theorem Scan.Stepped.step_of_unwritten
    (hconfig : m.config.Numeric)
    (hturrets : m.dialect.NamesTurrets)
    (hspindles : m.dialect.NamesSpindles)
    (hs : s.Stepped m raw)
    {text : Text}
    (hunwritten : m.Unwritten s.progress text)
    (index line : Int) :
    (s.step m raw index line text).2 = some .tooLong ∧
      ∀ stream, (s.step m raw index line text).1.stream stream = s.stream stream := by
  have hfault := (hs.fault_eq_some_iff hconfig hturrets hspindles index line text .tooLong).mpr
    ⟨rfl, hunwritten⟩
  refine ⟨hfault, (hs.frame hturrets index line text).same (Or.inl ?_)⟩
  rw [hfault]
  exact Option.some_ne_none _

/-- A selection changes nothing of the progress but the selected turret. -/
theorem Scan.step_progress_of_select
    {t : Turret}
    {text marker : Text}
    (hselect : m.dialect.selectedTurret? text = some (t.name, marker))
    (index line : Int) :
    (s.step m raw index line text).1.progress =
      { s.progress with routing := true, turret := some t } := by
  rw [Scan.step_eq, Scan.progress_after, Machine.readLine_of_select m raw _ index line hselect]
  rfl

/-- Further lines only add to a scan. -/
theorem Scan.Stepped.extends_readAll
    (hturrets : m.dialect.NamesTurrets)
    (hs : s.Stepped m raw)
    (calls : List Scan.Call) :
    s.Extends (s.readAll m raw calls) := by
  induction calls generalizing s with
  | nil => exact .refl s
  | cons call calls ih =>
      have hfirst := hs.frame hturrets call.index call.line call.text
      exact hfirst.kept.trans (ih (.step call.index call.line call.text hs))

end

/-- Wherever a scan stands, reading one more line changes nothing beyond its frame; the line is
stopped just where a number of its messages is too long, and any further lines only add to what
there is. -/
theorem Scan.step_keeps_frame
    (m : Machine)
    (raw : List Text)
    (hconfig : m.config.Numeric)
    (hturrets : m.dialect.NamesTurrets)
    (hspindles : m.dialect.NamesSpindles)
    (s : Scan)
    (hs : s.Stepped m raw) :
    (∀ index line text,
      s.Frame m.dialect (s.step m raw index line text).1 (s.step m raw index line text).2 line
        text ∧
      ∀ fault, (s.step m raw index line text).2 = some fault ↔
        fault = .tooLong ∧ m.Unwritten s.progress text) ∧
    (m.Writable → ∀ index line text, (s.step m raw index line text).2 = none) ∧
    ∀ calls, s.Extends (s.readAll m raw calls) := by
  have hstops := hs.fault_eq_some_iff hconfig hturrets hspindles
  refine ⟨?_, ?_, hs.extends_readAll hturrets⟩
  · intro index line text
    exact ⟨hs.frame hturrets index line text, hstops index line text⟩
  · intro hwritable index line text
    refine Option.eq_none_iff_forall_ne_some.mpr fun fault hfault => ?_
    exact hwritable.not_unwritten _ _ ((hstops index line text fault).mp hfault).2

/-- The last line is read first and the second one twice, before the upper turret is selected. -/
theorem Scan.step_keeps_frame_out_of_order :
    let m := Machine.ofPreset Config.defaultPreset
    let raw := ["G109 L1", "M901 P10", "G109 L2"].map String.toList
    let s := Scan.readAll m raw {}
      [⟨2, 3, "G109 L2".toList⟩, ⟨1, 2, "M901 P10".toList⟩, ⟨1, 2, "M901 P10".toList⟩]
    let s' := (s.step m raw 0 1 "G109 L1".toList).1
    s.Stepped m raw ∧ s.Frame m.dialect s' none 1 "G109 L1".toList ∧
      s.progress.turret = some .lower ∧ s'.progress.turret = some .upper ∧
      (s.progress.states.get .lower).waits.length = 2 := by
  intro m raw s s'
  have hs : s.Stepped m raw := .step _ _ _ (.step _ _ _ (.step _ _ _ .fresh))
  obtain ⟨hframe, hruns, _⟩ := Scan.step_keeps_frame m raw (Config.numeric_preset _)
    Dialect.integrex_namesTurrets Dialect.integrex_namesSpindles s hs
  have hframe := (hframe 0 1 "G109 L1".toList).1
  rw [hruns (Machine.writable_ofPreset _)] at hframe
  exact ⟨hs, hframe, by decide +kernel, by decide +kernel, by decide +kernel⟩

/-- Some scan is stopped at the line and places it nowhere, though it is no header. -/
def Machine.LeavesOut (m : Machine) (text : Text) : Prop :=
  ∃ raw index line, ∃ s : Scan, s.Stepped m raw ∧ ¬ m.dialect.HeaderLine s.progress text ∧
    (s.step m raw index line text).2 = some .tooLong ∧
    ∀ stream, (s.step m raw index line text).1.stream stream = s.stream stream

/-- The default configuration with another longest block length. -/
def Config.blocksUpTo (limit : Int) : Config :=
  { integrex100 with maxBlockLength := Value.ofInt limit }

/-- A line that can not be written right after the first selection is left out. -/
theorem Machine.leavesOut_of_unwritten
    {m : Machine}
    {text select marker : Text}
    {t : Turret}
    (hconfig : m.config.Numeric)
    (hturrets : m.dialect.NamesTurrets)
    (hspindles : m.dialect.NamesSpindles)
    (hselect : m.dialect.selectedTurret? select = some (t.name, marker))
    (hunwritten : m.Unwritten { routing := true, turret := some t } text) :
    m.LeavesOut text := by
  have hs : (Scan.step m [] {} 0 1 select).1.Stepped m [] := .step 0 1 select .fresh
  have hprogress : (Scan.step m [] {} 0 1 select).1.progress =
      { routing := true, turret := some t } :=
    Scan.step_progress_of_select hselect 0 1
  refine ⟨[], 1, 2, _, hs, ?_, hs.step_of_unwritten hconfig hturrets hspindles ?_ 1 2⟩
  · rw [hprogress]
    exact fun h => Bool.noConfusion h.1
  · rw [hprogress]
    exact hunwritten

/-- Long bounds of the wait range leave out the start of balance cutting. -/
theorem Machine.leavesOut_of_waits
    {low high : Int}
    (hwait : (Dialect.waitingFor ⟨low, high⟩).waitCode? "M562".toList = none)
    (hlong : ¬ isWritableWhole low = true) :
    (Machine.mk Config.integrex100 (Dialect.waitingFor ⟨low, high⟩)).LeavesOut "M562".toList := by
  have hselect : (Dialect.waitingFor ⟨low, high⟩).selectedTurret? "G109 L1".toList =
      some (Turret.upper.name, "G109 L1".toList) := rfl
  exact leavesOut_of_unwritten (Config.numeric_preset Config.defaultPreset)
    Dialect.integrex_namesTurrets Dialect.integrex_namesSpindles hselect
    (unwritten_of_waits hwait hlong)

/-- A long limit that is below the length leaves out the block. -/
theorem Machine.leavesOut_of_length
    {limit : Int}
    (hshort : limit < 2)
    (hlong : isWritableWhole limit = false) :
    (Machine.mk (Config.blocksUpTo limit) Dialect.integrex).LeavesOut "X1".toList := by
  have hselect : Dialect.integrex.selectedTurret? "G109 L1".toList =
      some (Turret.upper.name, "G109 L1".toList) := rfl
  exact leavesOut_of_unwritten ⟨⟨_, rfl⟩, ⟨_, rfl⟩, ⟨_, rfl⟩, ⟨_, rfl⟩⟩
    Dialect.integrex_namesTurrets Dialect.integrex_namesSpindles hselect
    ⟨rfl, .upper, rfl, Or.inr ⟨limit, rfl, hshort, hlong⟩⟩

/-- A wait range of long numbers stops the start of balance cutting, and a longest block length
of many digits stops a block that is longer. -/
theorem Machine.leavesOut_of_long_numbers :
    (Machine.mk Config.integrex100
      (Dialect.waitingFor ⟨Nat.pow 10 5000, Nat.pow 10 5000⟩)).LeavesOut "M562".toList ∧
    (Machine.mk (Config.blocksUpTo (-(Nat.pow 10 4300 : Nat)))
      Dialect.integrex).LeavesOut "X1".toList := by
  constructor
  · exact leavesOut_of_waits (by decide +kernel) (not_isWritableWhole_pow (by decide))
  · refine leavesOut_of_length (by omega) ?_
    rw [← Bool.not_eq_true, isWritableWhole_iff, Int.natAbs_neg, ← isWritableWhole_iff]
    exact not_isWritableWhole_pow (by decide)

end DualTurret
