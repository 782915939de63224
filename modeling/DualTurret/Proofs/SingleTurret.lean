import DualTurret.Proofs.Handshake
import DualTurret.Proofs.Isolation
import DualTurret.Proofs.Partition

/-!
# Programs that select a turret once

Where only one line selects a turret, the other turret never gets a line: its stream stays
empty and its state stays as it was at the start.  So the wait codes of the two turrets can
not differ.  Balance cutting still asks both turrets for a wait code, and it misses the
one of the idle turret at each start before which the selected turret has issued its own.
-/

namespace DualTurret

/-- The warning that a turret has issued no wait code before balance cutting. -/
def Turret.needsWait (t : Turret) : Text :=
  t.label ++ " turret needs wait code before balance cutting".toList

namespace Dialect

/-- The line is neither blank nor decoration and holds a turret marker. -/
def selects (d : Dialect) (line : Text) : Bool :=
  !Machine.isSkipped line && (d.selectedTurret? (Text.trim line)).isSome

/-- The result of a program that selects only the turret `t`. -/
structure SoleTurret (d : Dialect) (r : Result) (t : Turret) : Prop where
  stream : r.streams.get t.opposite = []
  state : r.finalStates.get t.opposite = {}
  mismatch : ∀ w ∈ Log.warnings r.log, ¬ "Mismatched wait codes".toList <+: w.message
  slaveMissing : ∀ number,
    (∃ w ∈ Log.warnings r.log, w.line = number ∧ w.message = t.opposite.needsWait) ↔
      ∃ entry, d.Starts r.stream t entry ∧ entry.line = number ∧
        (d.latestCode? r.stream t number).isSome = true

variable {d : Dialect}

theorem selects_eq_false_of_skipped
    {line : Text}
    (hskip : Machine.isSkipped line = true) :
    d.selects line = false := by
  simp [selects, hskip]

/-- A line that is read selects by its trimmed text. -/
theorem selects_eq_of_read
    {line : Text}
    (hskip : Machine.isSkipped line = false) :
    d.selects line = (d.selectedTurret? (Text.trim line)).isSome := by
  simp [selects, hskip]

/-- A line that selects a turret is not dropped, whatever stands before it. -/
theorem selects_iff_not_drops
    (before : List Text)
    (line : Text) :
    d.selects line = true ↔
      ¬ d.Drops before line ∧ d.selectedTurret? (Text.trim line) ≠ none := by
  cases hskip : Machine.isSkipped line with
  | true => simp [selects_eq_false_of_skipped hskip, drops_of_skipped hskip]
  | false =>
      rw [selects_eq_of_read hskip, drops_iff_of_read hskip, Option.isSome_iff_ne_none]
      constructor
      · intro hselect
        refine ⟨?_, hselect⟩
        rintro ⟨hnone, _⟩
        exact hnone ⟨line, by simp, by rwa [selection?_of_read hskip]⟩
      · exact fun h => h.2

end Dialect

namespace Finding

/-- A warning with the initial of one about the wait codes of two turrets is such a warning. -/
theorem isHandshake_of_head
    {f : Finding}
    (hseverity : f.severity = .warning)
    (hrule : f.rule ≠ .remark)
    (hhead : f.message.head? ∈ [some 'U', some 'L', some 'M']) :
    f.isHandshake = true := by
  cases f with
  | waitMissing => rfl
  | slaveWaitMissing => rfl
  | waitMismatch => rfl
  | remark => exact absurd rfl hrule
  | selectWithMotion => exact absurd hhead (by decide)
  | releaseMissing marker =>
      have hinitial : (releaseMissing marker).message.head? = some 'W' := rfl
      rw [hinitial] at hhead
      exact absurd hhead (by decide)
  | lowFeed rate =>
      have hinitial : (lowFeed rate).message.head? = some 'F' := rfl
      rw [hinitial] at hhead
      exact absurd hhead (by decide)
  | highSpeed digits =>
      have hinitial : (highSpeed digits).message.head? = some 'S' := rfl
      rw [hinitial] at hhead
      exact absurd hhead (by decide)
  | _ => cases hseverity

end Finding

theorem Turret.head?_needsWait (t : Turret) : t.needsWait.head? ∈ [some 'U', some 'L'] := by
  cases t <;> decide

theorem Reading.lineIn?_opposite
    {r : Reading}
    {t : Turret}
    {entry : ClassifiedLine}
    (h : r.placed = some (.turret t, entry)) :
    r.lineIn? (.turret t.opposite) = none := by
  rw [Reading.lineIn?, h]
  cases t <;> rfl

namespace Machine

variable {m : Machine} {raw done : List Text} {s : Trace}

/-- No turret is selected as long as no line has selected one. -/
theorem Reaches.turret_eq_none_iff
    (h : Reaches m raw done s) :
    s.progress.turret = none ↔ done.countP m.dialect.selects = 0 := by
  induction h with
  | start => simp
  | skip _ hskip ih =>
      simp [List.countP_append, Dialect.selects_eq_false_of_skipped hskip, ih]
  | @advance done s line outcome _ hskip step ih =>
      have hselects := Dialect.selects_eq_of_read (d := m.dialect) hskip
      rw [List.countP_append, List.countP_singleton, hselects]
      cases step with
      | header hselect => simpa [Trace.after, hselect] using ih
      | common hselect => simpa [Trace.after, hselect] using ih
      | select hselect => simp [Trace.after, readSelection, hselect]
      | routed hselect => simpa [Trace.after, routedOutcome, routedProgress, hselect] using ih

/-- The selected turret is named by a line. -/
theorem Reaches.exists_selects
    (h : Reaches m raw done s)
    {t : Turret}
    (hturret : s.progress.turret = some t) :
    ∃ line ∈ done, m.dialect.selects line = true ∧
      ∃ marker, m.dialect.selectedTurret? (Text.trim line) = some (t.name, marker) := by
  induction h with
  | start => cases hturret
  | skip _ _ ih =>
      obtain ⟨line, hline, hselects⟩ := ih hturret
      exact ⟨line, List.mem_append_left _ hline, hselects⟩
  | @advance done s line outcome _ hskip step ih =>
      have hselects := Dialect.selects_eq_of_read (d := m.dialect) hskip
      cases step with
      | header =>
          obtain ⟨line, hline, hselects⟩ := ih hturret
          exact ⟨line, List.mem_append_left _ hline, hselects⟩
      | common =>
          obtain ⟨line, hline, hselects⟩ := ih hturret
          exact ⟨line, List.mem_append_left _ hline, hselects⟩
      | select hselect =>
          cases hturret
          exact ⟨line, by simp, by simp [hselects, hselect], _, hselect⟩
      | routed =>
          obtain ⟨line, hline, hselects⟩ := ih hturret
          exact ⟨line, List.mem_append_left _ hline, hselects⟩

/-- Where at most one line has selected a turret, the other turret has no line. -/
theorem Reaches.stream_opposite_eq_nil
    (h : Reaches m raw done s)
    {t : Turret}
    (hturret : s.progress.turret = some t)
    (hone : done.countP m.dialect.selects ≤ 1) :
    s.stream (.turret t.opposite) = [] := by
  induction h with
  | start => rfl
  | skip _ hskip ih =>
      refine ih hturret ?_
      simpa [List.countP_append, Dialect.selects_eq_false_of_skipped hskip] using hone
  | @advance done s line outcome before hskip step ih =>
      have hselects := Dialect.selects_eq_of_read (d := m.dialect) hskip
      rw [List.countP_append, List.countP_singleton, hselects] at hone
      rw [Trace.stream_after]
      cases step with
      | header hselect =>
          simpa [Reading.lineIn?, Outcome.reading] using ih hturret (by omega)
      | common hselect =>
          simpa [Reading.lineIn?, Outcome.reading] using ih hturret (by omega)
      | @select t' marker hselect =>
          cases hturret
          have hnone : s.progress.turret = none := by
            rw [before.turret_eq_none_iff]
            simp only [hselect, Option.isSome_some, if_true] at hone
            omega
          rw [Reading.lineIn?_opposite rfl, Option.toList_none, List.append_nil,
            List.eq_nil_iff_forall_not_mem]
          exact before.not_mem_turret hnone t.opposite
      | @routed t' signals hselect hsome =>
          have hsame : t' = t := Option.some.inj (hsome.symm.trans hturret)
          subst hsame
          rw [Reading.lineIn?_opposite rfl, Option.toList_none, List.append_nil]
          exact ih hsome (by omega)

/-- A turret without lines is as it was at the start. -/
theorem Reaches.state_eq_of_stream_nil
    (h : Reaches m raw done s)
    {t : Turret}
    (hempty : s.stream (.turret t) = []) :
    s.progress.states.get t = {} := by
  have hview := h.view_eq_replay t
  have hwaits := h.waits_eq t
  rw [hempty] at hview hwaits
  have hmodes : (s.progress.states.get t).modes = {} := congrArg TurretView.modes hview
  generalize s.progress.states.get t = state at hmodes hwaits
  cases state
  simp_all

/-- Of the handshake warnings, only that on the slave begins with its name. -/
theorem eq_needsWait_of_mem
    {d : Dialect}
    {t : Turret}
    {code : Option Text}
    {text : Text}
    (h : text ∈ d.handshakeTexts t code none)
    (hhead : text.head? ≠ some 'W') :
    text = t.opposite.needsWait ∧ code.isSome = true := by
  cases code with
  | none =>
      rw [List.mem_singleton.mp h] at hhead
      exact absurd rfl hhead
  | some code => exact ⟨List.mem_singleton.mp h, rfl⟩

section Idle

variable {t : Turret} (hidle : s.stream (.turret t.opposite) = [])

include hidle

/-- While the slave has no line, a start of balance cutting always misses a wait code. -/
theorem Reaches.handshakeAt_of_idle
    (h : Reaches m raw done s)
    {entry : ClassifiedLine}
    (hstart : m.dialect.Starts s.stream t entry) :
    s.log.handshakeAt entry.line =
      m.dialect.handshakeTexts t (m.dialect.latestCode? s.stream t entry.line) none := by
  have hslave : m.dialect.latestCode? s.stream t.opposite (entry.line - 1) = none := by
    simp [Dialect.latestCode?, ClassifiedLine.upTo, hidle]
  rw [h.handshakeAt_start hstart, hslave]

/-- Balance cutting is started by the turret that has lines. -/
theorem Reaches.exists_start_of_idle
    (h : Reaches m raw done s)
    {w : Diagnostic}
    (hw : w ∈ s.log)
    (hhandshake : w.finding.isHandshake = true) :
    ∃ entry, m.dialect.Starts s.stream t entry ∧ entry.line = w.line := by
  obtain ⟨t', entry, hstart, hline⟩ := h.exists_start hw hhandshake
  by_cases hsame : t' = t
  · exact ⟨entry, hsame ▸ hstart, hline⟩
  · have hopposite : t' = t.opposite := by
      cases t <;> cases t' <;> first | rfl | exact absurd rfl hsame
    have hentry := hstart.1.1
    rw [hopposite, hidle] at hentry
    cases hentry

/-- While the slave has no line, the wait codes are warned of where the master has issued one. -/
theorem Reaches.exists_start_of_warning
    (h : Reaches m raw done s)
    {w : Diagnostic}
    (hw : w ∈ Log.warnings s.log)
    (hhead : w.message.head? ∈ [some 'U', some 'L', some 'M']) :
    w.message = t.opposite.needsWait ∧
      ∃ entry, m.dialect.Starts s.stream t entry ∧ entry.line = w.line ∧
        (m.dialect.latestCode? s.stream t w.line).isSome = true := by
  obtain ⟨hmem, hseverity⟩ := List.mem_filter.mp hw
  have hhandshake : w.finding.isHandshake = true :=
    Finding.isHandshake_of_head (of_decide_eq_true hseverity) (h.rule_ne_remark hmem) hhead
  have htext : w.message ∈ s.log.handshakeAt w.line :=
    List.mem_map.mpr ⟨w, List.mem_filter.mpr ⟨hw, by simp [hhandshake]⟩, rfl⟩
  obtain ⟨entry, hstart, hline⟩ := h.exists_start_of_idle hidle hmem hhandshake
  rw [← hline, h.handshakeAt_of_idle hidle hstart] at htext
  have hinitial : w.message.head? ≠ some 'W' := by
    intro hw
    rw [hw] at hhead
    exact absurd hhead (by decide)
  obtain ⟨hmessage, hcode⟩ := eq_needsWait_of_mem htext hinitial
  exact ⟨hmessage, entry, hstart, hline, by rwa [← hline]⟩

end Idle

/-- With one selection, the other turret is idle, and is warned of only where a start of
balance cutting finds a wait code of the selected turret. -/
theorem Reaches.soleTurret
    (h : Reaches m raw done s)
    {t : Turret}
    (hturret : s.progress.turret = some t)
    (hone : done.countP m.dialect.selects ≤ 1) :
    m.dialect.SoleTurret (s.toResult raw) t := by
  have hidle := h.stream_opposite_eq_nil hturret hone
  have hslave := t.opposite.head?_needsWait
  constructor
  · cases t <;> exact hidle
  · exact h.state_eq_of_stream_nil hidle
  · intro w hw hprefix
    have hhead : w.message.head? = some 'M' := by
      obtain ⟨rest, hrest⟩ := hprefix
      rw [← hrest]
      rfl
    have hmessage := (h.exists_start_of_warning hidle hw (by simp [hhead])).1
    rw [← hmessage, hhead] at hslave
    exact absurd hslave (by decide)
  · intro number
    rw [Trace.toResult_stream]
    constructor
    · rintro ⟨w, hw, rfl, hmessage⟩
      refine (h.exists_start_of_warning hidle hw ?_).2
      rw [hmessage]
      exact List.mem_append_left [some 'M'] hslave
    · rintro ⟨entry, hstart, rfl, hcode⟩
      obtain ⟨code, hcode⟩ := Option.isSome_iff_exists.mp hcode
      have htext : t.opposite.needsWait ∈ s.log.handshakeAt entry.line := by
        rw [h.handshakeAt_of_idle hidle hstart, hcode]
        exact List.mem_singleton.mpr rfl
      obtain ⟨w, hw, hmessage⟩ := List.mem_map.mp htext
      obtain ⟨hmem, hline⟩ := List.mem_filter.mp hw
      simp only [Bool.and_eq_true, decide_eq_true_eq] at hline
      exact ⟨w, hmem, hline.1, hmessage⟩

/-- A program of which one line selects a turret leaves the other turret as it was, with no
line; the two turrets' wait codes never differ, and the other turret's is missed at the
starts of balance cutting that find one of the selected turret. -/
theorem analyze_leaves_opposite_idle
    (m : Machine)
    (program : Text)
    (hone : (Text.lines program).countP m.dialect.selects = 1) :
    (m.config.Numeric → m.Writable → m.dialect.NamesTurrets → m.dialect.NamesSpindles →
        ∃ r, m.analyze program = .ok r) ∧
      (∀ before line, m.dialect.selects line = true ↔
        ¬ m.dialect.Drops before line ∧ m.dialect.selectedTurret? (Text.trim line) ≠ none) ∧
      ∀ r, m.analyze program = .ok r →
        ∃ t line marker, line ∈ Text.lines program ∧ m.dialect.selects line = true ∧
          m.dialect.selectedTurret? (Text.trim line) = some (t.name, marker) ∧
          m.dialect.SoleTurret r t := by
  refine ⟨fun hconfig hwritable hturrets hspindles =>
    analyze_ok hconfig hwritable hturrets hspindles program,
    Dialect.selects_iff_not_drops, ?_⟩
  intro r hr
  obtain ⟨s, hreach, rfl⟩ := exists_reaches hr
  cases hturret : s.progress.turret with
  | none =>
      rw [hreach.turret_eq_none_iff.mp hturret] at hone
      cases hone
  | some t =>
      obtain ⟨line, hline, hselects, marker, hmarker⟩ := hreach.exists_selects hturret
      exact ⟨t, line, marker, hline, hselects, hmarker,
        hreach.soleTurret hturret (Nat.le_of_eq hone)⟩

/-- The lower turret alone, with a start before its first wait code and one after it.  The
upper turret's marker stands in decoration only. -/
theorem analyze_leaves_upper_idle :
    (Text.lines "(= G109 L1\nP1 M562\nG109 L2\nM562\nP10\n\nM562".toList).countP
        Dialect.integrex.selects = 1 ∧
      ∃ r, (Machine.ofPreset Config.defaultPreset).analyze
          "(= G109 L1\nP1 M562\nG109 L2\nM562\nP10\n\nM562".toList = .ok r ∧
        Dialect.integrex.SoleTurret r .lower ∧
        (Log.warnings r.log).map (fun w => w.line) = [4, 7] := by
  have hone : (Text.lines "(= G109 L1\nP1 M562\nG109 L2\nM562\nP10\n\nM562".toList).countP
      Dialect.integrex.selects = 1 := by
    decide +kernel
  obtain ⟨hok, _, hlaw⟩ := analyze_leaves_opposite_idle (Machine.ofPreset Config.defaultPreset)
    "(= G109 L1\nP1 M562\nG109 L2\nM562\nP10\n\nM562".toList hone
  obtain ⟨r, hr⟩ := hok (Config.numeric_preset _) (Machine.writable_ofPreset _)
    Dialect.integrex_namesTurrets Dialect.integrex_namesSpindles
  have hlower : ((Machine.ofPreset Config.defaultPreset).analyze
      "(= G109 L1\nP1 M562\nG109 L2\nM562\nP10\n\nM562".toList).toOption.any
        (fun r => r.streams.lower ≠ [] ∧ (Log.warnings r.log).map (fun w => w.line) = [4, 7]) =
          true := by
    decide +kernel
  rw [hr] at hlower
  obtain ⟨hlines, hwarnings⟩ := of_decide_eq_true hlower
  obtain ⟨t, _, _, _, _, _, hsole⟩ := hlaw r hr
  refine ⟨hone, r, hr, ?_, hwarnings⟩
  cases t with
  | upper => exact absurd hsole.stream hlines
  | lower => exact hsole

/-- A wait code of the only turret is enough to be warned of the other one. -/
theorem analyze_warns_of_idle_turret :
    (Text.lines "G109 L1\nP10\nM562".toList).countP Dialect.integrex.selects = 1 ∧
      ∃ r, (Machine.ofPreset Config.defaultPreset).analyze "G109 L1\nP10\nM562".toList = .ok r ∧
        r.streams.lower = [] ∧
        (Log.warnings r.log).map (fun w => (w.line, w.message)) =
          [(3, "Lower turret needs wait code before balance cutting".toList)] := by
  obtain ⟨r, hr⟩ := analyze_ok (m := Machine.ofPreset Config.defaultPreset)
    (Config.numeric_preset _) (Machine.writable_ofPreset _)
    Dialect.integrex_namesTurrets Dialect.integrex_namesSpindles
    "G109 L1\nP10\nM562".toList
  have hwarned : ((Machine.ofPreset Config.defaultPreset).analyze
      "G109 L1\nP10\nM562".toList).toOption.any
        (fun r => r.streams.lower = [] ∧
          (Log.warnings r.log).map (fun w => (w.line, w.message)) =
            [(3, "Lower turret needs wait code before balance cutting".toList)]) = true := by
    decide +kernel
  rw [hr] at hwarned
  exact ⟨by decide +kernel, r, hr, of_decide_eq_true hwarned⟩

end Machine
end DualTurret
