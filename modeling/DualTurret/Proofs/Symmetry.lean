import DualTurret.Proofs.Scan.Renaming

/-!
# Symmetry of the turrets

Nothing in an analysis prefers one turret.  If the markers that select the upper and the
lower turret change places in a dialect, the streams and the final states of the two
turrets change places in every result, and their names change places in the findings that
name a turret.  All else stays: the common section, the errors, the line numbers and every
other finding.
-/

namespace DualTurret

/-- The dialect in which the keys of the two turrets have changed places. -/
def Dialect.exchanged (d : Dialect) : Dialect :=
  { d with
    turretSelect := d.turretSelect.map fun entry => (Turret.exchangedName entry.1, entry.2) }

/-- The machine in whose dialect the two turrets have changed places. -/
def Machine.exchanged (m : Machine) : Machine :=
  { m with dialect := m.dialect.exchanged }

/-- The finding about the other turret, where it names one. -/
def Finding.exchanged : Finding → Finding
  | .slaveWaitMissing slave => .slaveWaitMissing slave.opposite
  | .turretSelected t marker => .turretSelected t.opposite marker
  | .balanceStarts master => .balanceStarts master.opposite
  | f => f

def Diagnostic.exchanged (d : Diagnostic) : Diagnostic :=
  { d with finding := d.finding.exchanged }

/-- The second result is the first with the two turrets exchanged. -/
structure Result.Exchanged (r r' : Result) : Prop where
  common : r'.common = r.common
  streams : r'.streams = ⟨r.streams.lower, r.streams.upper⟩
  finalStates : r'.finalStates = ⟨r.finalStates.lower, r.finalStates.upper⟩
  errors : Log.errors r'.log = Log.errors r.log
  warnings : Log.warnings r'.log = (Log.warnings r.log).map Diagnostic.exchanged
  notes : Log.notes r'.log = (Log.notes r.log).map Diagnostic.exchanged
  statistics : r'.statistics =
    { r.statistics with lines := ⟨r.statistics.lines.lower, r.statistics.lines.upper⟩ }

namespace Renaming

/-- Renaming by exchange is the exchange. -/
theorem finding_of_exchanges
    (f : Finding) :
    Renaming.finding { exchanges := true } f = f.exchanged := by
  cases f <;> rfl

theorem diagnostic_of_exchanges :
    Renaming.diagnostic { exchanges := true } = Diagnostic.exchanged := by
  funext d
  rw [diagnostic, finding_of_exchanges]
  rfl

theorem state_of_exchanges
    (state : TurretState) :
    Renaming.state { exchanges := true } state = state := by
  have hwaits : state.waits.map (Renaming.wait { exchanges := true }) = state.waits :=
    List.map_id _
  rw [Renaming.state, hwaits]

theorem stream_of_exchanges
    (s : Trace)
    (stream : Stream) :
    (Renaming.scan { exchanges := true } s).stream (Renaming.stream { exchanges := true } stream) =
      s.stream stream := by
  rw [scan_stream]
  exact List.map_id _

end Renaming

/-- An error names no turret. -/
theorem Finding.exchanged_of_error {f : Finding} (h : f.severity = .error) : f.exchanged = f := by
  cases f with
  | slaveWaitMissing => cases h
  | turretSelected => cases h
  | balanceStarts => cases h
  | _ => rfl

theorem Log.withSeverity_exchanged
    (log : Log)
    (severity : Severity) :
    Log.withSeverity (log.map Diagnostic.exchanged) severity =
      (Log.withSeverity log severity).map Diagnostic.exchanged := by
  rw [← Renaming.diagnostic_of_exchanges, Renaming.withSeverity_map]

/-- Errors name no turret. -/
theorem Log.errors_exchanged
    (log : Log) :
    Log.errors (log.map Diagnostic.exchanged) = Log.errors log := by
  have hsame : ∀ d ∈ Log.errors log, d.exchanged = d := by
    intro d hd
    have hseverity : d.finding.severity = .error := of_decide_eq_true (List.mem_filter.mp hd).2
    rw [Diagnostic.exchanged, Finding.exchanged_of_error hseverity]
  rw [Log.errors, Log.withSeverity_exchanged]
  exact (List.map_congr_left hsame).trans (List.map_id _)

/-- A scan in which the turrets have changed places shows them in each other's place. -/
theorem Trace.exchanged_toResult
    (s : Trace)
    (raw : List Text) :
    (s.toResult raw).Exchanged ((Renaming.scan { exchanges := true } s).toResult raw) := by
  have hlog : (Renaming.scan { exchanges := true } s).log = s.log.map Diagnostic.exchanged := by
    rw [Renaming.scan_log, Renaming.diagnostic_of_exchanges]
  have hcommon : ((Renaming.scan { exchanges := true } s).toResult raw).common =
      (s.toResult raw).common :=
    Renaming.stream_of_exchanges s .common
  have hstreams : ((Renaming.scan { exchanges := true } s).toResult raw).streams =
      ⟨(s.toResult raw).streams.lower, (s.toResult raw).streams.upper⟩ :=
    congrArg₂ PerTurret.mk (Renaming.stream_of_exchanges s (.turret .lower))
      (Renaming.stream_of_exchanges s (.turret .upper))
  have herrors : Log.errors ((Renaming.scan { exchanges := true } s).toResult raw).log =
      Log.errors (s.toResult raw).log := by
    show Log.errors (Renaming.scan { exchanges := true } s).log = _
    rw [hlog, Log.errors_exchanged]
    rfl
  have hseverity : ∀ severity : Severity,
      Log.withSeverity ((Renaming.scan { exchanges := true } s).toResult raw).log severity =
        (Log.withSeverity (s.toResult raw).log severity).map Diagnostic.exchanged := by
    intro severity
    show Log.withSeverity (Renaming.scan { exchanges := true } s).log severity = _
    rw [hlog, Log.withSeverity_exchanged]
    rfl
  exact {
    common := hcommon
    streams := hstreams
    finalStates := congrArg₂ PerTurret.mk (Renaming.state_of_exchanges s.progress.states.lower)
      (Renaming.state_of_exchanges s.progress.states.upper)
    errors := herrors
    warnings := hseverity .warning
    notes := hseverity .info
    statistics := by
      simp only [Result.statistics, hcommon, hstreams, herrors, Log.warnings, Log.notes, hseverity,
        List.length_map]
      rfl }

/-- Nothing is put between the lines. -/
theorem insertLines_nil
    (k : Nat)
    (lines : List Text) :
    insertLines (fun _ => []) k lines = lines := by
  induction lines generalizing k with
  | nil => rfl
  | cons line lines ih => rw [insertLines, ih, List.nil_append]

theorem insertedBefore_nil (n : Nat) : insertedBefore (fun _ => []) n = 0 := by
  induction n with
  | zero => rfl
  | succ n ih => rw [insertedBefore, ih, List.length_nil]

theorem Trace.without_nothing (s : Trace) : s.without (fun _ => false) = s := by
  have hhistory : s.history.map (fun r : Reading =>
      { r with findings := r.findings.filter fun _ => !false }) = s.history := by
    refine (List.map_congr_left ?_).trans (List.map_id _)
    intro r _
    rw [Bool.not_false, List.filter_true]
    rfl
  rw [Trace.without, hhistory]

namespace Machine

variable (m : Machine) (program : Text)

/-- A run after the turrets have changed places is the run with the turrets exchanged: no line gets
another number, and no finding is dropped. -/
theorem readLines_exchanged
    (raw : List Text) :
    m.exchanged.readLines raw {} 0 raw =
      (m.readLines raw {} 0 raw).map (Renaming.scan { exchanges := true }) := by
  have hnumber : ∀ k : Nat, Renaming.number { exchanges := true } (k + 1) =
      k + insertedBefore (fun _ => []) (k + 1) + 1 := by
    intro k
    rw [insertedBefore_nil]
    rfl
  have hrelease : ∀ k : Nat, m.SameRelease (fun _ => false) raw k raw
      (k + insertedBefore (fun _ => []) (k + 1) : Nat) := by
    intro k
    rw [insertedBefore_nil]
    rfl
  have hrun := readLines_renamed (fun k line hline => absurd hline List.not_mem_nil) hnumber
    hrelease raw {} 0
  rw [insertLines_nil, insertedBefore_nil] at hrun
  simp only [Trace.without_nothing] at hrun
  exact (congrFun Except.map_id _).symm.trans hrun

/-- When the turrets change places in the dialect, they change places in the result and
nowhere else. -/
theorem analyze_exchanged :
    (m.config.Numeric → m.Writable → m.dialect.NamesTurrets → m.dialect.NamesSpindles →
        ∃ r, m.analyze program = .ok r) ∧
      (∀ r, m.analyze program = .ok r →
        ∃ r', m.exchanged.analyze program = .ok r' ∧ r.Exchanged r') ∧
      ∀ fault, m.analyze program = .error fault → m.exchanged.analyze program = .error fault := by
  have hrun := readLines_exchanged m (Text.lines program)
  obtain ⟨hok, herror⟩ := analyze_of_map_eq ((congrFun Except.map_id _).trans hrun)
  refine ⟨fun hconfig hwritable hturrets hspindles =>
    analyze_ok hconfig hwritable hturrets hspindles program, ?_,
    herror⟩
  intro r hr
  obtain ⟨s, s', rfl, hr', hview⟩ := hok r hr
  have hexchanged : s' = Renaming.scan { exchanges := true } s := hview
  rw [hexchanged] at hr'
  exact ⟨_, hr', Trace.exchanged_toResult s _⟩

/-- The Integrex dialect with its two turret markers exchanged. -/
theorem analyze_exchanged_integrex :
    ∃ r r', (ofPreset []).analyze "G109 L1\nP10 G99.9\nM562".toList = .ok r ∧
      (ofPreset []).exchanged.analyze "G109 L1\nP10 G99.9\nM562".toList = .ok r' ∧
      r.Exchanged r' ∧
      r.log.map Diagnostic.message =
        ["Upper turret selected (G109 L1)", "Invalid or unsupported G-code: G99.9",
          "Lower turret needs wait code before balance cutting",
          "Balance cutting starts (Master: upper)"].map String.toList ∧
      r'.log.map Diagnostic.message =
        ["Lower turret selected (G109 L1)", "Invalid or unsupported G-code: G99.9",
          "Upper turret needs wait code before balance cutting",
          "Balance cutting starts (Master: lower)"].map String.toList := by
  obtain ⟨hreturns, hok, _⟩ := analyze_exchanged (ofPreset []) "G109 L1\nP10 G99.9\nM562".toList
  obtain ⟨r, hr⟩ := hreturns (Config.numeric_preset []) (Machine.writable_ofPreset [])
    Dialect.integrex_namesTurrets Dialect.integrex_namesSpindles
  obtain ⟨r', hr', hexchanged⟩ := hok r hr
  have hmessages : ((ofPreset []).analyze "G109 L1\nP10 G99.9\nM562".toList).toOption.map
      (fun r => r.log.map Diagnostic.message) =
        some (["Upper turret selected (G109 L1)", "Invalid or unsupported G-code: G99.9",
          "Lower turret needs wait code before balance cutting",
          "Balance cutting starts (Master: upper)"].map String.toList) := by
    decide +kernel
  have hmessages' : ((ofPreset []).exchanged.analyze
      "G109 L1\nP10 G99.9\nM562".toList).toOption.map (fun r => r.log.map Diagnostic.message) =
        some (["Lower turret selected (G109 L1)", "Invalid or unsupported G-code: G99.9",
          "Upper turret needs wait code before balance cutting",
          "Balance cutting starts (Master: lower)"].map String.toList) := by
    decide +kernel
  rw [hr] at hmessages
  rw [hr'] at hmessages'
  exact ⟨r, r', hr, hr', hexchanged, Option.some.inj hmessages, Option.some.inj hmessages'⟩

end Machine
end DualTurret
