import DualTurret.Proofs.Scan.Waits
import DualTurret.Proofs.Scan.Work

/-!
# The handshake before balance cutting

Where a line of a turret starts balance cutting, both turrets must have issued the same
wait code.  What is warned of there is fixed by two wait codes: the latest one of the
line's own turret, the line included, and the latest one of the other turret before it.
No other line is warned of.
-/

namespace DualTurret

/-- The finding is about the wait codes before balance cutting. -/
def Finding.isHandshake : Finding → Bool
  | waitMissing _ _ _ | slaveWaitMissing _ | waitMismatch _ _ => true
  | _ => false

/-- The wording of the handshake warnings at a line. -/
def Log.handshakeAt (log : Log) (number : Int) : List Text :=
  ((Log.warnings log).filter fun d => d.line = number && d.finding.isHandshake).map
    Diagnostic.message

namespace Dialect

/-- What is to be warned of at a start of balance cutting, by the latest wait codes of the
master, whose line it is, and of the slave. -/
def handshakeTexts
    (d : Dialect)
    (master : Turret) :
    Option Text → Option Text → List Text
  | none, _ =>
      ["Wait code (".toList ++ Finding.rangeText .m d.waitM ++ " or ".toList ++
        Finding.rangeText .p d.waitP ++ ") should precede ".toList ++ d.balanceStart]
  | some _, none =>
      [master.opposite.label ++ " turret needs wait code before balance cutting".toList]
  | some masterCode, some slaveCode =>
      if slaveCode = masterCode then []
      else
        ["Mismatched wait codes - Master: ".toList ++ masterCode ++ ", Slave: ".toList ++
          slaveCode]

/-- The handshake warnings of a result: at each line that starts balance cutting, those of the
latest wait codes, and none at any other line. -/
structure HandshakeLaw (d : Dialect) (r : Result) : Prop where
  atStart : ∀ t entry, d.Starts r.stream t entry →
    r.log.handshakeAt entry.line =
      d.handshakeTexts t (d.latestCode? r.stream t entry.line)
        (d.latestCode? r.stream t.opposite (entry.line - 1))
  elsewhere : ∀ number, (∀ t entry, d.Starts r.stream t entry → entry.line ≠ number) →
    r.log.handshakeAt number = []

end Dialect

theorem Finding.severity_of_isHandshake
    {f : Finding}
    (h : f.isHandshake = true) :
    f.severity = .warning := by
  cases f with
  | waitMissing => rfl
  | slaveWaitMissing => rfl
  | waitMismatch => rfl
  | _ => cases h

theorem Finding.rule_of_isHandshake
    {f : Finding}
    (h : f.isHandshake = true) :
    f.rule = .balanceStart := by
  cases f with
  | waitMissing => rfl
  | slaveWaitMissing => rfl
  | waitMismatch => rfl
  | _ => cases h

theorem Log.handshakeAt_eq
    (log : Log)
    (number : Int) :
    log.handshakeAt number =
      ((log.findingsOn number).filter Finding.isHandshake).map Finding.message := by
  have hsame : ∀ d : Diagnostic,
      ((decide (d.line = number) && d.finding.isHandshake) &&
        decide (d.severity = Severity.warning)) =
          (d.finding.isHandshake && decide (d.line = number)) := by
    intro d
    cases hhandshake : d.finding.isHandshake with
    | false => simp
    | true => simp [Diagnostic.severity, Finding.severity_of_isHandshake hhandshake]
  unfold Log.handshakeAt Log.warnings Log.withSeverity Log.findingsOn
  rw [List.filter_filter, List.filter_map, List.filter_filter, List.map_map]
  simp only [hsame]
  rfl

namespace Machine

variable {m : Machine} {raw done : List Text} {s : Trace}

/-- The handshake is judged by the codes that both turrets have issued last. -/
theorem handshakeFindings_texts
    (m : Machine)
    (states : PerTurret TurretState)
    (master : Turret) :
    (m.handshakeFindings states master).map Finding.message =
      m.dialect.handshakeTexts master ((states.get master).lastWait?.map WaitEntry.code)
        ((states.get master.opposite).lastWait?.map WaitEntry.code) := by
  unfold handshakeFindings
  cases (states.get master).lastWait? with
  | none => rfl
  | some masterWait =>
      cases (states.get master.opposite).lastWait? with
      | none => rfl
      | some slaveWait =>
          show List.map Finding.message (if slaveWait.code = masterWait.code then [] else _) =
            if slaveWait.code = masterWait.code then [] else _
          split_ifs
          · rfl
          · rfl

/-- The wait codes are compared exactly where balance cutting starts. -/
theorem filter_isHandshake_startFindings
    {states : PerTurret TurretState}
    {t : Turret}
    {text : Text} :
    (m.startFindings states t text).filter Finding.isHandshake =
      if Block.holdsMarker text m.dialect.balanceStart then m.handshakeFindings states t
      else [] := by
  have hall : (m.handshakeFindings states t).filter Finding.isHandshake =
      m.handshakeFindings states t := by
    rw [List.filter_eq_self]
    intro f hf
    unfold handshakeFindings at hf
    split at hf
    · rw [List.mem_singleton.mp hf]
      rfl
    · split at hf
      · rw [List.mem_singleton.mp hf]
        rfl
      · split_ifs at hf
        · cases hf
        · rw [List.mem_singleton.mp hf]
          rfl
  unfold startFindings
  split_ifs
  · rw [List.filter_append, hall]
    exact List.append_nil _
  · rfl

/-- The handshake warnings of a line of the selected turret. -/
theorem filter_isHandshake_routedOutcome
    {p : Progress}
    {t : Turret}
    {signals : Signals}
    {index line : Int}
    {text : Text} :
    (m.routedOutcome raw p t signals index line text).findings.filter Finding.isHandshake =
      if Block.holdsMarker text m.dialect.balanceStart then
        m.handshakeFindings (m.routedProgress p t signals line text).states t
      else [] := by
  have hrule : ∀ f : Finding,
      (f.isHandshake && decide (f.rule = .balanceStart)) = f.isHandshake := by
    intro f
    cases hhandshake : f.isHandshake with
    | false => rfl
    | true => simp [Finding.rule_of_isHandshake hhandshake]
  have hfilter : ∀ found : List Finding, found.filter Finding.isHandshake =
      (found.filter fun f => f.rule = .balanceStart).filter Finding.isHandshake := by
    intro found
    rw [List.filter_filter]
    simp only [hrule]
  rw [hfilter, filter_rule_routedOutcome]
  exact filter_isHandshake_startFindings

/-- No line of the other turret has the number of a line of a turret. -/
theorem Reaches.upTo_opposite
    (h : Reaches m raw done s)
    {t : Turret}
    {entry : ClassifiedLine}
    (hentry : entry ∈ s.stream (.turret t)) :
    ClassifiedLine.upTo (s.stream (.turret t.opposite)) (entry.line - 1) =
      ClassifiedLine.upTo (s.stream (.turret t.opposite)) entry.line := by
  refine List.filter_congr ?_
  intro other hother
  have hne : other.line ≠ entry.line := by
    intro hline
    have hstream := (h.entry_unique hother hentry hline).1
    cases t <;> cases hstream
  simp only [decide_eq_decide]
  omega

/-- The handshake warnings at a line that starts balance cutting. -/
theorem Reaches.handshakeAt_start
    (h : Reaches m raw done s)
    {t : Turret}
    {entry : ClassifiedLine}
    (hstart : m.dialect.Starts s.stream t entry) :
    s.log.handshakeAt entry.line =
      m.dialect.handshakeTexts t (m.dialect.latestCode? s.stream t entry.line)
        (m.dialect.latestCode? s.stream t.opposite (entry.line - 1)) := by
  obtain ⟨hwork, hmarker⟩ := hstart
  have hopposite := h.upTo_opposite hwork.1
  obtain ⟨first, line, s₀, signals, hread, rfl⟩ := h.exists_routed hwork
  have hholds : Block.holdsMarker (Text.trim line) m.dialect.balanceStart = true := hmarker
  have hcode : ∀ t', m.dialect.latestCode? s.stream t' (first.length + 1) =
      ((m.routedProgress s₀.progress t signals (first.length + 1)
        (Text.trim line)).states.get t').lastWait?.map WaitEntry.code := by
    intro t'
    rw [Dialect.latestCode?, hread.passed.stream]
    exact (hread.after.lastWait?_code t').symm
  have hslave : m.dialect.latestCode? s.stream t.opposite ((first.length + 1 : Int) - 1) =
      m.dialect.latestCode? s.stream t.opposite (first.length + 1) := by
    unfold Dialect.latestCode?
    exact congrArg (fun entries => Option.map WaitCode.code
      (entries.filterMap m.dialect.issuedWait?).getLast?) hopposite
  show s.log.handshakeAt (first.length + 1) = m.dialect.handshakeTexts t
    (m.dialect.latestCode? s.stream t (first.length + 1))
      (m.dialect.latestCode? s.stream t.opposite ((first.length + 1 : Int) - 1))
  rw [hslave, hcode, hcode, Log.handshakeAt_eq, hread.findingsOn_eq,
    filter_isHandshake_routedOutcome, if_pos hholds, handshakeFindings_texts]

/-- A handshake warning stands at a line that starts balance cutting. -/
theorem Reaches.exists_start
    (h : Reaches m raw done s)
    {d : Diagnostic}
    (hd : d ∈ s.log)
    (hhandshake : d.finding.isHandshake = true) :
    ∃ t entry, m.dialect.Starts s.stream t entry ∧ entry.line = d.line := by
  obtain ⟨first, line, s₀, outcome, hread, hfinding, hline⟩ := h.exists_readAt_of_log hd
  have hrule := Finding.rule_of_isHandshake hhandshake
  have step := hread.step
  cases step with
  | header => cases hfinding
  | common => cases hfinding
  | select =>
      rw [rule_of_mem_readSelection hfinding] at hrule
      cases hrule
  | @routed t signals hselect =>
      have hmem := List.mem_filter.mpr ⟨hfinding, hhandshake⟩
      rw [filter_isHandshake_routedOutcome] at hmem
      split_ifs at hmem with hmarker
      · refine ⟨t, _, ⟨⟨hread.mem_stream rfl, hselect⟩, hmarker⟩, ?_⟩
        exact hline.symm
      · cases hmem

/-- Where balance cutting starts, the latest wait codes of both turrets fix what is warned
of, and nowhere else is there such a warning. -/
theorem analyze_checks_handshake
    (m : Machine)
    (program : Text) :
    (m.config.Numeric → m.Writable → m.dialect.NamesTurrets → m.dialect.NamesSpindles →
        ∃ r, m.analyze program = .ok r) ∧
      ∀ r, m.analyze program = .ok r → m.dialect.HandshakeLaw r := by
  refine ⟨fun hconfig hwritable hturrets hspindles =>
    analyze_ok hconfig hwritable hturrets hspindles program, ?_⟩
  intro r hr
  obtain ⟨s, hreach, rfl⟩ := exists_reaches hr
  constructor
  · intro t entry hstart
    rw [Trace.toResult_stream] at hstart ⊢
    exact hreach.handshakeAt_start hstart
  · intro number hnone
    rw [Trace.toResult_stream] at hnone
    have hno : ∀ f ∈ s.log.findingsOn number, ¬ f.isHandshake = true := by
      intro f hf hhandshake
      obtain ⟨d, hd, rfl⟩ := List.mem_map.mp hf
      obtain ⟨hmem, hline⟩ := List.mem_filter.mp hd
      obtain ⟨t, entry, hstart, hentry⟩ := hreach.exists_start hmem hhandshake
      exact hnone t entry hstart (hentry.trans (of_decide_eq_true hline))
    show s.log.handshakeAt number = []
    rw [Log.handshakeAt_eq, List.filter_eq_nil_iff.mpr hno]
    rfl

/-- Starts with no wait code, with one on one side, with different ones and with the same;
codes and starts on a common line and on selections do not count. -/
theorem analyze_checks_every_handshake :
    ∃ r, (Machine.ofPreset Config.defaultPreset).analyze
        "P1 M562\nG109 L2 P1 M562\nM562\nP1\nM562\nG109 L1 P1\nM950 M562\nP1 M562".toList =
          .ok r ∧
      Dialect.integrex.HandshakeLaw r ∧
      (Log.warnings r.log).map (fun d => d.line) = [3, 5, 7] ∧
      r.log.handshakeAt 7 = ["Mismatched wait codes - Master: M950, Slave: P1".toList] := by
  obtain ⟨hok, hlaw⟩ := analyze_checks_handshake (Machine.ofPreset Config.defaultPreset)
    "P1 M562\nG109 L2 P1 M562\nM562\nP1\nM562\nG109 L1 P1\nM950 M562\nP1 M562".toList
  obtain ⟨r, hr⟩ := hok (Config.numeric_preset _) (Machine.writable_ofPreset _)
    Dialect.integrex_namesTurrets Dialect.integrex_namesSpindles
  refine ⟨r, hr, hlaw r hr, ?_⟩
  have hwarned : ((Machine.ofPreset Config.defaultPreset).analyze
      "P1 M562\nG109 L2 P1 M562\nM562\nP1\nM562\nG109 L1 P1\nM950 M562\nP1 M562".toList
        ).toOption.any (fun r => (Log.warnings r.log).map (fun d => d.line) = [3, 5, 7] ∧
          r.log.handshakeAt 7 =
            ["Mismatched wait codes - Master: M950, Slave: P1".toList]) = true := by
    decide +kernel
  rw [hr] at hwarned
  exact of_decide_eq_true hwarned

end Machine
end DualTurret
