import DualTurret.Proofs.Errors

/-!
# Isolation of the turrets

One scan serves both turrets: they share the selected turret and the session of balance
cutting.  Still, what a turret shows of itself is fixed by the texts of its own lines: the
modes at each of them, the modes and wait codes at the end, and the errors and the notes on
its modes at its lines.

The proof replays a turret from the texts of its lines alone (`Machine.replay`) and shows
that each run shows of the turret what the replay shows.  A line of the other turret, or of
no turret, leaves the view of a turret as it was.
-/

namespace DualTurret

/-- The findings at the lines of some entries, without their line numbers. -/
def Log.findingsAt (log : Log) (entries : List ClassifiedLine) : List Finding :=
  (log.filter fun d => entries.any fun entry => entry.line = d.line).map fun d => d.finding

/-- What a turret shows of itself: for each of its lines, whether it is a comment, and the modes
there; at the end, the modes and the wait codes with their values; and, at its lines, the
errors and the notes on its spindle, milling and cross machining. -/
structure TurretView where
  lines : List (Bool × Modes) := []
  modes : Modes := {}
  waits : List (Text × Int) := []
  errors : List Finding := []
  modeNotes : List Finding := []

/-- The view of a turret from its lines, its state and the findings at its lines. -/
def TurretView.of
    (entries : List ClassifiedLine)
    (state : TurretState)
    (findings : List Finding) :
    TurretView where
  lines := entries.map fun entry => (entry.comment, entry.modes)
  modes := state.modes
  waits := state.waits.map fun wait => (wait.code, wait.value)
  errors := findings.filter fun f => f.severity = .error
  modeNotes := findings.filter fun f => f.rule = .mode

def Result.texts (r : Result) (t : Turret) : List Text :=
  (r.streams.get t).map fun entry => entry.text

def Result.view (r : Result) (t : Turret) : TurretView :=
  TurretView.of (r.streams.get t) (r.finalStates.get t) (r.log.findingsAt (r.streams.get t))

def Trace.view (s : Trace) (t : Turret) : TurretView :=
  TurretView.of (s.stream (.turret t)) (s.progress.states.get t)
    (s.log.findingsAt (s.stream (.turret t)))

theorem Trace.toResult_view
    (s : Trace)
    (raw : List Text)
    (t : Turret) :
    (s.toResult raw).view t = s.view t := by
  cases t <;> rfl

namespace Machine

/-- A turret's view after one more line of its own, by the text of the line. -/
def replayLine (m : Machine) (view : TurretView) (text : Text) : TurretView :=
  match m.dialect.selectedTurret? text, m.dialect.signals text with
  | none, .ok signals =>
      let (modes, notes) := view.modes.follow signals
      { lines := view.lines ++ [(Block.isComment text, modes)]
        modes
        waits := view.waits ++
          (m.dialect.waitCode? text).toList.map fun wait => (wait.code, (wait.value : Int))
        errors := view.errors ++ m.blockErrors text
        modeNotes := view.modeNotes ++ notes }
  | _, _ => { view with lines := view.lines ++ [(false, view.modes)] }

/-- A turret's view from the texts of its lines. -/
def replay (m : Machine) (texts : List Text) : TurretView :=
  texts.foldl m.replayLine {}

variable {m : Machine} {raw done : List Text} {s : Trace}

section After

variable {outcome : Outcome} {text : Text} {t : Turret}

theorem Reaches.findingsAt_after_none
    (before : Reaches m raw done s)
    {stream : Stream}
    (hentry : (outcome.reading (done.length + 1)).lineIn? stream = none) :
    (s.after outcome (done.length + 1)).log.findingsAt
        ((s.after outcome (done.length + 1)).stream stream) =
      s.log.findingsAt (s.stream stream) := by
  have hnew : (outcome.findings.map fun f => (⟨done.length + 1, f⟩ : Diagnostic)).filter
      (fun d => (s.stream stream).any fun entry => entry.line = d.line) = [] := by
    rw [List.filter_eq_nil_iff]
    intro d hd hany
    obtain ⟨f, _, rfl⟩ := List.mem_map.mp hd
    obtain ⟨entry, hmem, hline⟩ := List.any_eq_true.mp hany
    have hbound := (before.entry_line_bounds hmem).2
    have hline := of_decide_eq_true hline
    simp only at hline
    omega
  rw [Trace.stream_after, hentry, Option.toList_none, List.append_nil, Trace.log_after,
    Log.findingsAt, List.filter_append, hnew, List.append_nil]
  rfl

theorem Reaches.findingsAt_after_some
    (before : Reaches m raw done s)
    (step : Advance m raw s.progress done.length (done.length + 1) text outcome)
    {stream : Stream}
    {entry : ClassifiedLine}
    (hentry : (outcome.reading (done.length + 1)).lineIn? stream = some entry) :
    (s.after outcome (done.length + 1)).log.findingsAt
        ((s.after outcome (done.length + 1)).stream stream) =
      s.log.findingsAt (s.stream stream) ++ outcome.findings := by
  have hline : entry.line = done.length + 1 :=
    step.placed_line (Reading.lineIn?_eq_some.mp hentry)
  have hold : s.log.filter
      (fun d => (s.stream stream ++ [entry]).any fun other => other.line = d.line) =
        s.log.filter fun d => (s.stream stream).any fun other => other.line = d.line := by
    refine List.filter_congr ?_
    intro d hd
    have hbound := (before.log_line_bounds hd).2
    have hne : ¬ entry.line = d.line := by
      omega
    simp [hne]
  have hnew : (outcome.findings.map fun f => (⟨done.length + 1, f⟩ : Diagnostic)).filter
      (fun d => (s.stream stream ++ [entry]).any fun other => other.line = d.line) =
        outcome.findings.map fun f => ⟨done.length + 1, f⟩ := by
    rw [List.filter_eq_self]
    intro d hd
    obtain ⟨f, _, rfl⟩ := List.mem_map.mp hd
    simp [hline]
  have hfindings : (outcome.findings.map fun f => (⟨done.length + 1, f⟩ : Diagnostic)).map
      (fun d => d.finding) = outcome.findings := by
    rw [List.map_map]
    exact List.map_id _
  rw [Trace.stream_after, hentry, Option.toList_some, Trace.log_after, Log.findingsAt,
    List.filter_append, hold, hnew, List.map_append, hfindings]
  rfl

/-- A line of another stream leaves the view of a turret as it is. -/
theorem Reaches.view_after_none
    (before : Reaches m raw done s)
    (hentry : (outcome.reading (done.length + 1)).lineIn? (.turret t) = none)
    (hstate : outcome.progress.states.get t = s.progress.states.get t) :
    (s.after outcome (done.length + 1)).view t = s.view t := by
  unfold Trace.view
  rw [before.findingsAt_after_none hentry, Trace.stream_after, hentry, Option.toList_none,
    List.append_nil]
  exact congrArg (fun state => TurretView.of _ state _) hstate

/-- A line of its own is all that the view of a turret gains. -/
theorem Reaches.view_after_some
    (before : Reaches m raw done s)
    (step : Advance m raw s.progress done.length (done.length + 1) text outcome)
    {entry : ClassifiedLine}
    (hentry : (outcome.reading (done.length + 1)).lineIn? (.turret t) = some entry) :
    (s.after outcome (done.length + 1)).view t =
      TurretView.of (s.stream (.turret t) ++ [entry]) (outcome.progress.states.get t)
        (s.log.findingsAt (s.stream (.turret t)) ++ outcome.findings) := by
  unfold Trace.view
  rw [before.findingsAt_after_some step hentry, Trace.stream_after, hentry, Option.toList_some]
  rfl

end After

theorem filter_mode_readSelection
    {p : Progress}
    {t : Turret}
    {marker : Text}
    {line : Int}
    {text : Text} :
    (readSelection p t marker line text).findings.filter (fun f => f.rule = .mode) = [] := by
  rw [List.filter_eq_nil_iff]
  intro f hf
  simp [rule_of_mem_readSelection hf]

/-- One more line replays one more text in the view of its turret, and changes no other
view. -/
theorem Reaches.view_after
    (before : Reaches m raw done s)
    {text : Text}
    {outcome : Outcome}
    (step : Advance m raw s.progress done.length (done.length + 1) text outcome)
    (t : Turret) :
    (s.after outcome (done.length + 1)).view t =
      (((outcome.reading (done.length + 1)).lineIn? (.turret t)).toList.map
        fun entry => entry.text).foldl m.replayLine (s.view t) := by
  cases hentry : (outcome.reading (done.length + 1)).lineIn? (.turret t) with
  | none =>
      exact before.view_after_none hentry (step.state_eq_of_entry_none hentry)
  | some entry =>
      rw [before.view_after_some step hentry]
      have hplaced := Reading.lineIn?_eq_some.mp hentry
      cases step with
      | header => cases hplaced
      | common => cases hplaced
      | select hselect =>
          cases hplaced
          show _ = m.replayLine (s.view t) text
          rw [replayLine, hselect, TurretView.of, List.filter_append, List.filter_append,
            filter_error_readSelection, filter_mode_readSelection, List.append_nil,
            List.append_nil, List.map_append]
          rfl
      | routed hselect _ hsignals hchecks =>
          cases hplaced
          show _ = m.replayLine (s.view t) text
          rw [replayLine, hselect, hsignals, TurretView.of, List.filter_append, List.filter_append,
            filter_error_routedOutcome hchecks, filter_rule_routedOutcome, List.map_append]
          simp only [routedOutcome, routedEntry, TurretState.snapshot, routedProgress_state, follow,
            List.map_append, List.map_map]
          rfl

/-- A run shows of each turret what the texts of its lines replay. -/
theorem Reaches.view_eq_replay
    (h : Reaches m raw done s)
    (t : Turret) :
    s.view t = m.replay ((s.stream (.turret t)).map fun entry => entry.text) := by
  induction h with
  | start => cases t <;> rfl
  | skip _ _ ih => exact ih
  | advance before _ step ih =>
      rw [before.view_after step, ih, Trace.stream_after, List.map_append, replay, replay,
        List.foldl_append]

/-- What a result shows of a turret depends on the texts of its lines alone. -/
theorem view_eq_replay_of_analyze
    {program : Text}
    {r : Result}
    (h : m.analyze program = .ok r)
    (t : Turret) :
    r.view t = m.replay (r.texts t) := by
  obtain ⟨s, hreach, rfl⟩ := exists_reaches h
  rw [Trace.toResult_view, hreach.view_eq_replay]
  cases t <;> rfl

/-- Two programs that give a turret lines of the same texts show the same of it: what its own
texts replay. -/
theorem analyze_isolates_turrets
    (m : Machine)
    (t : Turret)
    (program program' : Text)
    (r r' : Result)
    (h : m.analyze program = .ok r)
    (h' : m.analyze program' = .ok r')
    (htexts : r.texts t = r'.texts t) :
    r.view t = r'.view t ∧ r.view t = m.replay (r.texts t) := by
  have hview := view_eq_replay_of_analyze h t
  refine ⟨?_, hview⟩
  rw [hview, view_eq_replay_of_analyze h' t, htexts]

/-- The upper turret has lines of the same texts in both programs.  In the second they stand
after lines of the lower turret that start balance cutting, so that their tags differ. -/
theorem analyze_isolates_upper_turret :
    ∃ r r', (Machine.ofPreset Config.defaultPreset).analyze
        "G109 L1\nM901 M950\nG777\nG109 L1\nM200\nG109 L2\nM902".toList = .ok r ∧
      (Machine.ofPreset Config.defaultPreset).analyze
        "O1\nG109 L2\nM200 M562\nG109 L1\n\nM901 M950\n G777\nG109 L1\nM200".toList = .ok r' ∧
      r.texts .upper = r'.texts .upper ∧
      r.streams.upper.map (fun entry => entry.tag) ≠
        r'.streams.upper.map (fun entry => entry.tag) ∧
      r.view .upper = r'.view .upper := by
  have hok := analyze_ok (m := Machine.ofPreset Config.defaultPreset)
    (Config.numeric_preset _) (Machine.writable_ofPreset _)
    Dialect.integrex_namesTurrets Dialect.integrex_namesSpindles
  obtain ⟨r, hr⟩ := hok "G109 L1\nM901 M950\nG777\nG109 L1\nM200\nG109 L2\nM902".toList
  obtain ⟨r', hr'⟩ := hok
    "O1\nG109 L2\nM200 M562\nG109 L1\n\nM901 M950\n G777\nG109 L1\nM200".toList
  have hupper : (((Machine.ofPreset Config.defaultPreset).analyze
        "G109 L1\nM901 M950\nG777\nG109 L1\nM200\nG109 L2\nM902".toList).toOption.any
      fun r => ((Machine.ofPreset Config.defaultPreset).analyze
        "O1\nG109 L2\nM200 M562\nG109 L1\n\nM901 M950\n G777\nG109 L1\nM200".toList).toOption.any
      fun r' => r.texts .upper = r'.texts .upper ∧
        r.streams.upper.map (fun entry => entry.tag) ≠
          r'.streams.upper.map (fun entry => entry.tag)) = true := by
    decide +kernel
  rw [hr, hr'] at hupper
  obtain ⟨htexts, htags⟩ := of_decide_eq_true hupper
  refine ⟨r, r', hr, hr', htexts, htags, ?_⟩
  exact (analyze_isolates_turrets _ .upper _ _ r r' hr hr' htexts).1

end Machine
end DualTurret
