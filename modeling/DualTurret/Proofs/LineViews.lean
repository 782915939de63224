import DualTurret.Proofs.Partition
import DualTurret.Proofs.Scan.Moment
import DualTurret.Proofs.WorkbenchCalls

/-!
# Diagnostics line by line

A scan reads forward and reports at the line that it reads, and only at lines that it places
with a turret.  So the diagnostics of a result are in the order of the lines, and each belongs
to a line of a turret.  A workbench shows them by line; put together, these views hold every
diagnostic once, because its number is that of a line of the program.

Main facts:
* `Machine.Reaches.log_ordered` and `Machine.Reaches.exists_owner`: order and place of the
  diagnostics;
* `Log.perm_byLine`: the views of the lines make up the log;
* `Workbench.process_shows_by_line`: what a workbench shows after an analysis.
-/

namespace DualTurret

/-! ## Lines in increasing order -/

theorem pairwise_lt_eraseDups :
    ∀ lines : List Int, lines.Pairwise (· ≤ ·) → lines.eraseDups.Pairwise (· < ·)
  | [], _ => List.Pairwise.nil
  | line :: lines, h => by
      obtain ⟨hfirst, hrest⟩ := List.pairwise_cons.mp h
      rw [List.eraseDups_cons]
      refine List.pairwise_cons.mpr ⟨?_, pairwise_lt_eraseDups _ (hrest.filter _)⟩
      intro other hother
      obtain ⟨hmem, hne⟩ := List.mem_filter.mp (List.mem_eraseDups.mp hother)
      have hle := hfirst other hmem
      have hne : other ≠ line := by simpa using hne
      omega
termination_by lines => lines.length
decreasing_by exact Nat.lt_succ_of_le (List.length_filter_le _ _)

theorem mem_sortedLines
    {lines : List Int}
    {line : Int} :
    line ∈ sortedLines lines ↔ line ∈ lines := by
  rw [sortedLines, List.mem_eraseDups, List.mem_mergeSort]

theorem sortedLines_eq_nil_iff {lines : List Int} : sortedLines lines = [] ↔ lines = [] := by
  simp only [List.eq_nil_iff_forall_not_mem, mem_sortedLines]

/-- The lines are sorted and not repeated. -/
theorem sortedLines_increasing (lines : List Int) : (sortedLines lines).Pairwise (· < ·) := by
  have htrans : ∀ a b c : Int, decide (a ≤ b) = true → decide (b ≤ c) = true →
      decide (a ≤ c) = true := by
    intro a b c hab hbc
    exact decide_eq_true (Int.le_trans (of_decide_eq_true hab) (of_decide_eq_true hbc))
  have htotal : ∀ a b : Int, (decide (a ≤ b) || decide (b ≤ a)) = true := by
    intro a b
    simpa using Int.le_total a b
  exact pairwise_lt_eraseDups _
    ((List.pairwise_mergeSort htrans htotal lines).imp of_decide_eq_true)

/-! ## Views of a log -/

namespace Log

/-- The diagnostics at the line of a number. -/
def onLine (log : Log) (number : Int) : Log :=
  log.filter fun d => d.line = number

theorem withSeverity_withSeverity
    (log : Log)
    (first second : Severity) :
    withSeverity (withSeverity log first) second =
      if first = second then withSeverity log first else [] := by
  unfold withSeverity
  rw [List.filter_filter]
  split_ifs with heq
  · subst heq
    simp
  · rw [List.filter_eq_nil_iff]
    intro d _
    simp only [Bool.and_eq_true, decide_eq_true_eq, not_and]
    rintro hsecond hfirst
    exact heq (hfirst.symm.trans hsecond)

/-- Sorting by severity keeps the diagnostics of each severity. -/
theorem withSeverity_bySeverity
    (log : Log)
    (severity : Severity) :
    withSeverity (bySeverity log) severity = withSeverity log severity := by
  rw [bySeverity, withSeverity_append, withSeverity_append, errors, warnings, notes,
    withSeverity_withSeverity, withSeverity_withSeverity, withSeverity_withSeverity]
  cases severity <;> simp

/-- Ordering by severity keeps all diagnostics. -/
theorem mem_bySeverity {log : Log} {d : Diagnostic} : d ∈ bySeverity log ↔ d ∈ log := by
  simp only [bySeverity, errors, warnings, notes, withSeverity, List.mem_append, List.mem_filter,
    decide_eq_true_eq]
  cases hseverity : d.severity <;> simp

/-- The views of the lines up to a number hold the diagnostics up to it, each once. -/
theorem perm_upTo
    (log : Log)
    (hlow : ∀ d ∈ log, 1 ≤ d.line)
    (count : Nat) :
    ((List.range count).flatMap fun k : Nat => log.onLine ((k : Int) + 1)).Perm
      (log.upTo count) := by
  induction count with
  | zero =>
      have hnone : log.upTo (0 : Nat) = [] := by
        rw [upTo, List.filter_eq_nil_iff]
        intro d hd hle
        have := hlow d hd
        have := of_decide_eq_true hle
        omega
      rw [hnone]
      exact List.Perm.nil
  | succ count ih =>
      have hbefore : (log.upTo (count + 1 : Nat)).filter (fun d => d.line ≤ (count : Int)) =
          log.upTo count := by
        rw [upTo, upTo, List.filter_filter]
        refine List.filter_congr ?_
        intro d _
        rw [← Bool.decide_and, decide_eq_decide]
        omega
      have hlast : (log.upTo (count + 1 : Nat)).filter (fun d => !decide (d.line ≤ (count : Int))) =
          log.onLine (count + 1) := by
        rw [upTo, Log.onLine, List.filter_filter]
        refine List.filter_congr ?_
        intro d _
        rw [← decide_not, ← Bool.decide_and, decide_eq_decide]
        omega
      rw [List.range_succ, List.flatMap_append, List.flatMap_singleton]
      have hsplit := List.filter_append_perm (fun d : Diagnostic => decide (d.line ≤ (count : Int)))
        (log.upTo (count + 1 : Nat))
      rw [hbefore, hlast] at hsplit
      exact (ih.append_right _).trans hsplit

/-- The views of the lines make up the log, if each number is that of a line. -/
theorem perm_byLine
    (log : Log)
    {count : Nat}
    (hbounds : ∀ d ∈ log, 1 ≤ d.line ∧ d.line ≤ count) :
    ((List.range count).flatMap fun k : Nat => log.onLine ((k : Int) + 1)).Perm log := by
  have hall : log.upTo count = log := by
    refine List.filter_eq_self.mpr ?_
    intro d hd
    exact decide_eq_true (hbounds d hd).2
  have hperm := log.perm_upTo (fun d hd => (hbounds d hd).1) count
  rwa [hall] at hperm

end Log

/-! ## The diagnostics of a run -/

namespace Machine

variable {m : Machine} {raw done : List Text} {s : Trace}

/-- Only a line that is placed with a turret finds anything. -/
theorem Advance.exists_turret_of_finding
    {p : Progress}
    {index line : Int}
    {text : Text}
    {outcome : Outcome}
    (h : Advance m raw p index line text outcome)
    {f : Finding}
    (hf : f ∈ outcome.findings) :
    ∃ t entry, outcome.placed = some (.turret t, entry) := by
  cases h with
  | header => cases hf
  | common => cases hf
  | select => exact ⟨_, _, rfl⟩
  | routed => exact ⟨_, _, rfl⟩

/-- Every diagnostic belongs to a line of a turret. -/
theorem Reaches.exists_owner
    (h : Reaches m raw done s)
    {d : Diagnostic}
    (hd : d ∈ s.log) :
    ∃ t, ∃ entry ∈ s.stream (.turret t), entry.line = d.line := by
  obtain ⟨first, line, s₀, outcome, hread, hfinding, hline⟩ := h.exists_readAt_of_log hd
  obtain ⟨t, entry, hplaced⟩ := hread.step.exists_turret_of_finding hfinding
  exact ⟨t, entry, hread.mem_stream hplaced, (hread.step.placed_line hplaced).trans hline.symm⟩

/-- The diagnostics stand in the order of the lines. -/
theorem Reaches.log_ordered
    (h : Reaches m raw done s) :
    s.log.Pairwise fun a b => a.line ≤ b.line := by
  have hline : ∀ {r : Reading} {d : Diagnostic}, d ∈ r.diagnostics → d.line = r.line := by
    intro r d hd
    obtain ⟨f, _, rfl⟩ := List.mem_map.mp hd
    rfl
  refine List.pairwise_flatMap.mpr ⟨?_, h.history_increasing.imp ?_⟩
  · intro r _
    exact List.pairwise_map.mpr (List.pairwise_of_forall fun _ _ => Int.le_refl _)
  · intro r r' hlt a ha b hb
    rw [hline ha, hline hb]
    omega

/-- A line that is dropped or belongs to the common section has no diagnostics. -/
theorem Reaches.line_ne_of_unrouted
    (hwords : m.dialect.Worded)
    (h : Reaches m raw done s)
    {first after : List Text}
    {line : Text}
    (hsplit : done = first ++ line :: after)
    (hunrouted : m.dialect.Drops first line ∨ ¬ m.dialect.SelectsIn (first ++ [line]))
    {d : Diagnostic}
    (hd : d ∈ s.log) :
    d.line ≠ first.length + 1 := by
  intro hline
  obtain ⟨t, entry, hentry, howner⟩ := h.exists_owner hd
  cases h.placement hwords first line after hsplit with
  | dropped _ habsent => exact habsent _ entry hentry (howner.trans hline)
  | common _ _ hcommon =>
      obtain ⟨other, hother, hnumber, _⟩ := hcommon
      obtain ⟨hstream, _⟩ :=
        h.entry_unique hentry hother (howner.trans (hline.trans hnumber.symm))
      cases hstream
  | routed t' hdrop hroute =>
      rcases hunrouted with hdrops | hselects
      · exact hdrop hdrops
      · exact hselects hroute.selectsIn

theorem selectFindings_cases
    (text : Text) :
    selectFindings text = [] ∨ selectFindings text = [.selectWithMotion] := by
  unfold selectFindings
  split_ifs
  · exact Or.inr rfl
  · exact Or.inl rfl

/-- A turret selection has one note, no error and at most one warning. -/
theorem Reaches.findings_of_selection
    (h : Reaches m raw done s)
    {t : Turret}
    {entry : ClassifiedLine}
    (hentry : entry ∈ s.stream (.turret t))
    (htag : entry.tag = .turretSelect) :
    ∃ marker, s.log.findingsOn entry.line = [.turretSelected t marker] ∨
      s.log.findingsOn entry.line = [.selectWithMotion, .turretSelected t marker] := by
  obtain ⟨first, line, s₀, outcome, hread, hplaced⟩ := h.exists_readAt_of_mem hentry
  have hfound := hread.findingsOn_eq
  rw [← hread.step.placed_line hplaced] at hfound
  rw [hfound]
  obtain ⟨_, _, step, _⟩ := hread
  cases step with
  | header => cases hplaced
  | common => cases hplaced
  | @select t marker =>
      cases hplaced
      refine ⟨marker, ?_⟩
      rcases selectFindings_cases (Text.trim line) with hnone | hmotion
      · exact Or.inl (by simp [readSelection, hnone])
      · exact Or.inr (by simp [readSelection, hmotion])
  | routed =>
      cases hplaced
      simp only [routedEntry, TurretState.snapshot] at htag
      split_ifs at htag

end Machine

/-! ## The views of a workbench -/

/-- The view of a line keeps what was found there of each severity. -/
theorem Result.length_diagnosticsAt
    (r : Result)
    (severity : Severity)
    (number : Int) :
    (Log.withSeverity (r.diagnosticsAt number) severity).length =
      ((r.log.findingsOn number).filter fun f => f.severity = severity).length := by
  have hview : Log.withSeverity (r.diagnosticsAt number) severity =
      Log.withSeverity (Log.onLine r.log number) severity := by
    have hcomm : ∀ log : Log, Log.withSeverity (log.onLine number) severity =
        (Log.withSeverity log severity).onLine number := fun log => List.filter_comm _ _ log
    have hat : r.diagnosticsAt number = (Log.bySeverity r.log).onLine number := rfl
    rw [hat, hcomm, hcomm, Log.withSeverity_bySeverity]
  rw [hview, Log.findingsOn, List.filter_map, List.length_map]
  rfl

theorem Result.mem_diagnosticsAt
    {r : Result}
    {number : Int}
    {d : Diagnostic} :
    d ∈ r.diagnosticsAt number ↔ d ∈ r.log ∧ d.line = number := by
  rw [Result.diagnosticsAt, List.mem_filter, Log.mem_bySeverity, decide_eq_true_eq]

namespace Workbench

/-- What a workbench shows by line, when its result is that of the program. -/
structure ShownByLine
    (w : Workbench)
    (d : Dialect)
    (program : Text)
    (r : Result)
    (clean : Bool) : Prop where
  total : r.totalLines = (Text.lines program).length
  ordered : ∀ severity, (Log.withSeverity r.log severity).Pairwise fun a b => a.line ≤ b.line
  owned : ∀ found ∈ r.log, ∃ t, ∃ entry ∈ r.streams.get t, entry.line = found.line
  unrouted : ∀ first line after, Text.lines program = first ++ line :: after →
    d.Drops first line ∨ ¬ d.SelectsIn (first ++ [line]) →
    ∀ found ∈ r.log, found.line ≠ first.length + 1
  selection : ∀ t, ∀ entry ∈ r.streams.get t, entry.tag = .turretSelect →
    Log.errors (w.diagnosticsAt entry.line) = [] ∧
      (Log.notes (w.diagnosticsAt entry.line)).length = 1 ∧
      (Log.warnings (w.diagnosticsAt entry.line)).length ≤ 1
  views : ((List.range r.totalLines).flatMap fun k : Nat => w.diagnosticsAt ((k : Int) + 1)).Perm
    w.diagnostics
  beyond : ∀ line : Int, line < 1 ∨ r.totalLines < line → w.diagnosticsAt line = []
  errorLines : w.errorLines.Pairwise (· < ·)
  mem_errorLines : ∀ line, line ∈ w.errorLines ↔
    ∃ found ∈ w.diagnosticsAt line, found.severity = .error
  clean_iff : clean = true ↔ w.hasErrors = false
  hasErrors_iff : w.hasErrors = false ↔ w.errorLines = []

variable {w : Workbench} {r : Result}

/-- A line is an error line if there is an error among its diagnostics. -/
theorem mem_errorLines_iff
    (h : w.result = some r)
    {line : Int} :
    line ∈ w.errorLines ↔ ∃ found ∈ w.diagnosticsAt line, found.severity = .error := by
  simp only [errorLines, diagnosticsAt, h, mem_sortedLines, List.mem_map, Log.errors,
    Log.withSeverity, List.mem_filter, decide_eq_true_eq, Result.mem_diagnosticsAt]
  constructor
  · rintro ⟨found, ⟨hmem, hseverity⟩, hline⟩
    exact ⟨found, ⟨hmem, hline⟩, hseverity⟩
  · rintro ⟨found, ⟨hmem, hline⟩, hseverity⟩
    exact ⟨found, ⟨hmem, hseverity⟩, hline⟩

/-- There are no errors exactly if there are no error lines. -/
theorem hasErrors_iff_errorLines
    (h : w.result = some r) :
    w.hasErrors = false ↔ w.errorLines = [] := by
  have hlines : w.errorLines = sortedLines ((Log.errors r.log).map (·.line)) := by
    simp only [errorLines, h]
  rw [hlines, sortedLines_eq_nil_iff, List.map_eq_nil_iff]
  simp [hasErrors, h]

/-- The views of a result that a run has come to. -/
theorem shownByLine_of_reaches
    {m : Machine}
    {program : Text}
    {s : Trace}
    (hwords : m.dialect.Worded)
    (h : m.Reaches (Text.lines program) (Text.lines program) s)
    (hresult : w.result = some (s.toResult (Text.lines program))) :
    ShownByLine w m.dialect program (s.toResult (Text.lines program))
      (Log.errors s.log).isEmpty := by
  have hat : ∀ line, w.diagnosticsAt line =
      (s.toResult (Text.lines program)).diagnosticsAt line := by
    intro line
    simp only [diagnosticsAt, hresult]
  have hstream : ∀ t, (s.toResult (Text.lines program)).streams.get t = s.stream (.turret t) := by
    intro t
    cases t <;> rfl
  have hbounds : ∀ d ∈ s.log, 1 ≤ d.line ∧ d.line ≤ (Text.lines program).length :=
    fun d hd => h.log_line_bounds hd
  constructor
  · rfl
  · intro severity
    exact h.log_ordered.filter _
  · intro found hfound
    obtain ⟨t, entry, hentry, hline⟩ := h.exists_owner hfound
    exact ⟨t, entry, by rwa [hstream], hline⟩
  · intro first line after hsplit hunrouted found hfound
    exact h.line_ne_of_unrouted hwords hsplit hunrouted hfound
  · intro t entry hentry htag
    rw [hstream] at hentry
    have hcount := fun severity =>
      Result.length_diagnosticsAt (s.toResult (Text.lines program)) severity entry.line
    have hlog : (s.toResult (Text.lines program)).log = s.log := rfl
    rw [hat, Log.errors, Log.notes, Log.warnings, ← List.length_eq_zero_iff, hcount, hcount,
      hcount, hlog]
    obtain ⟨marker, hfound | hfound⟩ := h.findings_of_selection hentry htag
    · rw [hfound]
      exact ⟨rfl, rfl, Nat.zero_le _⟩
    · rw [hfound]
      exact ⟨rfl, rfl, Nat.le_refl _⟩
  · have hperm := Log.perm_byLine (Log.bySeverity s.log)
      fun d hd => hbounds d (Log.mem_bySeverity.mp hd)
    simp only [hat, diagnostics, hresult]
    exact hperm
  · intro line hline
    rw [hat, List.eq_nil_iff_forall_not_mem]
    intro found hfound
    obtain ⟨hmem, rfl⟩ := Result.mem_diagnosticsAt.mp hfound
    have hbound := hbounds found hmem
    have htotal : (s.toResult (Text.lines program)).totalLines = (Text.lines program).length := rfl
    omega
  · simp only [errorLines, hresult]
    exact sortedLines_increasing _
  · intro line
    exact mem_errorLines_iff hresult
  · have hlog : (s.toResult (Text.lines program)).log = s.log := rfl
    simp [hasErrors, hresult, hlog]
  · exact hasErrors_iff_errorLines hresult

/-- Every analysis that succeeds is that of a text, and its diagnostics are shown by line as
they belong; with numeric limits, numbers that can be written and known names the analysis of a
text does succeed. -/
theorem process_shows_by_line
    (w : Workbench)
    (hwords : w.machine.dialect.Worded) :
    (∀ value w' clean, w.process value = (w', .ok clean) →
      ∃ program r, value = .text program ∧ w'.result = some r ∧
        ShownByLine w' w.machine.dialect program.toText r clean) ∧
    (w.machine.config.Numeric → w.machine.Writable → w.machine.dialect.NamesTurrets →
      w.machine.dialect.NamesSpindles →
      ∀ program : DocText, ∃ w' clean, w.process (.text program) = (w', .ok clean)) := by
  constructor
  · intro value w' clean hprocess
    cases hvalue : w.machine.analyzeValue value with
    | error e =>
        simp only [process, hvalue] at hprocess
        cases hprocess
    | ok r =>
        simp only [process, hvalue] at hprocess
        cases hprocess
        cases value with
        | text program =>
            cases hanalyze : w.machine.analyze program.toText with
            | error fault => simp [Machine.analyzeValue, hanalyze] at hvalue
            | ok r' =>
                have hr : r' = r := by simpa [Machine.analyzeValue, hanalyze] using hvalue
                subst hr
                obtain ⟨s, hreach, rfl⟩ := Machine.exists_reaches hanalyze
                exact ⟨program, _, rfl, rfl, shownByLine_of_reaches hwords hreach rfl⟩
        | _ => cases hvalue
  · intro hconfig hwritable hturrets hspindles program
    obtain ⟨r, hr⟩ := Machine.analyze_ok hconfig hwritable hturrets hspindles program.toText
    refine ⟨{ w with lastText := .text program, result := some r },
      (Log.errors r.log).isEmpty, ?_⟩
    simp only [process, Machine.analyzeValue, hr]

/-- A header, a selection with a motion, two errors on one line, decoration and an end of
balance cutting that nothing releases. -/
theorem process_shows_sample_by_line :
    let w : Workbench := { machine := Machine.ofPreset Config.defaultPreset }
    let program := "O1\nG109 L1 G01\nG999 F0 M562\n(= F0)\nM563".toList
    ∃ w' r, w.process (Value.ofText program) = (w', .ok false) ∧ w'.result = some r ∧
      ShownByLine w' Dialect.integrex (DocText.ofText program).toText r false ∧
      (w'.diagnosticsAt 3).length = 4 ∧ w'.diagnostics.length = 8 := by
  intro w program
  have hanswer : (w.process (Value.ofText program)).2.toOption = some false ∧
      ((w.process (Value.ofText program)).1.diagnosticsAt 3).length = 4 ∧
      (w.process (Value.ofText program)).1.diagnostics.length = 8 := by
    decide +kernel
  obtain ⟨hlaw, hreturns⟩ := process_shows_by_line w (by decide)
  obtain ⟨w', clean, hprocess⟩ := hreturns (Config.numeric_preset _) (Machine.writable_ofPreset _)
    Dialect.integrex_namesTurrets Dialect.integrex_namesSpindles (DocText.ofText program)
  have hprocess : w.process (Value.ofText program) = (w', .ok clean) := hprocess
  obtain ⟨_, r, htext, hresult, hshown⟩ := hlaw _ w' clean hprocess
  cases htext
  rw [hprocess] at hanswer
  obtain ⟨hclean, hview, hcount⟩ := hanswer
  cases hclean
  exact ⟨w', r, hprocess, hresult, hshown, hview, hcount⟩

end Workbench
end DualTurret
