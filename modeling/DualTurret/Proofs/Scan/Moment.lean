import DualTurret.Proofs.Scan.Findings
import Mathlib.Data.List.Basic

/-!
# Moments of a run

A scan only adds to its history, and what it adds carries the number of the line.  So
what a finished scan shows of the lines up to some number is what it had when it stood
after the line of that number.  A law about one line of a result is therefore a law
about the step that has read the line.

Main facts:
* `Machine.Reaches.exists_passed`: a run has passed through a state after each of its first
  lines, and shows of them what that state shows;
* `Machine.Reaches.exists_readAt`: everything in the history comes from one step of the run.
-/

namespace DualTurret

/-- The diagnostics at the lines up to a number. -/
def Log.upTo (log : Log) (number : Int) : Log :=
  log.filter fun d => d.line ≤ number

def Log.findingsOn (log : Log) (number : Int) : List Finding :=
  (log.filter fun d => d.line = number).map fun d => d.finding

theorem Log.withSeverity_append
    (log later : Log)
    (severity : Severity) :
    Log.withSeverity (log ++ later) severity =
      Log.withSeverity log severity ++ Log.withSeverity later severity :=
  List.filter_append _ _

def ClassifiedLine.upTo (entries : List ClassifiedLine) (number : Int) : List ClassifiedLine :=
  entries.filter fun entry => entry.line ≤ number

/-- The scan has once stood at `s₀`, after the line of this number. -/
structure Trace.Passed (s s₀ : Trace) (number : Int) : Prop where
  history : s₀.history <+: s.history
  log : Log.upTo s.log number = s₀.log
  stream : ∀ stream, ClassifiedLine.upTo (s.stream stream) number = s₀.stream stream

namespace Trace.Passed

variable {s s₀ : Trace} {number : Int}

/-- What a stream held at an earlier moment are its lines up to that number. -/
theorem mem_stream_iff
    (h : s.Passed s₀ number)
    {stream : Stream}
    {entry : ClassifiedLine} :
    entry ∈ s₀.stream stream ↔ entry ∈ s.stream stream ∧ entry.line ≤ number := by
  rw [← h.stream, ClassifiedLine.upTo, List.mem_filter, decide_eq_true_eq]

/-- Nothing is found later at a line that has been read. -/
theorem findingsOn_eq
    (h : s.Passed s₀ number)
    {line : Int}
    (hline : line ≤ number) :
    s.log.findingsOn line = s₀.log.findingsOn line := by
  have hboth : ∀ d : Diagnostic,
      (decide (d.line = line) && decide (d.line ≤ number)) = decide (d.line = line) := by
    intro d
    by_cases heq : d.line = line
    · simp [heq, hline]
    · simp [heq]
  rw [← h.log, Log.findingsOn, Log.findingsOn, Log.upTo, List.filter_filter]
  simp only [hboth]

/-- What comes later does not change what has been passed. -/
theorem after
    (h : s.Passed s₀ number)
    {outcome : Outcome}
    {line : Int}
    (hline : number < line)
    (hplaced : ∀ stream entry, outcome.placed = some (stream, entry) → entry.line = line) :
    (s.after outcome line).Passed s₀ number where
  history := h.history.trans (List.prefix_append _ _)
  log := by
    have hlater : (outcome.findings.map fun f => (⟨line, f⟩ : Diagnostic)).filter
        (fun d => d.line ≤ number) = [] := by
      rw [List.filter_eq_nil_iff]
      intro d hd hle
      obtain ⟨f, _, rfl⟩ := List.mem_map.mp hd
      have hle : line ≤ number := of_decide_eq_true hle
      omega
    have hlog := h.log
    unfold Log.upTo at hlog ⊢
    rw [Trace.log_after, List.filter_append, hlater, List.append_nil, hlog]
  stream := by
    intro stream
    have hlater : ((outcome.reading line).lineIn? stream).toList.filter
        (fun entry => entry.line ≤ number) = [] := by
      rw [List.filter_eq_nil_iff]
      intro entry hentry hle
      have hnew := hplaced stream entry
        (Reading.lineIn?_eq_some.mp (Option.mem_toList.mp hentry))
      have hle : entry.line ≤ number := of_decide_eq_true hle
      omega
    have hstream := h.stream stream
    unfold ClassifiedLine.upTo at hstream ⊢
    rw [Trace.stream_after, List.filter_append, hlater, List.append_nil, hstream]

end Trace.Passed

namespace Machine

variable {m : Machine} {raw done : List Text} {s : Trace}

theorem Reaches.passed_self (h : Reaches m raw done s) : s.Passed s done.length where
  history := List.prefix_rfl
  log := by
    refine List.filter_eq_self.mpr ?_
    intro d hd
    exact decide_eq_true (h.log_line_bounds hd).2
  stream := by
    intro stream
    refine List.filter_eq_self.mpr ?_
    intro entry hentry
    exact decide_eq_true (h.entry_line_bounds hentry).2

/-- A run has passed through a state after each of its first lines. -/
theorem Reaches.exists_passed
    (h : Reaches m raw done s) :
    ∀ first rest, done = first ++ rest →
      ∃ s₀, Reaches m raw first s₀ ∧ s.Passed s₀ first.length := by
  induction h with
  | start =>
      intro first rest hsplit
      obtain ⟨rfl, rfl⟩ := List.append_eq_nil_iff.mp hsplit.symm
      have hstart : Reaches m raw [] {} := Reaches.start
      exact ⟨{}, hstart, hstart.passed_self⟩
  | @skip done s line before hskip ih =>
      intro first rest hsplit
      rcases List.eq_nil_or_concat' rest with rfl | ⟨rest, last, rfl⟩
      · have after := Reaches.skip before hskip
        rw [List.append_nil] at hsplit
        rw [hsplit] at after
        exact ⟨s, after, after.passed_self⟩
      · rw [← List.append_assoc] at hsplit
        exact ih first rest (List.append_inj' hsplit rfl).1
  | @advance done s line outcome before hskip step ih =>
      intro first rest hsplit
      rcases List.eq_nil_or_concat' rest with rfl | ⟨rest, last, rfl⟩
      · have after := Reaches.advance before hskip step
        rw [List.append_nil] at hsplit
        rw [hsplit] at after
        exact ⟨_, after, after.passed_self⟩
      · rw [← List.append_assoc] at hsplit
        have hdone : done = first ++ rest := (List.append_inj' hsplit rfl).1
        obtain ⟨s₀, hreach, hpassed⟩ := ih first rest hdone
        refine ⟨s₀, hreach, hpassed.after ?_ fun stream entry => step.placed_line⟩
        have hlength : done.length = first.length + rest.length := by
          rw [hdone, List.length_append]
        omega

/-- The scan has read the line after some others, in the state after them, with this outcome. -/
structure ReadAt
    (m : Machine)
    (raw : List Text)
    (s : Trace)
    (first : List Text)
    (line : Text)
    (s₀ : Trace)
    (outcome : Outcome) : Prop where
  before : Reaches m raw first s₀
  read : isSkipped line = false
  step : Advance m raw s₀.progress first.length (first.length + 1) (Text.trim line) outcome
  passed : s.Passed (s₀.after outcome (first.length + 1)) (first.length + 1)

/-- Everything in the history comes from one step of the run. -/
theorem Reaches.exists_readAt
    (h : Reaches m raw done s) :
    ∀ r ∈ s.history, ∃ first line s₀ outcome, ReadAt m raw s first line s₀ outcome ∧
      r = outcome.reading (first.length + 1) := by
  induction h with
  | start =>
      intro r hr
      cases hr
  | skip _ _ ih => exact ih
  | @advance done s line outcome before hskip step ih =>
      intro r hr
      rcases List.mem_append.mp hr with hold | hnew
      · obtain ⟨first, line', s₀, outcome', hread, hr⟩ := ih r hold
        refine ⟨first, line', s₀, outcome',
          ⟨hread.before, hread.read, hread.step, hread.passed.after ?_ ?_⟩, hr⟩
        · have hbound := (before.history_line_bounds r hold).2
          rw [hr] at hbound
          simp only [Outcome.reading] at hbound
          omega
        · intro stream entry
          exact step.placed_line
      · have hlength : ((done ++ [line]).length : Int) = done.length + 1 := by
          simp
        have after := (Reaches.advance before hskip step).passed_self
        rw [hlength] at after
        exact ⟨done, line, s, outcome, ⟨before, hskip, step, after⟩, List.mem_singleton.mp hnew⟩

/-- Every line of a stream was placed there by one step. -/
theorem Reaches.exists_readAt_of_mem
    (h : Reaches m raw done s)
    {stream : Stream}
    {entry : ClassifiedLine}
    (hentry : entry ∈ s.stream stream) :
    ∃ first line s₀ outcome, ReadAt m raw s first line s₀ outcome ∧
      outcome.placed = some (stream, entry) := by
  obtain ⟨r, hr, hplaced⟩ := Trace.mem_stream.mp hentry
  obtain ⟨first, line, s₀, outcome, hread, rfl⟩ := h.exists_readAt r hr
  exact ⟨first, line, s₀, outcome, hread, hplaced⟩

/-- Every diagnostic was made by one step. -/
theorem Reaches.exists_readAt_of_log
    (h : Reaches m raw done s)
    {d : Diagnostic}
    (hd : d ∈ s.log) :
    ∃ first line s₀ outcome, ReadAt m raw s first line s₀ outcome ∧
      d.finding ∈ outcome.findings ∧ d.line = first.length + 1 := by
  obtain ⟨r, hr, hmem⟩ := List.mem_flatMap.mp hd
  obtain ⟨first, line, s₀, outcome, hread, rfl⟩ := h.exists_readAt r hr
  obtain ⟨f, hf, rfl⟩ := List.mem_map.mp hmem
  exact ⟨first, line, s₀, outcome, hread, hf, rfl⟩

/-- A scan makes no remarks. -/
theorem Reaches.rule_ne_remark
    (h : Reaches m raw done s)
    {d : Diagnostic}
    (hd : d ∈ s.log) :
    d.finding.rule ≠ .remark := by
  obtain ⟨_, _, _, _, hread, hfinding, _⟩ := h.exists_readAt_of_log hd
  exact hread.step.rule_ne_remark hfinding

namespace ReadAt

variable {first : List Text} {line : Text} {s₀ : Trace} {outcome : Outcome}

theorem after
    (h : ReadAt m raw s first line s₀ outcome) :
    Reaches m raw (first ++ [line]) (s₀.after outcome (first.length + 1)) :=
  Reaches.advance h.before h.read h.step

/-- What stands in the log at the line is what the step has found. -/
theorem findingsOn_eq
    (h : ReadAt m raw s first line s₀ outcome) :
    s.log.findingsOn (first.length + 1) = outcome.findings := by
  have hold : s₀.log.filter (fun d => d.line = (first.length : Int) + 1) = [] := by
    rw [List.filter_eq_nil_iff]
    intro d hd hline
    have hbound := (h.before.log_line_bounds hd).2
    have hline := of_decide_eq_true hline
    omega
  have hnew : (outcome.findings.map fun f => (⟨first.length + 1, f⟩ : Diagnostic)).filter
      (fun d => d.line = (first.length : Int) + 1) =
        outcome.findings.map fun f => ⟨first.length + 1, f⟩ := by
    rw [List.filter_eq_self]
    intro d hd
    obtain ⟨f, _, rfl⟩ := List.mem_map.mp hd
    exact decide_eq_true rfl
  rw [h.passed.findingsOn_eq (Int.le_refl _), Log.findingsOn, Trace.log_after,
    List.filter_append, hold, hnew, List.nil_append, List.map_map]
  exact List.map_id _

theorem mem_stream
    (h : ReadAt m raw s first line s₀ outcome)
    {stream : Stream}
    {entry : ClassifiedLine}
    (hplaced : outcome.placed = some (stream, entry)) :
    entry ∈ s.stream stream :=
  (h.passed.mem_stream_iff.mp (Trace.mem_stream_after.mpr (Or.inr hplaced))).1

end ReadAt
end Machine
end DualTurret
