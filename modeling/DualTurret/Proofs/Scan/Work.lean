import DualTurret.Proofs.Balance
import DualTurret.Proofs.Scan.Moment

/-!
# Lines that a turret works on

A line that a turret works on was read in one step, as a line of the selected turret, and it
is the raw line of its number, trimmed.  Apart from selections, every finding stands at such a
line.  So what a log tells of one kind of findings at one line is what one rule has found in
one step, and a law about that kind is a law about that rule.

Main facts:
* `Machine.Reaches.exists_raw`: a line of a stream is the raw line of its number;
* `Machine.Reaches.told_work`: what is told of a kind at a line that a turret works on;
* `Machine.Reaches.told_elsewhere`: nothing is told of it at any other line.
-/

namespace DualTurret

/-- Kinds of findings at the lines that a turret works on. -/
inductive Kind where
  | release
  | balanceEnd
  | highSpeed
  | lowFeed
  deriving DecidableEq

namespace Kind

def rule : Kind → Rule
  | release | balanceEnd => .balanceEnd
  | highSpeed => .speed
  | lowFeed => .feed

def severity : Kind → Severity
  | release | highSpeed | lowFeed => .warning
  | balanceEnd => .info

def includes : Kind → Finding → Bool
  | release, .releaseMissing _ => true
  | balanceEnd, .balanceEnds => true
  | highSpeed, .highSpeed _ => true
  | lowFeed, .lowFeed _ => true
  | _, _ => false

variable {kind : Kind} {f : Finding}

theorem rule_eq (h : kind.includes f = true) : f.rule = kind.rule := by
  cases kind <;> cases f <;> cases h <;> rfl

theorem severity_eq (h : kind.includes f = true) : f.severity = kind.severity := by
  cases kind <;> cases f <;> cases h <;> rfl

theorem rule_ne_selection (kind : Kind) : kind.rule ≠ .selection := by
  cases kind <;> decide

end Kind

/-- The wording of what a log holds of a kind at a line. -/
def Log.told (log : Log) (kind : Kind) (number : Int) : List Text :=
  ((Log.withSeverity log kind.severity).filter fun d =>
    d.line = number && kind.includes d.finding).map Diagnostic.message

theorem Log.told_eq
    (log : Log)
    (kind : Kind)
    (number : Int) :
    log.told kind number =
      ((log.findingsOn number).filter kind.includes).map Finding.message := by
  have hsame : ∀ d : Diagnostic,
      ((decide (d.line = number) && kind.includes d.finding) &&
        decide (d.severity = kind.severity)) =
          (kind.includes d.finding && decide (d.line = number)) := by
    intro d
    cases hkind : kind.includes d.finding with
    | false => simp
    | true => simp [Diagnostic.severity, Kind.severity_eq hkind]
  unfold Log.told Log.withSeverity Log.findingsOn
  rw [List.filter_filter, List.filter_map, List.filter_filter, List.map_map]
  simp only [hsame]
  rfl

namespace Machine

variable {m : Machine} {raw done : List Text} {s : Trace}

/-- What a line of the selected turret finds of a kind is what the rule of the kind finds. -/
theorem filter_kind_routedOutcome
    (kind : Kind)
    {p : Progress}
    {t : Turret}
    {signals : Signals}
    {index line : Int}
    {text : Text} :
    (m.routedOutcome raw p t signals index line text).findings.filter kind.includes =
      (m.found raw p t signals index line text kind.rule).filter kind.includes := by
  have hrule : ∀ f : Finding,
      (kind.includes f && decide (f.rule = kind.rule)) = kind.includes f := by
    intro f
    cases hkind : kind.includes f with
    | false => rfl
    | true => simp [Kind.rule_eq hkind]
  rw [← filter_rule_routedOutcome, List.filter_filter]
  simp only [hrule]

/-- A line that a turret works on was read as a line of the selected turret. -/
theorem Reaches.exists_routed
    (h : Reaches m raw done s)
    {t : Turret}
    {entry : ClassifiedLine}
    (hwork : m.dialect.WorkLine s.stream t entry) :
    ∃ first line s₀ signals,
      ReadAt m raw s first line s₀ (m.routedOutcome raw s₀.progress t signals first.length
        (first.length + 1) (Text.trim line)) ∧
      entry = m.routedEntry s₀.progress t signals (first.length + 1) (Text.trim line) := by
  obtain ⟨first, line, s₀, outcome, hread, hplaced⟩ := h.exists_readAt_of_mem hwork.1
  obtain ⟨_, hnone⟩ := hwork
  have step := hread.step
  cases step with
  | header => cases hplaced
  | common => cases hplaced
  | select hselect =>
      cases hplaced
      cases hselect.symm.trans hnone
  | @routed t' signals =>
      cases hplaced
      exact ⟨first, line, s₀, signals, hread, rfl⟩

/-- What is told of a kind at a line that a turret works on. -/
theorem Reaches.told_work
    (h : Reaches m raw done s)
    {t : Turret}
    {entry : ClassifiedLine}
    (hwork : m.dialect.WorkLine s.stream t entry) :
    ∃ p signals, ∀ kind : Kind, s.log.told kind entry.line =
      ((m.found raw p t signals (entry.line - 1) entry.line entry.text kind.rule).filter
        kind.includes).map Finding.message := by
  obtain ⟨first, line, s₀, signals, hread, rfl⟩ := h.exists_routed hwork
  refine ⟨s₀.progress, signals, ?_⟩
  intro kind
  have hindex : (first.length : Int) + 1 - 1 = first.length := Int.add_sub_cancel _ _
  show s.log.told kind (first.length + 1) =
    ((m.found raw s₀.progress t signals (first.length + 1 - 1) (first.length + 1)
      (Text.trim line) kind.rule).filter kind.includes).map Finding.message
  rw [hindex, Log.told_eq, hread.findingsOn_eq, filter_kind_routedOutcome]

/-- Nothing is told of a kind at a line that no turret works on. -/
theorem Reaches.told_elsewhere
    (h : Reaches m raw done s)
    (kind : Kind)
    {number : Int}
    (hnone : ∀ t entry, m.dialect.WorkLine s.stream t entry → entry.line ≠ number) :
    s.log.told kind number = [] := by
  have hno : ∀ f ∈ s.log.findingsOn number, ¬ kind.includes f = true := by
    intro f hf hkind
    obtain ⟨d, hd, rfl⟩ := List.mem_map.mp hf
    obtain ⟨hmem, hline⟩ := List.mem_filter.mp hd
    obtain ⟨first, line, s₀, outcome, hread, hfinding, hnumber⟩ := h.exists_readAt_of_log hmem
    have step := hread.step
    cases step with
    | header => cases hfinding
    | common => cases hfinding
    | select =>
        have hrule := Kind.rule_eq hkind
        rw [rule_of_mem_readSelection hfinding] at hrule
        exact kind.rule_ne_selection hrule.symm
    | @routed t signals hselect =>
        refine hnone t _ ⟨hread.mem_stream rfl, hselect⟩ ?_
        exact hnumber.symm.trans (of_decide_eq_true hline)
  rw [Log.told_eq, List.filter_eq_nil_iff.mpr hno, List.map_nil]

/-- What is told of a kind, if the rule of the kind finds none of it at some lines. -/
theorem Reaches.told_eq_nil
    (h : Reaches m raw done s)
    (kind : Kind)
    {number : Int}
    (hnone : ∀ t entry, m.dialect.WorkLine s.stream t entry → entry.line = number →
      ∀ p signals, (m.found raw p t signals (entry.line - 1) entry.line entry.text
        kind.rule).filter kind.includes = []) :
    s.log.told kind number = [] := by
  by_cases hwork : ∃ t entry, m.dialect.WorkLine s.stream t entry ∧ entry.line = number
  · obtain ⟨t, entry, hentry, rfl⟩ := hwork
    obtain ⟨p, signals, htold⟩ := h.told_work hentry
    rw [htold, hnone t entry hentry rfl p signals, List.map_nil]
  · refine h.told_elsewhere kind ?_
    intro t entry hentry hline
    exact hwork ⟨t, entry, hentry, hline⟩

/-- A line of a stream is the raw line of its number, trimmed. -/
theorem Reaches.exists_raw
    (h : Reaches m raw done s) :
    ∀ {stream entry}, entry ∈ s.stream stream →
      ∃ first line rest, done = first ++ line :: rest ∧ isSkipped line = false ∧
        entry.line = first.length + 1 ∧ entry.text = Text.trim line := by
  induction h with
  | start =>
      intro stream entry hentry
      cases hentry
  | @skip done s last _ _ ih =>
      intro stream entry hentry
      obtain ⟨first, line, rest, rfl, hplace⟩ := ih hentry
      exact ⟨first, line, rest ++ [last], by simp, hplace⟩
  | @advance done s last outcome before hskip step ih =>
      intro stream entry hentry
      rcases Trace.mem_stream_after.mp hentry with hold | hplaced
      · obtain ⟨first, line, rest, rfl, hplace⟩ := ih hold
        exact ⟨first, line, rest ++ [last], by simp, hplace⟩
      · refine ⟨done, last, [], rfl, hskip, step.placed_line hplaced, ?_⟩
        cases step with
        | header => cases hplaced
        | common =>
            cases hplaced
            rfl
        | select =>
            cases hplaced
            rfl
        | routed =>
            cases hplaced
            rfl

end Machine
end DualTurret
