import DualTurret.Proofs.Scan.Advance
import Mathlib.Data.List.Induction

/-!
# Runs of a scan

`Machine.Reaches m raw done s` says that a scan over the raw lines stands at `s` after
the lines `done`.  Laws that look back at the lines already read are invariants of
these states, proved by induction on the run: one case per kind of line.

Main facts:
* `Machine.reaches_of_readLines` and `Machine.readLines_of_reaches`: the runs are the scans
  that succeed;
* `Machine.readLines_of_append`: a scan has passed through a state after each of its first lines;
* `Machine.Reaches.history_increasing`: the history is numbered in the order of the lines;
* `Machine.Reaches.entry_unique`: a line number stands at most once in the streams;
* `Machine.analyze_ok`: a machine with numeric limits, numbers that can be written and known
  names analyzes every text.
-/

namespace DualTurret

namespace Machine

/-- The scan of the raw lines stands at `s` after the lines `done`. -/
inductive Reaches
    (m : Machine)
    (raw : List Text) :
    List Text → Trace → Prop
  | start : Reaches m raw [] {}
  | skip {done : List Text} {s : Trace} {line : Text}
      (before : Reaches m raw done s)
      (hskip : isSkipped line = true) :
      Reaches m raw (done ++ [line]) s
  | advance {done : List Text} {s : Trace} {line : Text} {outcome : Outcome}
      (before : Reaches m raw done s)
      (hskip : isSkipped line = false)
      (step : Advance m raw s.progress done.length (done.length + 1) (Text.trim line) outcome) :
      Reaches m raw (done ++ [line]) (s.after outcome (done.length + 1))

/-- One more line, read or passed over. -/
def readNext
    (m : Machine)
    (raw : List Text)
    (s : Trace)
    (index : Nat)
    (line : Text) :
    Except Fault Trace :=
  if isSkipped line then .ok s
  else
    let outcome := m.readLine raw s.progress index (index + 1) (Text.trim line)
    match outcome.fault with
    | some fault => .error fault
    | none => .ok (s.after outcome (index + 1))

/-- The last of some lines is read in the state after the others. -/
theorem readLines_concat
    (m : Machine)
    (raw : List Text)
    (p : Progress)
    (index : Nat)
    (lines : List Text)
    (line : Text) :
    m.readLines raw p index (lines ++ [line]) =
      match m.readLines raw p index lines with
      | .error fault => .error fault
      | .ok s => m.readNext raw s (index + lines.length) line := by
  induction lines generalizing p index with
  | nil =>
      simp only [List.nil_append, readLines, readNext, List.length_nil, Nat.add_zero]
      split_ifs
      · rfl
      · cases hfault : (m.readLine raw p index (index + 1) (Text.trim line)).fault with
        | some fault => rfl
        | none => rfl
  | cons first lines ih =>
      have hindex : index + 1 + lines.length = index + (first :: lines).length := by
        simp only [List.length_cons]
        omega
      simp only [List.cons_append, readLines]
      split_ifs
      · rw [ih, hindex]
      · cases hfault : (m.readLine raw p index (index + 1) (Text.trim first)).fault with
        | some fault => rfl
        | none =>
            rw [ih, hindex]
            cases m.readLines raw
                (m.readLine raw p index (index + 1) (Text.trim first)).progress
                (index + 1) lines with
            | error fault => rfl
            | ok s =>
                simp only [readNext]
                split_ifs
                · rfl
                · cases hlast : (m.readLine raw s.progress (index + (first :: lines).length : Nat)
                      ((index + (first :: lines).length : Nat) + 1) (Text.trim line)).fault with
                  | some fault => rfl
                  | none => rfl

/-- A line that is read puts its reading in front of what the lines after it give. -/
theorem readLines_of_read
    {m : Machine}
    {raw : List Text}
    {p : Progress}
    {index : Nat}
    {line : Text}
    {outcome : Outcome}
    (hskip : isSkipped line = false)
    (houtcome : m.readLine raw p index (index + 1) (Text.trim line) = outcome)
    (lines : List Text) :
    m.readLines raw p index (line :: lines) =
      match outcome.fault with
      | some fault => .error fault
      | none =>
          (m.readLines raw outcome.progress (index + 1) lines).map
            (Trace.behind (outcome.reading (index + 1))) := by
  rw [readLines, if_neg (by simp [hskip]), houtcome]
  dsimp only
  cases outcome.fault with
  | some fault => rfl
  | none => cases m.readLines raw outcome.progress (index + 1) lines <;> rfl

/-- In every scan a turret is selected exactly when lines are routed. -/
theorem Reaches.coherent
    {m : Machine}
    {raw done : List Text}
    {s : Trace}
    (h : Reaches m raw done s) :
    s.progress.Coherent := by
  induction h with
  | start => rfl
  | skip _ _ ih => exact ih
  | advance _ _ step ih => exact step.coherent ih

/-- A scan that succeeds is a run. -/
theorem reaches_of_readLines
    {m : Machine}
    {raw : List Text} :
    ∀ {lines : List Text} {s : Trace}, m.readLines raw {} 0 lines = .ok s →
      Reaches m raw lines s := by
  intro lines
  induction lines using List.reverseRecOn with
  | nil =>
      intro s h
      cases h
      exact Reaches.start
  | append_singleton lines line ih =>
      intro s h
      rw [readLines_concat, Nat.zero_add] at h
      cases hbefore : m.readLines raw {} 0 lines with
      | error fault => simp [hbefore] at h
      | ok s₀ =>
          rw [hbefore] at h
          have before := ih hbefore
          simp only [readNext] at h
          split_ifs at h with hskip
          · cases h
            exact Reaches.skip before hskip
          · cases hfault : (m.readLine raw s₀.progress lines.length (lines.length + 1)
                (Text.trim line)).fault with
            | some fault => simp [hfault] at h
            | none =>
                simp only [hfault] at h
                cases h
                exact Reaches.advance before (by simpa using hskip)
                  (advance_of_readLine before.coherent hfault)

/-- A run is a scan that succeeds. -/
theorem readLines_of_reaches
    {m : Machine}
    {raw lines : List Text}
    {s : Trace}
    (h : Reaches m raw lines s) :
    m.readLines raw {} 0 lines = .ok s := by
  induction h with
  | start => rfl
  | skip _ hskip ih =>
      rw [readLines_concat, ih]
      simp [readNext, hskip]
  | advance before hskip step ih =>
      obtain ⟨hread, hfault⟩ := step.readLine_eq before.coherent
      rw [readLines_concat, ih]
      simp [readNext, hskip, hread, hfault]

/-- The first lines of a scan that succeeds can be scanned by themselves, and the
history begins with theirs. -/
theorem readLines_of_append
    {m : Machine}
    {raw : List Text}
    {done : List Text} :
    ∀ {rest : List Text} {s : Trace}, m.readLines raw {} 0 (done ++ rest) = .ok s →
      ∃ s₀, m.readLines raw {} 0 done = .ok s₀ ∧ s₀.history <+: s.history := by
  intro rest
  induction rest using List.reverseRecOn with
  | nil =>
      intro s h
      rw [List.append_nil] at h
      exact ⟨s, h, List.prefix_rfl⟩
  | append_singleton rest line ih =>
      intro s h
      rw [← List.append_assoc, readLines_concat] at h
      cases hbefore : m.readLines raw {} 0 (done ++ rest) with
      | error fault => simp [hbefore] at h
      | ok s₁ =>
          obtain ⟨s₀, hread, hhistory⟩ := ih hbefore
          refine ⟨s₀, hread, hhistory.trans ?_⟩
          simp only [hbefore, readNext] at h
          split_ifs at h
          · cases h
            exact List.prefix_rfl
          · split at h
            · cases h
            · cases h
              exact List.prefix_append _ _

/-- A scan that fails has reached the line at which it fails. -/
theorem exists_reaches_of_error
    {m : Machine}
    {raw : List Text}
    {fault : Fault} :
    ∀ {lines : List Text}, m.readLines raw {} 0 lines = .error fault →
      ∃ done line rest s, lines = done ++ line :: rest ∧ Reaches m raw done s ∧
        isSkipped line = false ∧
        (m.readLine raw s.progress done.length (done.length + 1) (Text.trim line)).fault =
          some fault := by
  intro lines
  induction lines using List.reverseRecOn with
  | nil =>
      intro h
      cases h
  | append_singleton lines line ih =>
      intro h
      rw [readLines_concat, Nat.zero_add] at h
      cases hbefore : m.readLines raw {} 0 lines with
      | error fault' =>
          rw [hbefore] at h
          cases h
          obtain ⟨done, line', rest, s, rfl, hreach, hskip, hfault⟩ := ih hbefore
          exact ⟨done, line', rest ++ [line], s, by simp, hreach, hskip, hfault⟩
      | ok s =>
          rw [hbefore] at h
          simp only [readNext] at h
          split_ifs at h with hskip
          cases hfault : (m.readLine raw s.progress lines.length (lines.length + 1)
              (Text.trim line)).fault with
          | none => simp [hfault] at h
          | some fault' =>
              simp only [hfault] at h
              cases h
              exact ⟨lines, line, [], s, rfl, reaches_of_readLines hbefore,
                by simpa using hskip, hfault⟩

/-- A result is the view of a trace over all lines of the text. -/
theorem exists_readLines
    {m : Machine}
    {program : Text}
    {r : Result}
    (h : m.analyze program = .ok r) :
    ∃ s, m.readLines (Text.lines program) {} 0 (Text.lines program) = .ok s ∧
      r = s.toResult (Text.lines program) := by
  rw [analyze_eq] at h
  cases hread : m.readLines (Text.lines program) {} 0 (Text.lines program) with
  | error fault =>
      rw [hread] at h
      cases h
  | ok s =>
      rw [hread] at h
      cases h
      exact ⟨s, rfl, rfl⟩

/-- A run to the last line gives the result of its trace. -/
theorem analyze_of_readLines
    {m : Machine}
    {program : Text}
    {s : Trace}
    (h : m.readLines (Text.lines program) {} 0 (Text.lines program) = .ok s) :
    m.analyze program = .ok (s.toResult (Text.lines program)) := by
  rw [analyze_eq, h]
  rfl

/-- An analysis is stopped exactly where the run is. -/
theorem analyze_eq_error_iff
    {m : Machine}
    {program : Text}
    {fault : Fault} :
    m.analyze program = .error fault ↔
      m.readLines (Text.lines program) {} 0 (Text.lines program) = .error fault := by
  rw [analyze_eq]
  cases m.readLines (Text.lines program) {} 0 (Text.lines program) <;> simp [Except.map]

/-- Two scans that look the same through some view both give a result or end with the same
fault. -/
theorem analyze_of_map_eq
    {m m' : Machine}
    {program program' : Text}
    {α : Type}
    {view view' : Trace → α}
    (h : (m'.readLines (Text.lines program') {} 0 (Text.lines program')).map view' =
      (m.readLines (Text.lines program) {} 0 (Text.lines program)).map view) :
    (∀ r, m.analyze program = .ok r →
      ∃ s s', r = s.toResult (Text.lines program) ∧
        m'.analyze program' = .ok (s'.toResult (Text.lines program')) ∧ view' s' = view s) ∧
    ∀ fault, m.analyze program = .error fault → m'.analyze program' = .error fault := by
  constructor
  · intro r hr
    obtain ⟨s, hs, rfl⟩ := exists_readLines hr
    rw [hs] at h
    cases hs' : m'.readLines (Text.lines program') {} 0 (Text.lines program') with
    | error fault =>
        rw [hs'] at h
        cases h
    | ok s' =>
        rw [hs'] at h
        exact ⟨s, s', rfl, analyze_of_readLines hs', Except.ok.inj h⟩
  · intro fault hfault
    rw [analyze_eq_error_iff] at hfault ⊢
    rw [hfault] at h
    cases hs' : m'.readLines (Text.lines program') {} 0 (Text.lines program') with
    | error fault' =>
        rw [hs'] at h
        cases h
        rfl
    | ok s' =>
        rw [hs'] at h
        cases h

/-- A result is the view of a scan that has read every line. -/
theorem exists_reaches
    {m : Machine}
    {program : Text}
    {r : Result}
    (h : m.analyze program = .ok r) :
    ∃ s, Reaches m (Text.lines program) (Text.lines program) s ∧
      r = s.toResult (Text.lines program) := by
  obtain ⟨s, hread, hr⟩ := exists_readLines h
  exact ⟨s, reaches_of_readLines hread, hr⟩

/-- With numeric limits and known turret names, an analysis stops at a line of a turret: it
selects an unknown spindle, or it asks for a message that can not be written. -/
theorem exists_stop
    {m : Machine}
    {program : Text}
    {fault : Fault}
    (hm : m.config.Numeric)
    (hd : m.dialect.NamesTurrets)
    (h : m.analyze program = .error fault) :
    ∃ done line rest s t, Text.lines program = done ++ line :: rest ∧
      Reaches m (Text.lines program) done s ∧ isSkipped line = false ∧
      s.progress.turret = some t ∧ m.dialect.selectedTurret? (Text.trim line) = none ∧
      ((∃ name, m.dialect.UnknownSpindle (Text.trim line) name ∧
          fault = .unknownName ⟨.spindle, name⟩) ∨
        fault = .tooLong ∧ ¬ m.Writable) := by
  obtain ⟨done, line, rest, s, hlines, hreach, hskip, hfault⟩ :=
    exists_reaches_of_error (analyze_eq_error_iff.mp h)
  obtain ⟨t, hturret, hselect, hstop⟩ := fault_of_readLine hm hd hreach.coherent hfault
  refine ⟨done, line, rest, s, t, hlines, hreach, hskip, hturret, hselect, ?_⟩
  refine hstop.imp_right (And.imp_right ?_)
  intro hunwritten hwritable
  exact hwritable.not_unwritten _ _ ⟨hselect, t, hturret, hunwritten⟩

/-- With numeric limits and known names, every text has an analysis, unless a number that
messages show is too long to be written. -/
theorem analyze_ok_or_tooLong
    {m : Machine}
    (hm : m.config.Numeric)
    (hturrets : m.dialect.NamesTurrets)
    (hspindles : m.dialect.NamesSpindles)
    (program : Text) :
    (∃ r, m.analyze program = .ok r) ∨ (¬ m.Writable ∧ m.analyze program = .error .tooLong) := by
  cases h : m.analyze program with
  | ok r => exact Or.inl ⟨r, rfl⟩
  | error fault =>
      obtain ⟨_, line, _, _, _, _, _, _, _, _, ⟨name, hname, _⟩ | ⟨rfl, hlong⟩⟩ :=
        exists_stop hm hturrets h
      · exact absurd hname (not_unknownSpindle hspindles (Text.trim line) name)
      · exact Or.inr ⟨hlong, rfl⟩

/-- With numeric limits, short numbers and known names, every program has an analysis. -/
theorem analyze_ok
    {m : Machine}
    (hm : m.config.Numeric)
    (hwritable : m.Writable)
    (hturrets : m.dialect.NamesTurrets)
    (hspindles : m.dialect.NamesSpindles)
    (program : Text) :
    ∃ r, m.analyze program = .ok r :=
  (analyze_ok_or_tooLong hm hturrets hspindles program).resolve_right fun h => h.1 hwritable

end Machine

def Result.stream
    (r : Result) :
    Stream → List ClassifiedLine
  | .common => r.common
  | .turret t => r.streams.get t

@[simp] theorem Trace.toResult_stream
    (s : Trace)
    (raw : List Text) :
    (s.toResult raw).stream = s.stream := by
  funext stream
  cases stream with
  | common => rfl
  | turret t => cases t <;> rfl

theorem Reading.lineIn?_eq_some
    {r : Reading}
    {stream : Stream}
    {entry : ClassifiedLine} :
    r.lineIn? stream = some entry ↔ r.placed = some (stream, entry) := by
  cases hplaced : r.placed with
  | none => simp [Reading.lineIn?, hplaced]
  | some placed =>
      obtain ⟨place, entry'⟩ := placed
      by_cases hplace : place = stream
      · simp [Reading.lineIn?, hplaced, hplace]
      · simp [Reading.lineIn?, hplaced, hplace]

/-- A stream holds the lines that were placed in it. -/
theorem Trace.mem_stream
    {s : Trace}
    {stream : Stream}
    {entry : ClassifiedLine} :
    entry ∈ s.stream stream ↔ ∃ r ∈ s.history, r.placed = some (stream, entry) := by
  simp [Trace.stream, Stream.lines, List.mem_filterMap, Reading.lineIn?_eq_some]

theorem Trace.stream_prefix
    {s₀ s : Trace}
    (h : s₀.history <+: s.history)
    (stream : Stream) :
    s₀.stream stream <+: s.stream stream :=
  h.filterMap _

theorem Trace.log_prefix {s₀ s : Trace} (h : s₀.history <+: s.history) : s₀.log <+: s.log := by
  obtain ⟨later, hlater⟩ := h
  rw [Trace.log, Trace.log, ← hlater, Log.ofHistory, Log.ofHistory, List.flatMap_append]
  exact List.prefix_append _ _

/-- A step adds at most the line that it places. -/
theorem Trace.mem_stream_after
    {s : Trace}
    {outcome : Outcome}
    {line : Int}
    {stream : Stream}
    {entry : ClassifiedLine} :
    entry ∈ (s.after outcome line).stream stream ↔
      entry ∈ s.stream stream ∨ outcome.placed = some (stream, entry) := by
  rw [Trace.stream_after, List.mem_append, Option.mem_toList, Reading.lineIn?_eq_some]
  rfl

namespace Machine

/-- A line is placed with its own number. -/
theorem Advance.placed_line
    {m : Machine}
    {raw : List Text}
    {p : Progress}
    {index line : Int}
    {text : Text}
    {outcome : Outcome}
    (h : Advance m raw p index line text outcome)
    {stream : Stream}
    {entry : ClassifiedLine}
    (hplaced : outcome.placed = some (stream, entry)) :
    entry.line = line := by
  cases h with
  | header => cases hplaced
  | common =>
      cases hplaced
      rfl
  | select =>
      cases hplaced
      rfl
  | routed =>
      cases hplaced
      rfl

/-- A line changes the state of the turret that it is placed with, and of no other. -/
theorem Advance.state_eq_of_entry_none
    {m : Machine}
    {raw : List Text}
    {p : Progress}
    {index line : Int}
    {text : Text}
    {outcome : Outcome}
    {t : Turret}
    (h : Advance m raw p index line text outcome)
    (hentry : (outcome.reading line).lineIn? (.turret t) = none) :
    outcome.progress.states.get t = p.states.get t := by
  cases h with
  | header => rfl
  | common => rfl
  | select => rfl
  | @routed t' signals =>
      refine PerTurret.get_set_of_ne _ ?_ _
      rintro rfl
      simp [Reading.lineIn?, Outcome.reading, routedOutcome] at hentry

namespace Reaches

variable {m : Machine} {raw done : List Text} {s : Trace}

theorem history_line_bounds
    (h : Reaches m raw done s) :
    ∀ r ∈ s.history, 1 ≤ r.line ∧ r.line ≤ done.length := by
  induction h with
  | start =>
      intro r hr
      cases hr
  | skip _ _ ih =>
      intro r hr
      have := ih r hr
      simp only [List.length_append, List.length_singleton]
      omega
  | advance _ _ _ ih =>
      intro r hr
      simp only [List.length_append, List.length_singleton]
      rcases List.mem_append.mp hr with hr | hr
      · have := ih r hr
        omega
      · rw [List.mem_singleton.mp hr]
        simp only [Outcome.reading]
        omega

theorem log_line_bounds
    (h : Reaches m raw done s)
    {d : Diagnostic}
    (hd : d ∈ s.log) :
    1 ≤ d.line ∧ d.line ≤ done.length := by
  obtain ⟨r, hr, hmem⟩ := List.mem_flatMap.mp hd
  obtain ⟨f, _, rfl⟩ := List.mem_map.mp hmem
  exact h.history_line_bounds r hr

/-- The lines are read in the order of their numbers. -/
theorem history_increasing
    (h : Reaches m raw done s) :
    s.history.Pairwise fun a b => a.line < b.line := by
  induction h with
  | start => exact List.Pairwise.nil
  | skip _ _ ih => exact ih
  | advance before _ _ ih =>
      refine List.pairwise_append.mpr ⟨ih, List.pairwise_singleton _ _, ?_⟩
      intro a ha b hb
      have hle := before.history_line_bounds a ha
      rw [List.mem_singleton.mp hb]
      simp only [Outcome.reading]
      omega

/-- A line is placed under its own number. -/
theorem entry_line
    (h : Reaches m raw done s) :
    ∀ r ∈ s.history, ∀ stream entry, r.placed = some (stream, entry) → entry.line = r.line := by
  induction h with
  | start =>
      intro r hr
      cases hr
  | skip _ _ ih => exact ih
  | advance _ _ step ih =>
      intro r hr stream entry hplaced
      rcases List.mem_append.mp hr with hr | hr
      · exact ih r hr stream entry hplaced
      · rw [List.mem_singleton.mp hr] at hplaced ⊢
        exact step.placed_line hplaced

theorem entry_line_bounds
    (h : Reaches m raw done s)
    {stream : Stream}
    {entry : ClassifiedLine}
    (hentry : entry ∈ s.stream stream) :
    1 ≤ entry.line ∧ entry.line ≤ done.length := by
  obtain ⟨r, hr, hplaced⟩ := Trace.mem_stream.mp hentry
  rw [h.entry_line r hr stream entry hplaced]
  exact h.history_line_bounds r hr

theorem history_line_injective
    (h : Reaches m raw done s)
    {r r' : Reading}
    (hr : r ∈ s.history)
    (hr' : r' ∈ s.history)
    (hline : r.line = r'.line) :
    r = r' := by
  have hsorted := h.history_increasing
  refine List.Pairwise.forall_of_forall_of_flip (R := fun a b => a.line = b.line → a = b)
    (fun _ _ _ => rfl) (hsorted.imp ?_) (hsorted.imp ?_) hr hr' hline
  · intro a b hlt heq
    omega
  · intro a b hlt heq
    omega

/-- No number stands twice in the streams. -/
theorem entry_unique
    (h : Reaches m raw done s)
    {stream stream' : Stream}
    {entry entry' : ClassifiedLine}
    (hentry : entry ∈ s.stream stream)
    (hentry' : entry' ∈ s.stream stream')
    (hline : entry.line = entry'.line) :
    stream = stream' ∧ entry = entry' := by
  obtain ⟨r, hr, hplaced⟩ := Trace.mem_stream.mp hentry
  obtain ⟨r', hr', hplaced'⟩ := Trace.mem_stream.mp hentry'
  have hsame : r = r' := by
    apply h.history_line_injective hr hr'
    rw [← h.entry_line r hr _ _ hplaced, hline, h.entry_line r' hr' _ _ hplaced']
  subst hsame
  rw [hplaced] at hplaced'
  cases hplaced'
  exact ⟨rfl, rfl⟩

/-- Every stream has its lines in the order of the program. -/
theorem stream_increasing
    (h : Reaches m raw done s)
    (stream : Stream) :
    (s.stream stream).Pairwise fun a b => a.line < b.line := by
  refine List.pairwise_filterMap.mpr ((List.Pairwise.and_mem.mp h.history_increasing).imp ?_)
  rintro a b ⟨ha, hb, hlt⟩ entry hentry entry' hentry'
  rw [h.entry_line a ha _ _ (Reading.lineIn?_eq_some.mp hentry),
    h.entry_line b hb _ _ (Reading.lineIn?_eq_some.mp hentry')]
  exact hlt

end Reaches
end Machine
end DualTurret
