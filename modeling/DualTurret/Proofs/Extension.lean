import DualTurret.Proofs.Block.Line
import DualTurret.Proofs.Scan.Waits

/-!
# Programs that go on

A scan reads forward, so what it says of the first lines of a program does not hang on what
follows them, with one exception: the end of balance cutting looks ahead for a wait code.
Lines that are added at the end of a program can bring the wait code that was missing, so
they can take a warning back, but only one whose lookahead reaches past the old end.

The proof compares two runs over the same lines.  They differ in the raw lines that the
lookahead may see, and the run that sees more has found the same, less the releases
(`Machine.released`) that the added lines give.
-/

namespace DualTurret

section Slice

variable {α : Type} {i j : Int}

/-- Positions that are not negative count from the front. -/
theorem slice_of_nonneg
    (xs : List α)
    (hi : 0 ≤ i)
    (hj : 0 ≤ j) :
    slice xs i j = (xs.take j.toNat).drop i.toNat := by
  have hi' : ¬ i < 0 := by omega
  have hj' : ¬ j < 0 := by omega
  simp only [slice, hi', hj', if_false, List.drop_take]
  by_cases hlength : i.toNat ≤ xs.length
  · rw [Nat.min_eq_left hlength, List.take_eq_take_iff, List.length_drop]
    omega
  · rw [List.drop_eq_nil_of_le (by omega), List.drop_eq_nil_of_le (by omega), List.take_nil,
      List.take_nil]

theorem slice_prefix_append
    (xs ys : List α)
    (hi : 0 ≤ i)
    (hj : 0 ≤ j) :
    slice xs i j <+: slice (xs ++ ys) i j := by
  rw [slice_of_nonneg xs hi hj, slice_of_nonneg (xs ++ ys) hi hj, List.take_append,
    List.drop_append]
  exact List.prefix_append _ _

/-- A slice within the old lines does not see the new ones. -/
theorem slice_append_of_le
    {xs : List α}
    (ys : List α)
    (hi : 0 ≤ i)
    (hj : 0 ≤ j)
    (hlength : j ≤ xs.length) :
    slice (xs ++ ys) i j = slice xs i j := by
  rw [slice_of_nonneg xs hi hj, slice_of_nonneg (xs ++ ys) hi hj,
    List.take_append_of_le_length (by omega)]

end Slice

def Trace.without (s : Trace) (dropped : Diagnostic → Bool) : Trace :=
  { s with
    history := s.history.map fun r =>
      { r with findings := r.findings.filter fun f => !dropped ⟨r.line, f⟩ } }

def Outcome.without (outcome : Outcome) (dropped : Finding → Bool) : Outcome :=
  { outcome with findings := outcome.findings.filter fun f => !dropped f }

theorem Trace.without_log
    (s : Trace)
    (dropped : Diagnostic → Bool) :
    (s.without dropped).log = s.log.filter fun d => !dropped d := by
  simp only [Trace.log, Log.ofHistory, Trace.without, List.flatMap_map, List.filter_flatMap]
  congr 1
  funext r
  simp only [Reading.diagnostics, List.filter_map]
  rfl

theorem Trace.without_stream
    (s : Trace)
    (dropped : Diagnostic → Bool) :
    (s.without dropped).stream = s.stream := by
  funext stream
  simp only [Trace.stream, Stream.lines, Trace.without, List.filterMap_map]
  rfl

theorem Trace.without_after
    (s : Trace)
    (dropped : Diagnostic → Bool)
    (outcome : Outcome)
    (line : Int) :
    (s.after outcome line).without dropped =
      (s.without dropped).after (outcome.without fun f => dropped ⟨line, f⟩) line := by
  simp only [Trace.without, Trace.after, List.map_append]
  rfl

/-- Findings of one severity are dropped as little as diagnostics of that severity are. -/
theorem Log.withSeverity_without
    {log : Log}
    {dropped : Diagnostic → Bool}
    {severity : Severity}
    (h : ∀ d : Diagnostic, dropped d = true → d.severity ≠ severity) :
    Log.withSeverity (log.filter fun d => !dropped d) severity =
      Log.withSeverity log severity := by
  unfold Log.withSeverity
  rw [List.filter_filter]
  refine List.filter_congr ?_
  intro d _
  cases hdropped : dropped d with
  | false => simp
  | true => simp [h d hdropped]

namespace Machine

variable {m : Machine} {raw done rest : List Text} {s : Trace} {lookahead : Int}

/-- A wait code stands at a position of the raw lines or within the lookahead after it. -/
def waitsWithin (m : Machine) (raw : List Text) (lookahead index : Int) : Bool :=
  (slice raw index (index + lookahead + 1)).any fun line =>
    (m.dialect.waitCode? (Text.trim line)).isSome

/-- The diagnostic asks for a release that the raw lines give. -/
def released (m : Machine) (raw : List Text) (lookahead : Int) (d : Diagnostic) : Bool :=
  match d.finding with
  | .releaseMissing _ => m.waitsWithin raw lookahead (d.line - 1)
  | _ => false

/-- A release is missing if no wait code is within reach. -/
theorem releaseCheck_eq
    (hlookahead : m.config.releaseLookahead.int? = some lookahead)
    (index : Int) :
    m.releaseCheck raw index =
      .ok (if m.waitsWithin raw lookahead index then []
        else [.releaseMissing m.dialect.balanceEnd]) := by
  simp only [releaseCheck, hlookahead]
  by_cases hwait : m.waitsWithin raw lookahead index = true
  · rw [if_pos hwait]
    exact if_pos hwait
  · rw [if_neg hwait]
    exact if_neg hwait

/-- A wait code within reach stays within reach. -/
theorem waitsWithin_append
    (hnonneg : 0 ≤ lookahead)
    {index : Int}
    (hindex : 0 ≤ index)
    (h : m.waitsWithin raw lookahead index = true) :
    m.waitsWithin (raw ++ rest) lookahead index = true := by
  obtain ⟨line, hline, hwait⟩ := List.any_eq_true.mp h
  have hmem := (slice_prefix_append raw rest hindex (j := index + lookahead + 1)
    (by omega)).subset hline
  exact List.any_eq_true.mpr ⟨line, hmem, hwait⟩

/-- A wait code that more raw lines bring into reach stands after the old ones. -/
theorem length_lt_of_waitsWithin_append
    (hnonneg : 0 ≤ lookahead)
    {index : Int}
    (hindex : 0 ≤ index)
    (hold : m.waitsWithin raw lookahead index = false)
    (hnew : m.waitsWithin (raw ++ rest) lookahead index = true) :
    (raw.length : Int) < index + lookahead + 1 := by
  by_contra hlength
  have hsame : slice (raw ++ rest) index (index + lookahead + 1) =
      slice raw index (index + lookahead + 1) :=
    slice_append_of_le rest hindex (by omega) (by omega)
  unfold waitsWithin at hold hnew
  rw [hsame, hold] at hnew
  cases hnew

theorem released_eq_false
    {d : Diagnostic}
    (h : d.finding.rule ≠ .balanceEnd) :
    m.released raw lookahead d = false := by
  unfold released
  split
  · rename_i marker hfinding
    rw [hfinding] at h
    exact absurd rfl h
  · rfl

theorem severity_of_released
    {d : Diagnostic}
    (h : m.released raw lookahead d = true) :
    d.severity = .warning := by
  unfold released at h
  split at h
  · rename_i marker hfinding
    rw [Diagnostic.severity, hfinding]
    rfl
  · cases h

section Routed

variable {p : Progress} {t : Turret} {signals : Signals} {index : Int} {text : Text}

/-- With more raw lines the end of balance cutting asks for a release in fewer cases: a wait code
that was within reach still is, and one that was not may have come. -/
theorem endFindings_append
    (hlookahead : m.config.releaseLookahead.int? = some lookahead)
    (hnonneg : 0 ≤ lookahead)
    (hindex : 0 ≤ index) :
    (m.endChecks (raw ++ rest) index text).flatMap Check.findings =
      ((m.endChecks raw index text).flatMap Check.findings).filter
        fun f => !m.released (raw ++ rest) lookahead ⟨index + 1, f⟩ := by
  have hposition : index + 1 - 1 = index := by omega
  have hends : m.released (raw ++ rest) lookahead ⟨index + 1, .balanceEnds⟩ = false := rfl
  have hrelease : ∀ marker, m.released (raw ++ rest) lookahead
      ⟨index + 1, .releaseMissing marker⟩ = m.waitsWithin (raw ++ rest) lookahead index := by
    intro marker
    rw [released, hposition]
  unfold endChecks
  split_ifs with hmarker
  · simp only [releaseCheck_eq hlookahead, List.flatMap_cons, List.flatMap_nil, Check.findings]
    by_cases hold : m.waitsWithin raw lookahead index = true
    · have hnew : m.waitsWithin (raw ++ rest) lookahead index = true :=
        waitsWithin_append hnonneg hindex hold
      simp [hold, hnew, hends]
    · cases hnew : m.waitsWithin (raw ++ rest) lookahead index with
      | true => simp [hold, hrelease, hnew, hends]
      | false => simp [hold, hrelease, hnew, hends]
  · rfl

/-- With more raw lines each rule finds the same, less the releases that they give. -/
theorem found_append
    (hlookahead : m.config.releaseLookahead.int? = some lookahead)
    (hnonneg : 0 ≤ lookahead)
    (hindex : 0 ≤ index)
    (rule : Rule) :
    m.found (raw ++ rest) p t signals index (index + 1) text rule =
      (m.found raw p t signals index (index + 1) text rule).filter
        fun f => !m.released (raw ++ rest) lookahead ⟨index + 1, f⟩ := by
  by_cases hrule : rule = .balanceEnd
  · subst hrule
    exact endFindings_append hlookahead hnonneg hindex
  · have hsame : m.found (raw ++ rest) p t signals index (index + 1) text rule =
        m.found raw p t signals index (index + 1) text rule := by
      cases rule with
      | balanceEnd => exact absurd rfl hrule
      | _ => rfl
    rw [hsame, eq_comm, List.filter_eq_self]
    intro f hf
    rw [released_eq_false]
    · rfl
    · show f.rule ≠ _
      rw [rule_of_mem_found hf]
      exact hrule

/-- With more raw lines a line of a turret asks for fewer releases and is else the same. -/
theorem routedOutcome_append
    (hlookahead : m.config.releaseLookahead.int? = some lookahead)
    (hnonneg : 0 ≤ lookahead)
    (hindex : 0 ≤ index) :
    m.routedOutcome (raw ++ rest) p t signals index (index + 1) text =
      (m.routedOutcome raw p t signals index (index + 1) text).without
        fun f => m.released (raw ++ rest) lookahead ⟨index + 1, f⟩ := by
  have hfindings : (m.routedOutcome (raw ++ rest) p t signals index (index + 1) text).findings =
      (m.routedOutcome raw p t signals index (index + 1) text).findings.filter
        fun f => !m.released (raw ++ rest) lookahead ⟨index + 1, f⟩ := by
    rw [routedOutcome_findings, routedOutcome_findings, List.filter_flatMap]
    congr 1
    funext rule
    exact found_append hlookahead hnonneg hindex rule
  rw [Outcome.without, ← hfindings]
  rfl

/-- Where the lookahead is a whole number, the raw lines do not stop a check. -/
theorem passes_of_append
    (hlookahead : m.config.releaseLookahead.int? = some lookahead)
    {line : Int}
    (h : ∀ check ∈ m.routedChecks (raw ++ rest) p t signals index line text, check.Passes) :
    ∀ check ∈ m.routedChecks raw p t signals index line text, check.Passes := by
  intro check hcheck
  rcases List.mem_append.mp hcheck with hend | hblock
  · unfold endChecks at hend
    split_ifs at hend
    · rcases List.mem_cons.mp hend with rfl | hend
      · exact ⟨_, releaseCheck_eq hlookahead index⟩
      · exact ⟨_, List.mem_singleton.mp hend⟩
    · cases hend
  · exact h check (List.mem_append_right _ hblock)

end Routed

/-- A step that sees more raw lines is a step that sees fewer, less the releases. -/
theorem Advance.of_append
    (hlookahead : m.config.releaseLookahead.int? = some lookahead)
    (hnonneg : 0 ≤ lookahead)
    {p : Progress}
    {index : Int}
    (hindex : 0 ≤ index)
    {text : Text}
    {outcome : Outcome}
    (h : Advance m (raw ++ rest) p index (index + 1) text outcome) :
    ∃ shorter, Advance m raw p index (index + 1) text shorter ∧
      outcome = shorter.without fun f => m.released (raw ++ rest) lookahead ⟨index + 1, f⟩ := by
  cases h with
  | header hselect hturret hnumber => exact ⟨_, Advance.header hselect hturret hnumber, rfl⟩
  | common hselect hturret hnumber => exact ⟨_, Advance.common hselect hturret hnumber, rfl⟩
  | @select t marker hselect =>
      refine ⟨_, Advance.select hselect, ?_⟩
      have hkept : (readSelection { p with routing := true } t marker (index + 1) text).findings =
          (readSelection { p with routing := true } t marker (index + 1) text).findings.filter
            fun f => !m.released (raw ++ rest) lookahead ⟨index + 1, f⟩ := by
        rw [eq_comm, List.filter_eq_self]
        intro f hf
        rw [released_eq_false]
        · rfl
        · show f.rule ≠ _
          rw [rule_of_mem_readSelection hf]
          decide
      rw [Outcome.without, ← hkept]
  | routed hselect hturret hsignals hchecks hstart =>
      exact ⟨_,
        Advance.routed hselect hturret hsignals (passes_of_append hlookahead hchecks) hstart,
        routedOutcome_append hlookahead hnonneg hindex⟩

/-- A run that sees more raw lines is a run that sees fewer, less the releases. -/
theorem Reaches.of_append
    (hlookahead : m.config.releaseLookahead.int? = some lookahead)
    (hnonneg : 0 ≤ lookahead)
    (h : Reaches m (raw ++ rest) done s) :
    ∃ shorter, Reaches m raw done shorter ∧
      s = shorter.without (m.released (raw ++ rest) lookahead) := by
  induction h with
  | start => exact ⟨{}, Reaches.start, rfl⟩
  | skip _ hskip ih =>
      obtain ⟨shorter, hreach, rfl⟩ := ih
      exact ⟨shorter, Reaches.skip hreach hskip, rfl⟩
  | @advance done s line outcome _ hskip step ih =>
      obtain ⟨shorter, hreach, rfl⟩ := ih
      have step : Advance m (raw ++ rest) shorter.progress done.length (done.length + 1)
          (Text.trim line) outcome := step
      obtain ⟨outcome', hstep, rfl⟩ := step.of_append hlookahead hnonneg (by omega)
      exact ⟨_, Reaches.advance hreach hskip hstep, (Trace.without_after _ _ _ _).symm⟩

/-- Where a release is missing, no wait code is within the lookahead. -/
theorem Reaches.not_waitsWithin
    (hlookahead : m.config.releaseLookahead.int? = some lookahead)
    (h : Reaches m raw done s)
    {d : Diagnostic}
    (hd : d ∈ s.log)
    {marker : Text}
    (hfinding : d.finding = .releaseMissing marker) :
    marker = m.dialect.balanceEnd ∧ m.waitsWithin raw lookahead (d.line - 1) = false := by
  obtain ⟨first, line, s₀, outcome, hread, hmem, hline⟩ := h.exists_readAt_of_log hd
  have hposition : d.line - 1 = first.length := by omega
  rw [hfinding] at hmem
  rw [hposition]
  have step := hread.step
  cases step with
  | header => cases hmem
  | common => cases hmem
  | select => cases rule_of_mem_readSelection hmem
  | @routed t signals =>
      have hmem : Finding.releaseMissing marker ∈
          (m.endChecks raw first.length (Text.trim line)).flatMap Check.findings :=
        mem_found_iff.mpr hmem
      unfold endChecks at hmem
      split_ifs at hmem
      · simp only [releaseCheck_eq hlookahead, List.flatMap_cons, List.flatMap_nil,
          Check.findings] at hmem
        cases hwait : m.waitsWithin raw lookahead first.length with
        | true => simp [hwait] at hmem
        | false =>
            simp only [hwait] at hmem
            exact ⟨by simpa using hmem, rfl⟩
      · cases hmem

end Machine

/-- What stands of the result `r` of a program of so many lines in the result `r'` of a program
that begins with it and has the given lines. -/
structure Machine.Continues
    (m : Machine)
    (lookahead : Int)
    (lines : List Text)
    (number : Int)
    (r r' : Result) : Prop where
  streams : ∀ stream, r.stream stream <+: r'.stream stream
  errors : Log.errors r.log <+: Log.errors r'.log
  notes : Log.notes r.log <+: Log.notes r'.log
  waits : ∀ t, (r.finalStates.get t).waits <+: (r'.finalStates.get t).waits
  warnings : Log.upTo (Log.warnings r'.log) number =
    (Log.warnings r.log).filter fun d => !m.released lines lookahead d
  released : ∀ d ∈ Log.warnings r.log, m.released lines lookahead d = true →
    d.message = "Wait code required after ".toList ++ m.dialect.balanceEnd ++
      " to release slave turret".toList ∧ number - lookahead < d.line

namespace Machine

variable {m : Machine} {raw rest : List Text} {s s' : Trace} {lookahead : Int}

/-- A release that the added lines give was asked for near the old end. -/
theorem Reaches.released_near_end
    (hlookahead : m.config.releaseLookahead.int? = some lookahead)
    (hnonneg : 0 ≤ lookahead)
    (h : Reaches m raw raw s)
    {d : Diagnostic}
    (hd : d ∈ s.log)
    (hreleased : m.released (raw ++ rest) lookahead d = true) :
    d.finding = .releaseMissing m.dialect.balanceEnd ∧ raw.length - lookahead < d.line := by
  unfold released at hreleased
  split at hreleased
  · rename_i marker hfinding
    obtain ⟨rfl, hmissing⟩ := h.not_waitsWithin hlookahead hd hfinding
    have hbound := (h.log_line_bounds hd).1
    have hreach := length_lt_of_waitsWithin_append hnonneg (by omega) hmissing hreleased
    exact ⟨hfinding, by omega⟩
  · cases hreleased

/-- The run over the longer program shows of its first lines what the run over them alone shows. -/
theorem Reaches.exists_continues
    (hlookahead : m.config.releaseLookahead.int? = some lookahead)
    (hnonneg : 0 ≤ lookahead)
    (h : Reaches m (raw ++ rest) (raw ++ rest) s') :
    ∃ s, Reaches m raw raw s ∧ m.Continues lookahead (raw ++ rest) raw.length
      (s.toResult raw) (s'.toResult (raw ++ rest)) := by
  obtain ⟨s₀, hreach₀, hpassed⟩ := h.exists_passed raw rest rfl
  obtain ⟨s, hreach, rfl⟩ := hreach₀.of_append hlookahead hnonneg
  have hlog := Trace.log_prefix hpassed.history
  rw [Trace.without_log] at hlog
  have hstream : ∀ stream, s.stream stream <+: s'.stream stream := by
    intro stream
    rw [← Trace.without_stream s (m.released (raw ++ rest) lookahead)]
    exact Trace.stream_prefix hpassed.history stream
  have hkept : ∀ severity, severity ≠ .warning →
      Log.withSeverity s.log severity <+: Log.withSeverity s'.log severity := by
    intro severity hseverity
    have hsame : Log.withSeverity
        (s.log.filter fun d => !m.released (raw ++ rest) lookahead d) severity =
          Log.withSeverity s.log severity := by
      refine Log.withSeverity_without ?_
      intro d hd
      rw [severity_of_released hd]
      exact hseverity.symm
    rw [← hsame]
    exact hlog.filter _
  refine ⟨s, hreach, ?_⟩
  constructor
  · intro stream
    rw [Trace.toResult_stream, Trace.toResult_stream]
    exact hstream stream
  · exact hkept .error (by decide)
  · exact hkept .info (by decide)
  · intro t
    show (s.progress.states.get t).waits <+: (s'.progress.states.get t).waits
    rw [hreach.waits_eq, h.waits_eq]
    exact (hstream (.turret t)).filterMap _
  · have hupTo := hpassed.log
    rw [Trace.without_log] at hupTo
    show (s'.log.filter _).filter _ = (s.log.filter _).filter _
    rw [List.filter_comm, List.filter_comm _ _ s.log]
    exact congrArg _ hupTo
  · intro d hd hreleased
    have hmem : d ∈ s.log := List.mem_of_mem_filter hd
    obtain ⟨hfinding, hline⟩ := hreach.released_near_end hlookahead hnonneg hmem hreleased
    refine ⟨?_, hline⟩
    rw [Diagnostic.message, hfinding]
    rfl

/-- Text that is added after a program changes nothing of what was said of the program, but
for releases near its end that were missing before. -/
theorem analyze_continues
    (m : Machine)
    (program rest : Text)
    (lookahead : Int)
    (hlookahead : m.config.releaseLookahead.int? = some lookahead)
    (hnonneg : 0 ≤ lookahead) :
    (m.config.Numeric → m.Writable → m.dialect.NamesTurrets → m.dialect.NamesSpindles →
        ∃ r', m.analyze (program ++ '\n' :: rest) = .ok r') ∧
      ∀ r', m.analyze (program ++ '\n' :: rest) = .ok r' →
        ∃ r, m.analyze program = .ok r ∧
          m.Continues lookahead (Text.lines (program ++ '\n' :: rest))
            (Text.lines program).length r r' := by
  refine ⟨fun hconfig hwritable hturrets hspindles =>
    analyze_ok hconfig hwritable hturrets hspindles _, ?_⟩
  intro r' hr'
  obtain ⟨s', hreach', rfl⟩ := exists_reaches hr'
  rw [Text.lines_append] at hreach' ⊢
  obtain ⟨s, hreach, hcontinues⟩ := hreach'.exists_continues hlookahead hnonneg
  exact ⟨_, analyze_of_readLines (readLines_of_reaches hreach), hcontinues⟩

/-- A wait code in the added text is within reach of the later of two ends of balance cutting. -/
theorem analyze_continues_with_release :
    ∃ r r', (Machine.ofPreset Config.defaultPreset).analyze
        "G109 L1\nM563\nG1\n\n\n\nM563\nG1".toList = .ok r ∧
      (Machine.ofPreset Config.defaultPreset).analyze
        ("G109 L1\nM563\nG1\n\n\n\nM563\nG1".toList ++ '\n' :: "G2\nP1".toList) = .ok r' ∧
      (Machine.ofPreset Config.defaultPreset).Continues 4
        (Text.lines
          ("G109 L1\nM563\nG1\n\n\n\nM563\nG1".toList ++ '\n' :: "G2\nP1".toList)) 8 r r' ∧
      (Log.warnings r.log).map (fun d => d.line) = [2, 7] ∧
      (Log.warnings r'.log).map (fun d => d.line) = [2] := by
  obtain ⟨hok, hlaw⟩ := analyze_continues (Machine.ofPreset Config.defaultPreset)
    "G109 L1\nM563\nG1\n\n\n\nM563\nG1".toList "G2\nP1".toList 4 rfl (by decide)
  obtain ⟨r', hr'⟩ := hok (Config.numeric_preset _) (Machine.writable_ofPreset _)
    Dialect.integrex_namesTurrets Dialect.integrex_namesSpindles
  obtain ⟨r, hr, hcontinues⟩ := hlaw r' hr'
  have hwarned : ((Machine.ofPreset Config.defaultPreset).analyze
      "G109 L1\nM563\nG1\n\n\n\nM563\nG1".toList).toOption.any
        (fun r => (Log.warnings r.log).map (fun d => d.line) = [2, 7]) = true := by
    decide +kernel
  have hwarned' : ((Machine.ofPreset Config.defaultPreset).analyze
      ("G109 L1\nM563\nG1\n\n\n\nM563\nG1".toList ++ '\n' :: "G2\nP1".toList)).toOption.any
        (fun r' => (Log.warnings r'.log).map (fun d => d.line) = [2]) = true := by
    decide +kernel
  rw [hr] at hwarned
  rw [hr'] at hwarned'
  exact ⟨r, r', hr, hr', hcontinues, of_decide_eq_true hwarned, of_decide_eq_true hwarned'⟩

end Machine
end DualTurret
