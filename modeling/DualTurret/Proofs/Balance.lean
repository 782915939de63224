import DualTurret.Proofs.Scan.Findings

/-!
# Balance cutting

A line of a turret belongs to balance cutting when a start marker stands at or before
it, on a line of either turret, and no end marker stands from there up to it.  Lines
that select a turret do not count, nor do lines outside the turrets' streams.

The scan keeps one session for both turrets.  `Dialect.SessionLaw` says what this session
has to do with the lines read so far; it is an invariant of every run, and the tags
and the speed notes follow from it.
-/

namespace DualTurret

namespace Dialect

/-- A line of the turret's stream that does not select a turret. -/
def WorkLine
    (d : Dialect)
    (streams : Stream → List ClassifiedLine)
    (t : Turret)
    (entry : ClassifiedLine) :
    Prop :=
  entry ∈ streams (.turret t) ∧ d.selectedTurret? entry.text = none

/-- A line of the turret that holds the start marker of balance cutting. -/
def Starts
    (d : Dialect)
    (streams : Stream → List ClassifiedLine)
    (t : Turret)
    (entry : ClassifiedLine) :
    Prop :=
  d.WorkLine streams t entry ∧ Block.holdsMarker entry.text d.balanceStart = true

/-- A line of the turret that holds the end marker of balance cutting. -/
def Ends
    (d : Dialect)
    (streams : Stream → List ClassifiedLine)
    (t : Turret)
    (entry : ClassifiedLine) :
    Prop :=
  d.WorkLine streams t entry ∧ Block.holdsMarker entry.text d.balanceEnd = true

/-- The turret has got one more line to work on, after all others. -/
structure Adds
    (d : Dialect)
    (streams streams' : Stream → List ClassifiedLine)
    (t : Turret)
    (entry : ClassifiedLine) : Prop where
  work : ∀ t' other, d.WorkLine streams' t' other ↔
    d.WorkLine streams t' other ∨ (t' = t ∧ other = entry)
  last : ∀ t' other, d.WorkLine streams t' other → other.line < entry.line

/-- Balance cutting has started at or before the line of this number and has not ended
from there up to it. -/
def InBalance (d : Dialect) (streams : Stream → List ClassifiedLine) (number : Int) : Prop :=
  ∃ t start, d.Starts streams t start ∧ start.line ≤ number ∧
    ∀ t' stop, d.Ends streams t' stop → ¬ (start.line ≤ stop.line ∧ stop.line ≤ number)

/-- The session is the one that the latest start has opened, and it is still open. -/
def OpenSession
    (d : Dialect)
    (streams : Stream → List ClassifiedLine)
    (session : BalanceSession) :
    Prop :=
  session.active = true ∧
    ∃ start, d.Starts streams session.master start ∧ start.line = session.startLine ∧
      (∀ t other, d.Starts streams t other → other.line ≤ start.line) ∧
      ∀ t stop, d.Ends streams t stop → stop.line < start.line

/-- What the lines of both turrets leave open: a session if a start stands after all
ends, and else nothing. -/
def SessionLaw
    (d : Dialect)
    (streams : Stream → List ClassifiedLine) :
    Option BalanceSession → Prop
  | none => ∀ t start, d.Starts streams t start →
      ∃ t' stop, d.Ends streams t' stop ∧ start.line ≤ stop.line
  | some session => d.OpenSession streams session

theorem SessionLaw.congr
    {d : Dialect}
    {streams streams' : Stream → List ClassifiedLine}
    {session : Option BalanceSession}
    (hstarts : ∀ t entry, d.Starts streams' t entry ↔ d.Starts streams t entry)
    (hends : ∀ t entry, d.Ends streams' t entry ↔ d.Ends streams t entry)
    (h : d.SessionLaw streams session) :
    d.SessionLaw streams' session := by
  cases session with
  | none => simpa only [SessionLaw, hstarts, hends] using h
  | some session => simpa only [SessionLaw, OpenSession, hstarts, hends] using h

/-- At the last line, balance cutting is under way when a session is open. -/
theorem SessionLaw.inBalance_iff
    {d : Dialect}
    {streams : Stream → List ClassifiedLine}
    {session : Option BalanceSession}
    {number : Int}
    (hlast : ∀ t entry, d.WorkLine streams t entry → entry.line ≤ number)
    (h : d.SessionLaw streams session) :
    d.InBalance streams number ↔ session.isSome = true := by
  cases session with
  | none =>
      simp only [Option.isSome_none, Bool.false_eq_true, iff_false]
      rintro ⟨t, start, hstart, _, hopen⟩
      obtain ⟨t', stop, hstop, hle⟩ := h t start hstart
      exact hopen t' stop hstop ⟨hle, hlast t' stop hstop.1⟩
  | some session =>
      simp only [Option.isSome_some, iff_true]
      obtain ⟨_, start, hstart, _, _, hends⟩ := h
      refine ⟨session.master, start, hstart, hlast _ _ hstart.1, ?_⟩
      rintro t stop hstop ⟨hle, _⟩
      have hlt := hends t stop hstop
      omega

section Adds

variable {d : Dialect} {streams streams' : Stream → List ClassifiedLine} {t : Turret}
  {entry : ClassifiedLine}

/-- No line that a turret works on stands after the added one. -/
theorem Adds.line_le
    (h : d.Adds streams streams' t entry)
    {t' : Turret}
    {other : ClassifiedLine}
    (hother : d.WorkLine streams' t' other) :
    other.line ≤ entry.line := by
  rcases (h.work t' other).mp hother with hold | ⟨_, rfl⟩
  · exact Int.le_of_lt (h.last t' other hold)
  · exact Int.le_refl _

theorem Adds.marked_iff
    (h : d.Adds streams streams' t entry)
    (marker : Text)
    {t' : Turret}
    {other : ClassifiedLine} :
    d.WorkLine streams' t' other ∧ Block.holdsMarker other.text marker = true ↔
      (d.WorkLine streams t' other ∧ Block.holdsMarker other.text marker = true) ∨
        (t' = t ∧ other = entry ∧ Block.holdsMarker entry.text marker = true) := by
  rw [h.work, or_and_right]
  refine or_congr_right ?_
  constructor
  · rintro ⟨⟨rfl, rfl⟩, hmarker⟩
    exact ⟨rfl, rfl, hmarker⟩
  · rintro ⟨rfl, rfl, hmarker⟩
    exact ⟨⟨rfl, rfl⟩, hmarker⟩

/-- One more line starts a section at most where the line itself holds the start marker. -/
theorem Adds.starts_iff
    (h : d.Adds streams streams' t entry)
    {t' : Turret}
    {other : ClassifiedLine} :
    d.Starts streams' t' other ↔ d.Starts streams t' other ∨
      (t' = t ∧ other = entry ∧ Block.holdsMarker entry.text d.balanceStart = true) :=
  h.marked_iff d.balanceStart

theorem Adds.ends_iff
    (h : d.Adds streams streams' t entry)
    {t' : Turret}
    {other : ClassifiedLine} :
    d.Ends streams' t' other ↔ d.Ends streams t' other ∨
      (t' = t ∧ other = entry ∧ Block.holdsMarker entry.text d.balanceEnd = true) :=
  h.marked_iff d.balanceEnd

/-- A later line does not change what is under way at an earlier one. -/
theorem Adds.inBalance_iff
    (h : d.Adds streams streams' t entry)
    {number : Int}
    (hnumber : number < entry.line) :
    d.InBalance streams' number ↔ d.InBalance streams number := by
  constructor
  · rintro ⟨t', start, hstart, hle, hopen⟩
    rcases h.starts_iff.mp hstart with hold | ⟨_, rfl, _⟩
    · exact ⟨t', start, hold, hle, fun t'' stop hstop =>
        hopen t'' stop (h.ends_iff.mpr (Or.inl hstop))⟩
    · omega
  · rintro ⟨t', start, hstart, hle, hopen⟩
    refine ⟨t', start, h.starts_iff.mpr (Or.inl hstart), hle, ?_⟩
    intro t'' stop hstop
    rcases h.ends_iff.mp hstop with hold | ⟨_, rfl, _⟩
    · exact hopen t'' stop hold
    · omega

/-- The session after one more line is the one that all lines leave open. -/
theorem SessionLaw.nextSession
    {m : Machine}
    {session : Option BalanceSession}
    (hadds : m.dialect.Adds streams streams' t entry)
    (h : m.dialect.SessionLaw streams session) :
    m.dialect.SessionLaw streams' (m.nextSession session t entry.line entry.text) := by
  unfold Machine.nextSession Machine.closeSession Machine.openSession
  split_ifs with hend hstart
  · intro t' start hstarts
    exact ⟨t, entry, hadds.ends_iff.mpr (Or.inr ⟨rfl, rfl, hend⟩), hadds.line_le hstarts.1⟩
  · refine ⟨rfl, entry, hadds.starts_iff.mpr (Or.inr ⟨rfl, rfl, hstart⟩), rfl, ?_, ?_⟩
    · intro t' other hother
      exact hadds.line_le hother.1
    · intro t' stop hstop
      rcases hadds.ends_iff.mp hstop with hold | ⟨_, _, hmarker⟩
      · exact hadds.last t' stop hold.1
      · exact absurd hmarker hend
  · refine h.congr ?_ ?_
    · intro t' other
      rw [hadds.starts_iff]
      simp [hstart]
    · intro t' other
      rw [hadds.ends_iff]
      simp [hend]

end Adds

end Dialect

namespace Machine

variable {m : Machine} {raw done : List Text} {s : Trace}

/-- A step adds at most one line to those that a turret works on. -/
theorem workLine_after
    {d : Dialect}
    {outcome : Outcome}
    {number : Int}
    {t : Turret}
    {entry : ClassifiedLine} :
    d.WorkLine (s.after outcome number).stream t entry ↔
      d.WorkLine s.stream t entry ∨
        (outcome.placed = some (.turret t, entry) ∧ d.selectedTurret? entry.text = none) := by
  rw [Dialect.WorkLine, Trace.mem_stream_after, or_and_right]
  rfl

/-- A line of the selected turret adds one line to what its turret works on.  Any other
line adds none and leaves the session and the states alone. -/
theorem Reaches.idle_or_adds
    (before : Reaches m raw done s)
    {text : Text}
    {outcome : Outcome}
    (step : Advance m raw s.progress done.length (done.length + 1) text outcome) :
    (outcome.progress.session = s.progress.session ∧
        outcome.progress.states = s.progress.states ∧
        ∀ t entry, m.dialect.WorkLine (s.after outcome (done.length + 1)).stream t entry ↔
          m.dialect.WorkLine s.stream t entry) ∨
      ∃ t signals, outcome =
          m.routedOutcome raw s.progress t signals done.length (done.length + 1) text ∧
        m.dialect.signals text = .ok signals ∧
        m.dialect.Adds s.stream (s.after outcome (done.length + 1)).stream t
          (m.routedEntry s.progress t signals (done.length + 1) text) := by
  cases step with
  | header =>
      left
      refine ⟨rfl, rfl, ?_⟩
      intro t entry
      rw [workLine_after]
      simp
  | common =>
      left
      refine ⟨rfl, rfl, ?_⟩
      intro t entry
      rw [workLine_after]
      simp
  | select hselect =>
      left
      refine ⟨rfl, rfl, ?_⟩
      intro t entry
      rw [workLine_after, or_iff_left]
      rintro ⟨hplaced, hnone⟩
      cases hplaced
      simp [TurretState.snapshot, hselect] at hnone
  | @routed t signals hselect _ hsignals =>
      right
      refine ⟨t, signals, rfl, hsignals, ?_, ?_⟩
      · intro t' other
        rw [workLine_after]
        refine or_congr_right ?_
        constructor
        · rintro ⟨hplaced, _⟩
          cases hplaced
          exact ⟨rfl, rfl⟩
        · rintro ⟨rfl, rfl⟩
          exact ⟨rfl, hselect⟩
      · intro t' other hother
        have hle := (before.entry_line_bounds hother.1).2
        simp only [routedEntry, TurretState.snapshot]
        omega

/-- The session is the one that the lines read so far leave open. -/
theorem Reaches.sessionLaw
    (h : Reaches m raw done s) :
    m.dialect.SessionLaw s.stream s.progress.session := by
  induction h with
  | start =>
      rintro t start ⟨⟨hmem, _⟩, _⟩
      cases hmem
  | skip _ _ ih => exact ih
  | advance before _ step ih =>
      rcases before.idle_or_adds step with ⟨hsession, _, hwork⟩ | ⟨t, signals, rfl, _, hadds⟩
      · have hlaw := ih.congr (fun t entry => and_congr_left' (hwork t entry))
          (fun t entry => and_congr_left' (hwork t entry))
        rw [← hsession] at hlaw
        exact hlaw
      · exact ih.nextSession hadds

/-- A session that is open is always active. -/
theorem Reaches.inBalance_eq
    (h : Reaches m raw done s) :
    s.progress.inBalance = s.progress.session.isSome := by
  have hlaw := h.sessionLaw
  unfold Progress.inBalance
  cases hsession : s.progress.session with
  | none => rfl
  | some session =>
      rw [hsession] at hlaw
      exact hlaw.1

/-- A line of a turret is tagged as balance cutting when balance cutting is under way. -/
theorem Reaches.tag_eq_balance_iff
    (h : Reaches m raw done s) :
    ∀ t entry, m.dialect.WorkLine s.stream t entry →
      (entry.tag = .balance ↔ m.dialect.InBalance s.stream entry.line) := by
  induction h with
  | start =>
      rintro t entry ⟨hmem, _⟩
      cases hmem
  | skip _ _ ih => exact ih
  | @advance done s line outcome before hskip step ih =>
      have after := Reaches.advance before hskip step
      intro t entry hentry
      rcases before.idle_or_adds step with ⟨_, _, hwork⟩ | ⟨t', signals, rfl, _, hadds⟩
      · rw [ih t entry ((hwork t entry).mp hentry)]
        simp only [Dialect.InBalance, Dialect.Starts, Dialect.Ends, hwork]
      · rcases (hadds.work t entry).mp hentry with hold | ⟨_, rfl⟩
        · rw [ih t entry hold, hadds.inBalance_iff (hadds.last t entry hold)]
        · rw [after.sessionLaw.inBalance_iff fun t other hother => hadds.line_le hother,
            ← after.inBalance_eq]
          show (if _ then _ else _) = StreamTag.balance ↔ _
          split_ifs with hbalance
          · exact iff_of_true rfl hbalance
          · exact iff_of_false (by simp) hbalance

end Machine

/-- The wording of the note on a spindle speed in balance cutting. -/
def speedNote (digits : Text) : Text :=
  "Spindle speed ".toList ++ digits ++ " RPM in balance cutting".toList

/-- A note of this wording stands in the log at the line of this number. -/
def Log.HasNote (log : Log) (number : Int) (message : Text) : Prop :=
  ∃ d ∈ Log.notes log, d.line = number ∧ d.message = message

/-- Only the note on a spindle speed is worded like one. -/
theorem Finding.eq_balanceSpeed_iff
    {f : Finding}
    {digits : Text}
    (hrule : f.rule ≠ .remark) :
    f.severity = .info ∧ f.message = speedNote digits ↔ f = .balanceSpeed digits := by
  have hhead : (speedNote digits).head? = some 'S' := rfl
  constructor
  · rintro ⟨hseverity, hmessage⟩
    rw [← hmessage] at hhead
    cases f with
    | balanceSpeed other =>
        have hsame : other = digits :=
          List.append_cancel_left (List.append_cancel_right hmessage)
        rw [hsame]
    | turretSelected turret marker => cases turret <;> cases hhead
    | spindleSelected spindle marker => cases spindle <;> cases hhead
    | millingOn => cases hhead
    | millingOff => cases hhead
    | crossOn => cases hhead
    | crossOff => cases hhead
    | balanceStarts master => cases hhead
    | balanceEnds => cases hhead
    | remark severity message => exact absurd rfl hrule
    | unsupportedCode code => cases hseverity
    | zeroFeed => cases hseverity
    | longBlock limit length => cases hseverity
    | selectWithMotion => cases hseverity
    | waitMissing mRange pRange marker => cases hseverity
    | slaveWaitMissing slave => cases hseverity
    | waitMismatch master slave => cases hseverity
    | releaseMissing marker => cases hseverity
    | lowFeed rate => cases hseverity
    | highSpeed other => cases hseverity
  · rintro rfl
    exact ⟨rfl, rfl⟩

namespace Machine

variable {m : Machine} {raw done : List Text} {s : Trace}

/-- A speed is noted exactly when it stands in balance cutting. -/
theorem balanceSpeed_mem_speedCheck
    {inBalance : Bool}
    {text digits : Text}
    (hpasses : (m.speedCheck inBalance text).Passes) :
    .balanceSpeed digits ∈ (m.speedCheck inBalance text).findings ↔
      inBalance = true ∧ Block.speedDigits? text = some digits := by
  obtain ⟨found, hfound⟩ := hpasses
  unfold speedCheck at hfound ⊢
  cases hdigits : Block.speedDigits? text with
  | none => simp [Check.findings]
  | some other =>
      cases hexceeds : m.exceedsSpeed other with
      | error fault => simp [hdigits, hexceeds] at hfound
      | ok high =>
          have hnot : Finding.balanceSpeed digits ∉
              if high = true then [Finding.highSpeed other] else [] := by
            cases high <;> simp
          simp only [Check.findings, hexceeds, List.mem_append, hnot, false_or]
          cases inBalance <;> simp [eq_comm]

/-- The speeds that a step notes are those of the line that it places as balanced. -/
theorem Advance.speedNote_iff
    {p : Progress}
    {index line : Int}
    {text : Text}
    {outcome : Outcome}
    (h : Advance m raw p index line text outcome)
    (digits : Text) :
    .balanceSpeed digits ∈ outcome.findings ↔
      ∃ stream entry, outcome.placed = some (stream, entry) ∧ entry.tag = .balance ∧
        Block.speedDigits? entry.text = some digits := by
  cases h with
  | header => simp
  | common => simp
  | select =>
      constructor
      · intro hmem
        cases rule_of_mem_readSelection hmem
      · rintro ⟨stream, entry, hplaced, htag, _⟩
        cases hplaced
        cases htag
  | @routed t signals _ _ _ hchecks =>
      have hpasses :
          (m.speedCheck (m.routedProgress p t signals line text).inBalance text).Passes :=
        hchecks _ (List.mem_append_right _ (by simp [blockChecks]))
      rw [← mem_found_iff]
      refine (balanceSpeed_mem_speedCheck hpasses).trans ?_
      constructor
      · rintro ⟨hbalance, hdigits⟩
        refine ⟨_, _, rfl, ?_, hdigits⟩
        simp [routedEntry, TurretState.snapshot, hbalance]
      · rintro ⟨stream, entry, hplaced, htag, hdigits⟩
        cases hplaced
        refine ⟨?_, hdigits⟩
        simpa [routedEntry, TurretState.snapshot] using htag

theorem hasNote_after
    {outcome : Outcome}
    {line number : Int}
    {message : Text} :
    Log.HasNote (s.after outcome line).log number message ↔
      Log.HasNote s.log number message ∨
        (line = number ∧ ∃ f ∈ outcome.findings, f.severity = .info ∧ f.message = message) := by
  simp only [Log.HasNote, Log.notes, Log.withSeverity, Trace.log_after, List.filter_append,
    List.mem_append, or_and_right, exists_or]
  refine or_congr_right ?_
  constructor
  · rintro ⟨d, hd, hline, hmessage⟩
    obtain ⟨hmem, hseverity⟩ := List.mem_filter.mp hd
    obtain ⟨f, hf, rfl⟩ := List.mem_map.mp hmem
    exact ⟨hline, f, hf, of_decide_eq_true hseverity, hmessage⟩
  · rintro ⟨hline, f, hf, hseverity, hmessage⟩
    refine ⟨⟨line, f⟩, List.mem_filter.mpr ⟨List.mem_map_of_mem hf, ?_⟩, hline, hmessage⟩
    simp [Diagnostic.severity, hseverity]

/-- The note on a spindle speed stands at just the lines of balance cutting that have one. -/
theorem Reaches.speedNote_iff
    (h : Reaches m raw done s)
    (number : Int)
    (digits : Text) :
    Log.HasNote s.log number (speedNote digits) ↔
      ∃ stream, ∃ entry ∈ s.stream stream, entry.line = number ∧ entry.tag = .balance ∧
        Block.speedDigits? entry.text = some digits := by
  induction h with
  | start =>
      constructor
      · rintro ⟨d, hd, _⟩
        cases hd
      · rintro ⟨stream, entry, hentry, _⟩
        cases hentry
  | skip _ _ ih => exact ih
  | @advance done s line outcome before _ step ih =>
      have hnew : (∃ f ∈ outcome.findings,
          f.severity = .info ∧ f.message = speedNote digits) ↔
            .balanceSpeed digits ∈ outcome.findings := by
        constructor
        · rintro ⟨f, hf, hnote⟩
          rwa [(Finding.eq_balanceSpeed_iff (step.rule_ne_remark hf)).mp hnote] at hf
        · intro hmem
          exact ⟨_, hmem, rfl, rfl⟩
      rw [hasNote_after, ih, hnew, step.speedNote_iff]
      simp only [Trace.mem_stream_after, or_and_right, exists_or]
      refine or_congr_right ?_
      constructor
      · rintro ⟨hnumber, stream, entry, hplaced, hspec⟩
        exact ⟨stream, entry, hplaced, by rw [step.placed_line hplaced, hnumber], hspec⟩
      · rintro ⟨stream, entry, hplaced, hnumber, hspec⟩
        rw [step.placed_line hplaced] at hnumber
        exact ⟨hnumber, stream, entry, hplaced, hspec⟩

/-- What the analysis of some physical lines says about balance cutting: the tags of the lines
that the turrets work on, the session after each first part of the lines, and the notes on
spindle speeds. -/
structure BalanceLaw (m : Machine) (raw : List Text) (r : Result) : Prop where
  tagged : ∀ t entry, m.dialect.WorkLine r.stream t entry →
    (entry.tag = .balance ↔ m.dialect.InBalance r.stream entry.line)
  session : ∀ first rest, raw = first ++ rest →
    ∃ s, (Scanning.readLines m raw 0 first).runOn {} = (s, none) ∧
      (∀ stream, s.stream stream <+: r.stream stream) ∧
      m.dialect.SessionLaw s.stream s.progress.session
  noted : ∀ number digits, Log.HasNote r.log number (speedNote digits) ↔
    ∃ stream, ∃ entry ∈ r.stream stream, entry.line = number ∧ entry.tag = .balance ∧
      Block.speedDigits? entry.text = some digits

/-- After some of its first lines, a scan has the session that the lines before ask for. -/
theorem exists_sessionLaw
    {first rest : List Text}
    (h : m.readLines raw {} 0 (first ++ rest) = .ok s) :
    ∃ s₀, (Scanning.readLines m raw 0 first).runOn {} = (s₀, none) ∧
      (∀ stream, s₀.stream stream <+: s.stream stream) ∧
      m.dialect.SessionLaw s₀.stream s₀.progress.session := by
  obtain ⟨s₀, hread, hprefix⟩ := readLines_of_append h
  refine ⟨s₀.scan, Scanning.runOn_of_readLines hread, ?_⟩
  rw [Trace.scan_stream]
  exact ⟨Trace.stream_prefix hprefix, (reaches_of_readLines hread).sessionLaw⟩

/-- Tags, session and speed notes of a program agree on where balance cutting is under
way, for every program that the analysis gets through. -/
theorem analyze_follows_balance
    (m : Machine)
    (program : Text) :
    (m.config.Numeric → m.Writable → m.dialect.NamesTurrets → m.dialect.NamesSpindles →
        ∃ r, m.analyze program = .ok r) ∧
      ∀ r, m.analyze program = .ok r → m.BalanceLaw (Text.lines program) r := by
  refine ⟨fun hconfig hwritable hturrets hspindles =>
    analyze_ok hconfig hwritable hturrets hspindles program, ?_⟩
  intro r hr
  obtain ⟨s, hread, rfl⟩ := exists_readLines hr
  have hreach := reaches_of_readLines hread
  constructor
  · rw [Trace.toResult_stream]
    exact hreach.tag_eq_balance_iff
  · intro first rest hraw
    rw [Trace.toResult_stream]
    have hsplit : m.readLines (Text.lines program) {} 0 (first ++ rest) = .ok s := by
      rw [← hraw]
      exact hread
    exact exists_sessionLaw hsplit
  · rw [Trace.toResult_stream]
    exact hreach.speedNote_iff

/-- Both turrets start balance cutting, one after the other, and one of them ends it. -/
theorem analyze_follows_restart :
    ∃ r, (Machine.ofPreset Config.defaultPreset).analyze
        "M562\nG109 L1\nM562 S90\nG109 L2 M563\nS80\nM562 S70\nM562 M563 S60\nS50".toList =
          .ok r ∧
      (Machine.ofPreset Config.defaultPreset).BalanceLaw
        (Text.lines
          "M562\nG109 L1\nM562 S90\nG109 L2 M563\nS80\nM562 S70\nM562 M563 S60\nS50".toList) r ∧
      (r.streams.get .lower).map (fun entry => entry.tag) =
        [.turretSelect, .balance, .balance, .normal, .normal] := by
  obtain ⟨hok, hlaw⟩ := analyze_follows_balance (Machine.ofPreset Config.defaultPreset)
    "M562\nG109 L1\nM562 S90\nG109 L2 M563\nS80\nM562 S70\nM562 M563 S60\nS50".toList
  obtain ⟨r, hr⟩ := hok (Config.numeric_preset _) (Machine.writable_ofPreset _)
    Dialect.integrex_namesTurrets Dialect.integrex_namesSpindles
  refine ⟨r, hr, hlaw r hr, ?_⟩
  have htags : ((Machine.ofPreset Config.defaultPreset).analyze
      "M562\nG109 L1\nM562 S90\nG109 L2 M563\nS80\nM562 S70\nM562 M563 S60\nS50".toList
        ).toOption.map (fun r => (r.streams.get .lower).map (fun entry => entry.tag)) =
      some [.turretSelect, .balance, .balance, .normal, .normal] := by
    decide +kernel
  rw [hr] at htags
  exact Option.some.inj htags

end Machine
end DualTurret
