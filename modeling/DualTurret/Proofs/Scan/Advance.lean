import DualTurret.Proofs.Number.Order
import DualTurret.Proofs.Scan.History

/-!
# What reading one line can come to

A line that stops nothing is one of four: a program number or another line before
the first turret selection, a turret selection, or a line of the selected turret.
`Machine.Advance` says of each what it does to the progress, what it finds and where
it is placed.  Every law of a scan is proved by these four cases.

Main facts:
* `Machine.advance_of_readLine`: reading without a fault is one of the four cases;
* `Machine.fault_of_readLine`: with numeric limits and known turret names, a scan is stopped
  on a line of the selected turret only, by an unknown spindle name or by a message that can
  not be written.
-/

namespace DualTurret

theorem Turret.ofName_name (t : Turret) : Turret.ofName t.name = .ok t := by
  cases t <;> rfl

theorem Turret.eq_name_of_ofName
    {name : Text}
    {t : Turret}
    (h : Turret.ofName name = .ok t) :
    name = t.name := by
  unfold Turret.ofName at h
  split_ifs at h with hupper hlower
  · cases h
    exact hupper
  · cases h
    exact hlower

theorem Spindle.unknown_of_ofName
    {name : Text}
    {e : UnknownName}
    (h : Spindle.ofName name = .error e) :
    e = ⟨.spindle, name⟩ ∧ ∀ spindle : Spindle, name ≠ spindle.name := by
  unfold Spindle.ofName at h
  split_ifs at h with hfirst hsecond
  cases h
  refine ⟨rfl, ?_⟩
  intro spindle
  cases spindle with
  | first => exact hfirst
  | second => exact hsecond

/-- A turret is selected exactly when lines are routed. -/
def Progress.Coherent (p : Progress) : Prop :=
  p.routing = p.turret.isSome

namespace Check

/-- What a check has found; a check that was stopped has found nothing. -/
def findings : Check → List Finding
  | .ok found => found
  | .error _ => []

def Passes (check : Check) : Prop :=
  ∃ found, check = .ok found

/-- A check that is not stopped has found what it was given. -/
theorem findings_ofFindings
    {found : List Finding}
    (h : (Check.ofFindings found).Passes) :
    (Check.ofFindings found).findings = found := by
  obtain ⟨same, hsame⟩ := h
  rw [hsame]
  exact Check.ofFindings_eq_ok hsame

theorem mem_of_mem_ofFindings
    {found : List Finding}
    {f : Finding}
    (h : f ∈ (Check.ofFindings found).findings) :
    f ∈ found := by
  cases hcheck : Check.ofFindings found with
  | error fault =>
      rw [hcheck] at h
      cases h
  | ok same =>
      rw [hcheck] at h
      exact Check.ofFindings_eq_ok hcheck ▸ h

/-- Checks that are not stopped give all their findings. -/
theorem run_of_passes
    {checks : List Check}
    (h : ∀ check ∈ checks, check.Passes) :
    Check.run checks = (checks.flatMap findings, none) := by
  induction checks with
  | nil => rfl
  | cons check checks ih =>
      obtain ⟨found, rfl⟩ := h check (by simp)
      have hrest := ih fun other hother => h other (List.mem_cons_of_mem _ hother)
      simp [Check.run, hrest, findings]

/-- If no fault comes out of some checks, none of them was stopped. -/
theorem passes_of_run
    {checks : List Check}
    (h : (Check.run checks).2 = none) :
    ∀ check ∈ checks, check.Passes := by
  induction checks with
  | nil =>
      intro check hcheck
      cases hcheck
  | cons first checks ih =>
      cases first with
      | error fault => simp [Check.run] at h
      | ok found =>
          intro check hcheck
          rcases List.mem_cons.mp hcheck with rfl | hcheck
          · exact ⟨found, rfl⟩
          · exact ih h check hcheck

/-- A sequence of checks of which none but one can be stopped is stopped where that one is. -/
theorem run_eq_some_iff
    {checks : List Check}
    {only : Check}
    {fault : Fault}
    (honly : only ∈ checks)
    (h : ∀ check ∈ checks, check.Passes ∨ check = only) :
    (Check.run checks).2 = some fault ↔ only = .error fault := by
  cases only with
  | ok found =>
      have hpass : ∀ check ∈ checks, check.Passes := by
        intro check hcheck
        exact (h check hcheck).elim id fun hok => ⟨found, hok⟩
      rw [run_of_passes hpass]
      exact ⟨nofun, nofun⟩
  | error fault' =>
      induction checks with
      | nil => cases honly
      | cons first checks ih =>
          obtain ⟨hfirst, hrest⟩ := List.forall_mem_cons.mp h
          rcases hfirst with ⟨found, rfl⟩ | rfl
          · rw [Check.run]
            exact ih (List.mem_of_ne_of_mem (fun h => by cases h) honly) hrest
          · rw [Check.run]
            exact ⟨fun h => congrArg _ (Option.some.inj h),
              fun h => congrArg _ (Except.error.inj h)⟩

/-- Leaving out findings of some kind does not change where a sequence of checks stops. -/
theorem run_map_filter
    (keep : Finding → Bool)
    (checks : List Check) :
    Check.run (checks.map fun check => check.map (List.filter keep)) =
      ((Check.run checks).1.filter keep, (Check.run checks).2) := by
  induction checks with
  | nil => rfl
  | cons check checks ih =>
      cases check with
      | error fault => rfl
      | ok found =>
          have hhead : Except.map (List.filter keep) (.ok found : Check) =
              .ok (found.filter keep) := rfl
          simp only [List.map_cons, hhead, Check.run, ih, List.filter_append]

end Check

namespace Machine

theorem routedProgress_state
    (m : Machine)
    (p : Progress)
    (t : Turret)
    (signals : Signals)
    (line : Int)
    (text : Text) :
    (m.routedProgress p t signals line text).states.get t =
      (m.follow (p.states.get t) signals line text).1 :=
  PerTurret.get_set_self _ _ _

/-- The check at the start of balance cutting on a line of the selected turret. -/
def startCheck
    (m : Machine)
    (p : Progress)
    (t : Turret)
    (signals : Signals)
    (line : Int)
    (text : Text) :
    Check :=
  .ofFindings (m.startFindings (m.routedProgress p t signals line text).states t text)

/-- What a line of the selected turret comes to when nothing stops it. -/
def routedOutcome
    (m : Machine)
    (raw : List Text)
    (p : Progress)
    (t : Turret)
    (signals : Signals)
    (index line : Int)
    (text : Text) :
    Outcome :=
  let next := m.routedProgress p t signals line text
  { progress := next
    findings :=
      (m.follow (p.states.get t) signals line text).2 ++ m.startFindings next.states t text ++
        (m.routedChecks raw p t signals index line text).flatMap Check.findings
    placed := some (.turret t, m.routedEntry p t signals line text) }

/-- What reading a line comes to when nothing stops it. -/
inductive Advance
    (m : Machine)
    (raw : List Text)
    (p : Progress)
    (index line : Int)
    (text : Text) :
    Outcome → Prop
  | header
      (hselect : m.dialect.selectedTurret? text = none)
      (hturret : p.turret = none)
      (hnumber : Block.isProgramNumber text = true) :
      Advance m raw p index line text { progress := p }
  | common
      (hselect : m.dialect.selectedTurret? text = none)
      (hturret : p.turret = none)
      (hnumber : Block.isProgramNumber text = false) :
      Advance m raw p index line text
        { progress := p
          placed :=
            some (.common, { text, line, tag := .common, comment := Block.isComment text }) }
  | select {t : Turret} {marker : Text}
      (hselect : m.dialect.selectedTurret? text = some (t.name, marker)) :
      Advance m raw p index line text
        (readSelection { p with routing := true } t marker line text)
  | routed {t : Turret} {signals : Signals}
      (hselect : m.dialect.selectedTurret? text = none)
      (hturret : p.turret = some t)
      (hsignals : m.dialect.signals text = .ok signals)
      (hchecks : ∀ check ∈ m.routedChecks raw p t signals index line text, check.Passes)
      (hstart : (m.startCheck p t signals line text).Passes) :
      Advance m raw p index line text (m.routedOutcome raw p t signals index line text)

/-- Where no check is stopped, a line of a turret comes to its outcome. -/
theorem readRouted_of_passes
    (m : Machine)
    (raw : List Text)
    (p : Progress)
    (t : Turret)
    {signals : Signals}
    (index line : Int)
    {text : Text}
    (hsignals : m.dialect.signals text = .ok signals)
    (hchecks : ∀ check ∈ m.routedChecks raw p t signals index line text, check.Passes)
    (hstart : (m.startCheck p t signals line text).Passes) :
    m.readRouted raw p t index line text = m.routedOutcome raw p t signals index line text := by
  obtain ⟨opening, hopening⟩ := hstart
  have hfound := Check.ofFindings_eq_ok hopening
  rw [startCheck, hfound] at hopening
  simp only [readRouted, hsignals, hopening, Check.run_of_passes hchecks, routedOutcome]
  rfl

/-- A line of the selected turret is stopped at the start of balance cutting or by one of the
later checks. -/
theorem readRouted_fault
    (m : Machine)
    (raw : List Text)
    (p : Progress)
    (t : Turret)
    {signals : Signals}
    (index line : Int)
    {text : Text}
    (hsignals : m.dialect.signals text = .ok signals) :
    (m.readRouted raw p t index line text).fault =
      (Check.run (m.startCheck p t signals line text ::
        m.routedChecks raw p t signals index line text)).2 := by
  cases hstart : m.startCheck p t signals line text with
  | error fault =>
      rw [startCheck] at hstart
      simp only [readRouted, hsignals, hstart, Check.run]
  | ok opening =>
      rw [startCheck] at hstart
      simp only [readRouted, hsignals, hstart, Check.run]

theorem advance_of_readRouted
    {m : Machine}
    {raw : List Text}
    {p : Progress}
    {t : Turret}
    {index line : Int}
    {text : Text}
    (hselect : m.dialect.selectedTurret? text = none)
    (hturret : p.turret = some t)
    (hfault : (m.readRouted raw p t index line text).fault = none) :
    Advance m raw p index line text (m.readRouted raw p t index line text) := by
  cases hsignals : m.dialect.signals text with
  | error e => simp [readRouted, hsignals] at hfault
  | ok signals =>
      rw [readRouted_fault m raw p t index line hsignals] at hfault
      obtain ⟨hstart, hchecks⟩ := List.forall_mem_cons.mp (Check.passes_of_run hfault)
      rw [readRouted_of_passes m raw p t index line hsignals hchecks hstart]
      exact Advance.routed hselect hturret hsignals hchecks hstart

/-- A line with a turret marker selects that turret. -/
theorem readLine_of_select
    (m : Machine)
    (raw : List Text)
    (p : Progress)
    (index line : Int)
    {text marker : Text}
    {t : Turret}
    (hselect : m.dialect.selectedTurret? text = some (t.name, marker)) :
    m.readLine raw p index line text =
      readSelection { p with routing := true } t marker line text := by
  simp [readLine, hselect, Turret.ofName_name]

/-- Before the first selection a line goes to the common section. -/
theorem readLine_of_no_turret
    (m : Machine)
    (raw : List Text)
    {p : Progress}
    (index line : Int)
    {text : Text}
    (hp : p.Coherent)
    (hselect : m.dialect.selectedTurret? text = none)
    (hturret : p.turret = none) :
    m.readLine raw p index line text = readCommon p line text := by
  unfold Progress.Coherent at hp
  simp [readLine, hselect, hp, hturret]

/-- After a selection a line goes to the selected turret. -/
theorem readLine_of_turret
    (m : Machine)
    (raw : List Text)
    {p : Progress}
    (index line : Int)
    {text : Text}
    {t : Turret}
    (hp : p.Coherent)
    (hselect : m.dialect.selectedTurret? text = none)
    (hturret : p.turret = some t) :
    m.readLine raw p index line text = m.readRouted raw p t index line text := by
  unfold Progress.Coherent at hp
  simp [readLine, hselect, hp, hturret]

/-- Reading without a fault is one of the four cases. -/
theorem advance_of_readLine
    {m : Machine}
    {raw : List Text}
    {p : Progress}
    {index line : Int}
    {text : Text}
    (hp : p.Coherent)
    (hfault : (m.readLine raw p index line text).fault = none) :
    Advance m raw p index line text (m.readLine raw p index line text) := by
  cases hselect : m.dialect.selectedTurret? text with
  | some entry =>
      obtain ⟨name, marker⟩ := entry
      cases hname : Turret.ofName name with
      | error e => simp [readLine, hselect, hname] at hfault
      | ok t =>
          rw [Turret.eq_name_of_ofName hname] at hselect
          rw [readLine_of_select m raw p index line hselect]
          exact Advance.select hselect
  | none =>
      cases hturret : p.turret with
      | none =>
          rw [readLine_of_no_turret m raw index line hp hselect hturret, readCommon]
          cases hnumber : Block.isProgramNumber text with
          | true => exact Advance.header hselect hturret hnumber
          | false => exact Advance.common hselect hturret hnumber
      | some t =>
          rw [readLine_of_turret m raw index line hp hselect hturret] at hfault ⊢
          exact advance_of_readRouted hselect hturret hfault

/-- Each of the four cases is what reading comes to, without a fault. -/
theorem Advance.readLine_eq
    {m : Machine}
    {raw : List Text}
    {p : Progress}
    {index line : Int}
    {text : Text}
    {outcome : Outcome}
    (h : Advance m raw p index line text outcome)
    (hp : p.Coherent) :
    m.readLine raw p index line text = outcome ∧ outcome.fault = none := by
  cases h with
  | header hselect hturret hnumber =>
      rw [readLine_of_no_turret m raw index line hp hselect hturret, readCommon, hnumber]
      exact ⟨rfl, rfl⟩
  | common hselect hturret hnumber =>
      rw [readLine_of_no_turret m raw index line hp hselect hturret, readCommon, hnumber]
      exact ⟨rfl, rfl⟩
  | select hselect => exact ⟨readLine_of_select m raw p index line hselect, rfl⟩
  | routed hselect hturret hsignals hchecks hstart =>
      rw [readLine_of_turret m raw index line hp hselect hturret]
      exact ⟨readRouted_of_passes m raw p _ index line hsignals hchecks hstart, rfl⟩

/-- A step keeps routing and selection in step. -/
theorem Advance.coherent
    {m : Machine}
    {raw : List Text}
    {p : Progress}
    {index line : Int}
    {text : Text}
    {outcome : Outcome}
    (h : Advance m raw p index line text outcome)
    (hp : p.Coherent) :
    outcome.progress.Coherent := by
  cases h with
  | header => exact hp
  | common => exact hp
  | select => rfl
  | routed => exact hp

end Machine

/-- The limits are numbers, and the lookahead is a whole one. -/
structure Config.Numeric (c : Config) : Prop where
  maxSpindleSpeed : ∃ limit, c.maxSpindleSpeed.number? = some limit
  minFeedRate : ∃ limit, c.minFeedRate.number? = some limit
  maxBlockLength : ∃ limit, c.maxBlockLength.number? = some limit
  releaseLookahead : ∃ count, c.releaseLookahead.int? = some count

theorem length_natText_le_iff
    {n places : Nat}
    (hplaces : 0 < places) :
    (natText n).length ≤ places ↔ n < Nat.pow 10 places :=
  Nat.length_toDigits_le_iff (by decide) hplaces

/-- A whole number can be written if it lies below a power of ten. -/
theorem isWritableWhole_iff
    {n : Int} :
    isWritableWhole n = true ↔ n.natAbs < Nat.pow 10 maxWholeDigits := by
  rw [isWritableWhole, decide_eq_true_iff, length_natText_le_iff (by decide)]

/-- The whole numbers that messages show of a machine have at most 4300 digits. -/
structure Machine.Writable (m : Machine) : Prop where
  maxBlockLength : ∀ limit, m.config.maxBlockLength = .number (.whole limit) →
    isWritableWhole limit = true
  waitM : isWritableWhole m.dialect.waitM.low = true ∧ isWritableWhole m.dialect.waitM.high = true
  waitP : isWritableWhole m.dialect.waitP.low = true ∧ isWritableWhole m.dialect.waitP.high = true

/-- Every turret marker stands for one of the two turrets. -/
def Dialect.NamesTurrets (d : Dialect) : Prop :=
  ∀ entry ∈ d.turretSelect, ∃ t : Turret, entry.1 = t.name

/-- Every spindle marker stands for one of the two spindles. -/
def Dialect.NamesSpindles (d : Dialect) : Prop :=
  ∀ entry ∈ d.spindleSelect, ∃ spindle : Spindle, entry.1 = spindle.name

/-- The limits of every preset are numbers. -/
theorem Config.numeric_preset (name : Text) : (Config.preset name).config.Numeric := by
  have hpresets : ∀ entry ∈ Config.presets, entry.2.Numeric := by
    intro entry hentry
    simp only [Config.presets, List.mem_cons, List.not_mem_nil, or_false] at hentry
    rcases hentry with rfl | rfl
    · exact ⟨⟨_, rfl⟩, ⟨_, rfl⟩, ⟨_, rfl⟩, ⟨_, rfl⟩⟩
    · exact ⟨⟨_, rfl⟩, ⟨_, rfl⟩, ⟨_, rfl⟩, ⟨_, rfl⟩⟩
  unfold Config.preset
  split
  · rename_i key config hfind
    exact hpresets _ (List.mem_of_find?_eq_some hfind)
  · exact hpresets (Config.defaultPreset, Config.integrex100) (by simp [Config.presets])

/-- On the lathes, the numbers of messages can be written if the longest block length can. -/
theorem Machine.writable_integrex
    {c : Config}
    {limit : Int}
    (hlimit : c.maxBlockLength = Value.ofInt limit)
    (hwritable : isWritableWhole limit = true) :
    (Machine.mk c Dialect.integrex).Writable where
  maxBlockLength := by
    intro other hother
    cases hlimit.symm.trans hother
    exact hwritable
  waitM := by
    dsimp only
    decide +kernel
  waitP := by
    dsimp only
    decide +kernel

/-- The presets show short numbers only. -/
theorem Machine.writable_ofPreset (name : Text) : (Machine.ofPreset name).Writable := by
  have hpresets : ∀ entry ∈ Config.presets, entry.2.maxBlockLength = Value.ofInt 128 := by
    intro entry hentry
    simp only [Config.presets, List.mem_cons, List.not_mem_nil, or_false] at hentry
    rcases hentry with rfl | rfl <;> rfl
  have hshort : isWritableWhole 128 = true := by
    decide +kernel
  refine writable_integrex ?_ hshort
  unfold Config.preset
  split
  · rename_i key config hfind
    exact hpresets _ (List.mem_of_find?_eq_some hfind)
  · rfl

theorem Dialect.integrex_namesTurrets : Dialect.integrex.NamesTurrets := by
  intro entry hentry
  simp only [Dialect.integrex, List.mem_cons, List.not_mem_nil, or_false] at hentry
  rcases hentry with rfl | rfl
  · exact ⟨.upper, rfl⟩
  · exact ⟨.lower, rfl⟩

theorem Dialect.integrex_namesSpindles : Dialect.integrex.NamesSpindles := by
  intro entry hentry
  simp only [Dialect.integrex, List.mem_cons, List.not_mem_nil, or_false] at hentry
  rcases hentry with rfl | rfl
  · exact ⟨.first, rfl⟩
  · exact ⟨.second, rfl⟩

/-- The line selects a spindle that there is not. -/
def Dialect.UnknownSpindle (d : Dialect) (text name : Text) : Prop :=
  (∃ marker, d.selectedSpindle? text = some (name, marker)) ∧ name ≠ [] ∧
    ∀ spindle : Spindle, name ≠ spindle.name

namespace Machine

/-- Only an unknown spindle stops the signals of a line. -/
theorem signals_error
    {d : Dialect}
    {text : Text}
    {e : UnknownName}
    (h : d.signals text = .error e) :
    ∃ name, e = ⟨.spindle, name⟩ ∧ d.UnknownSpindle text name := by
  unfold Dialect.signals Dialect.spindleSignal at h
  cases hselect : d.selectedSpindle? text with
  | none => simp [hselect] at h
  | some entry =>
      obtain ⟨name, marker⟩ := entry
      by_cases hempty : name = []
      · simp [hselect, hempty] at h
      · cases hname : Spindle.ofName name with
        | ok spindle => simp [hselect, hempty, hname] at h
        | error e' =>
            have he : e' = e := by simpa [hselect, hempty, hname] using h
            obtain ⟨hkind, hunknown⟩ := Spindle.unknown_of_ofName hname
            exact ⟨name, by rw [← he, hkind], ⟨marker, hselect⟩, hempty, hunknown⟩

/-- An unknown spindle stops the signals of a line. -/
theorem signals_of_unknownSpindle
    {d : Dialect}
    {text name : Text}
    (h : d.UnknownSpindle text name) :
    d.signals text = .error ⟨.spindle, name⟩ := by
  obtain ⟨⟨marker, hselect⟩, hempty, hname⟩ := h
  have hunknown : Spindle.ofName name = .error ⟨.spindle, name⟩ := by
    simp [Spindle.ofName, hname]
  simp [Dialect.signals, Dialect.spindleSignal, hselect, hempty, hunknown]

theorem not_unknownSpindle
    {d : Dialect}
    (hd : d.NamesSpindles)
    (text name : Text) :
    ¬ d.UnknownSpindle text name := by
  rintro ⟨⟨marker, hselect⟩, _, hname⟩
  obtain ⟨spindle, hspindle⟩ := hd _ (List.mem_of_find?_eq_some hselect)
  exact hname spindle hspindle

/-- Where balance cutting starts and the turret has issued no wait code, the message shows the
wait ranges, and one of their bounds is too long. -/
def StartsUnwritten (m : Machine) (p : Progress) (t : Turret) (text : Text) : Prop :=
  Block.holdsMarker text m.dialect.balanceStart = true ∧ (p.states.get t).waits = [] ∧
    m.dialect.waitCode? text = none ∧
    ¬ ((isWritableWhole m.dialect.waitM.low = true ∧ isWritableWhole m.dialect.waitM.high = true) ∧
      isWritableWhole m.dialect.waitP.low = true ∧ isWritableWhole m.dialect.waitP.high = true)

/-- The block is longer than the limit, and the limit is too long to be shown. -/
def LengthUnwritten (m : Machine) (text : Text) : Prop :=
  ∃ limit : Int, m.config.maxBlockLength = .number (.whole limit) ∧ limit < text.length ∧
    isWritableWhole limit = false

/-- The comparison of wait codes shows the ranges only while the master has issued none. -/
theorem handshakeFindings_writable_iff
    {m : Machine}
    {states : PerTurret TurretState}
    {t : Turret} :
    (m.handshakeFindings states t).all Finding.isWritable = true ↔
      ((states.get t).waits = [] →
        (isWritableWhole m.dialect.waitM.low = true ∧ isWritableWhole m.dialect.waitM.high = true) ∧
          isWritableWhole m.dialect.waitP.low = true ∧
            isWritableWhole m.dialect.waitP.high = true) := by
  unfold handshakeFindings TurretState.lastWait?
  cases hwaits : (states.get t).waits.getLast? with
  | none =>
      have hnil : (states.get t).waits = [] := List.getLast?_eq_none_iff.mp hwaits
      simp [hnil, Finding.isWritable, Finding.wholes, and_assoc]
  | some wait =>
      have hne : (states.get t).waits ≠ [] := by
        intro hnil
        rw [hnil] at hwaits
        cases hwaits
      simp only [hne, false_implies, iff_true]
      split
      · rfl
      · split_ifs <;> rfl

/-- A line of the selected turret is stopped at the start of balance cutting only where the
message can not be written. -/
theorem startCheck_eq_error_iff
    {m : Machine}
    {p : Progress}
    {t : Turret}
    {signals : Signals}
    {line : Int}
    {text : Text}
    {fault : Fault} :
    m.startCheck p t signals line text = .error fault ↔
      fault = .tooLong ∧ m.StartsUnwritten p t text := by
  have hwaits : ((m.routedProgress p t signals line text).states.get t).waits = [] ↔
      (p.states.get t).waits = [] ∧ m.dialect.waitCode? text = none := by
    rw [routedProgress_state]
    simp [follow]
  unfold startCheck startFindings StartsUnwritten Check.ofFindings
  by_cases hstart : Block.holdsMarker text m.dialect.balanceStart = true
  · have hnote : [Finding.balanceStarts t].all Finding.isWritable = true := rfl
    simp only [hstart, if_true, List.all_append, hnote, Bool.and_true,
      handshakeFindings_writable_iff, hwaits, true_and]
    split_ifs with hall
    · exact ⟨nofun, fun h => absurd (hall ⟨h.2.1, h.2.2.1⟩) h.2.2.2⟩
    · simp only [Classical.not_imp] at hall
      exact ⟨fun h => ⟨(Except.error.inj h).symm, hall.1.1, hall.1.2, hall.2⟩,
        fun h => by rw [h.1]⟩
  · simp [hstart]

/-- The message on a long block shows the limit. -/
theorem longBlock_isWritable_iff
    {limit : Value}
    (length : Nat) :
    (Finding.longBlock limit length).isWritable = true ↔
      ∀ n, limit = .number (.whole n) → isWritableWhole n = true := by
  cases limit with
  | number x => cases x <;> simp [Finding.isWritable, Finding.wholes]
  | _ => simp [Finding.isWritable, Finding.wholes]

/-- With a number as limit, the length check is stopped only where its message can not be
written. -/
theorem lengthCheck_eq_error_iff
    {m : Machine}
    (hm : m.config.Numeric)
    {text : Text}
    {fault : Fault} :
    m.lengthCheck text = .error fault ↔ fault = .tooLong ∧ m.LengthUnwritten text := by
  obtain ⟨limit, hlimit⟩ := hm.maxBlockLength
  have hlt : ∀ n, m.config.maxBlockLength = .number (.whole n) →
      (limit.lt (.whole text.length) = true ↔ n < text.length) := by
    intro n hn
    rw [hn, Value.number?] at hlimit
    cases hlimit
    exact Number.whole_lt_whole_iff
  simp only [lengthCheck, hlimit, Check.ofFindings, LengthUnwritten]
  split_ifs with hlong hwritable
  · rw [List.all_cons, List.all_nil, Bool.and_true, longBlock_isWritable_iff] at hwritable
    refine ⟨fun h => (by cases h), ?_⟩
    rintro ⟨_, n, hn, _, hunwritable⟩
    rw [hwritable n hn] at hunwritable
    cases hunwritable
  · rw [List.all_cons, List.all_nil, Bool.and_true, longBlock_isWritable_iff] at hwritable
    simp only [not_forall, Bool.not_eq_true] at hwritable
    obtain ⟨n, hn, hunwritable⟩ := hwritable
    exact ⟨fun h => ⟨(Except.error.inj h).symm, n, hn, (hlt n hn).mp hlong, hunwritable⟩,
      fun h => by rw [h.1]⟩
  · refine ⟨fun h => (by cases h), ?_⟩
    rintro ⟨_, n, hn, hshort, _⟩
    exact absurd ((hlt n hn).mpr hshort) hlong
  · rename_i hall
    exact absurd rfl hall

/-- With numeric limits only the length check can be stopped after the start of balance
cutting. -/
theorem passes_or_length
    {m : Machine}
    (hm : m.config.Numeric)
    (raw : List Text)
    (p : Progress)
    (t : Turret)
    (signals : Signals)
    (index line : Int)
    (text : Text) :
    ∀ check ∈ m.routedChecks raw p t signals index line text,
      check.Passes ∨ check = m.lengthCheck text := by
  obtain ⟨speed, hspeed⟩ := hm.maxSpindleSpeed
  obtain ⟨feed, hfeed⟩ := hm.minFeedRate
  obtain ⟨lookahead, hlookahead⟩ := hm.releaseLookahead
  intro check hcheck
  rcases List.mem_append.mp hcheck with hend | hblock
  · refine Or.inl ?_
    unfold endChecks at hend
    split_ifs at hend
    · rcases List.mem_cons.mp hend with rfl | hend
      · simp only [releaseCheck, hlookahead]
        split_ifs <;> exact ⟨_, rfl⟩
      · rw [List.mem_singleton] at hend
        exact ⟨_, hend⟩
    · cases hend
  · simp only [blockChecks, List.mem_cons, List.not_mem_nil, or_false] at hblock
    rcases hblock with rfl | rfl | rfl | rfl
    · exact Or.inl ⟨_, rfl⟩
    · refine Or.inl ?_
      cases hrate : Block.feedRate? text with
      | none => exact ⟨[], by simp [feedCheck, hrate]⟩
      | some rate =>
          simp only [feedCheck, hrate, hfeed]
          split_ifs <;> exact ⟨_, rfl⟩
    · refine Or.inl ?_
      cases hdigits : Block.speedDigits? text with
      | none => exact ⟨[], by simp [speedCheck, hdigits]⟩
      | some digits =>
          cases hvalue : Block.wordValue? digits with
          | none => exact ⟨_, by simp only [speedCheck, exceedsSpeed, hdigits, hvalue]; rfl⟩
          | some value =>
              exact ⟨_, by simp only [speedCheck, exceedsSpeed, hdigits, hvalue, hspeed]; rfl⟩
    · exact Or.inr rfl

/-- With numeric limits a line of the selected turret is stopped by a message that can not be
written, and by nothing else. -/
theorem readRouted_fault_eq_some_iff
    {m : Machine}
    {raw : List Text}
    {p : Progress}
    {t : Turret}
    {signals : Signals}
    {index line : Int}
    {text : Text}
    {fault : Fault}
    (hm : m.config.Numeric)
    (hsignals : m.dialect.signals text = .ok signals) :
    (m.readRouted raw p t index line text).fault = some fault ↔
      fault = .tooLong ∧ (m.StartsUnwritten p t text ∨ m.LengthUnwritten text) := by
  rw [readRouted_fault m raw p t index line hsignals]
  cases hstart : m.startCheck p t signals line text with
  | error stopped =>
      obtain ⟨rfl, hunwritten⟩ := startCheck_eq_error_iff.mp hstart
      rw [Check.run, Option.some.injEq]
      exact ⟨fun h => ⟨h.symm, Or.inl hunwritten⟩, fun h => h.1.symm⟩
  | ok opening =>
      have hstarts : ¬ m.StartsUnwritten p t text := by
        intro hunwritten
        rw [startCheck_eq_error_iff.mpr ⟨rfl, hunwritten⟩] at hstart
        cases hstart
      have hlength : m.lengthCheck text ∈ m.routedChecks raw p t signals index line text := by
        simp [routedChecks, blockChecks]
      rw [Check.run, or_iff_right hstarts]
      exact (Check.run_eq_some_iff hlength
        (passes_or_length hm raw p t signals index line text)).trans (lengthCheck_eq_error_iff hm)

theorem Writable.not_startsUnwritten
    {m : Machine}
    (hm : m.Writable)
    (p : Progress)
    (t : Turret)
    (text : Text) :
    ¬ m.StartsUnwritten p t text :=
  fun h => h.2.2.2 ⟨hm.waitM, hm.waitP⟩

theorem Writable.not_lengthUnwritten
    {m : Machine}
    (hm : m.Writable)
    (text : Text) :
    ¬ m.LengthUnwritten text := by
  rintro ⟨limit, hlimit, _, hunwritable⟩
  rw [hm.maxBlockLength limit hlimit] at hunwritable
  cases hunwritable

/-- With known spindle names, the signals of every line can be read. -/
theorem exists_signals
    {d : Dialect}
    (hd : d.NamesSpindles)
    (text : Text) :
    ∃ signals, d.signals text = .ok signals := by
  cases hsignals : d.signals text with
  | ok signals => exact ⟨signals, rfl⟩
  | error e =>
      obtain ⟨name, _, hname⟩ := signals_error hsignals
      exact absurd hname (not_unknownSpindle hd text name)

/-- A line of the selected turret, stopped or not, keeps the selection. -/
theorem readRouted_selection
    (m : Machine)
    (raw : List Text)
    (p : Progress)
    (t : Turret)
    (index line : Int)
    (text : Text) :
    (m.readRouted raw p t index line text).progress.routing = p.routing ∧
      (m.readRouted raw p t index line text).progress.turret = p.turret := by
  rw [readRouted]
  split
  · exact ⟨rfl, rfl⟩
  · dsimp only
    split <;> exact ⟨rfl, rfl⟩

/-- With known turret names, a line selects a turret, stands before the first selection or
belongs to the selected turret. -/
theorem readLine_cases
    {m : Machine}
    {p : Progress}
    (hd : m.dialect.NamesTurrets)
    (hp : p.Coherent)
    (raw : List Text)
    (index line : Int)
    (text : Text) :
    (∃ t marker, m.dialect.selectedTurret? text = some (Turret.name t, marker) ∧
      m.readLine raw p index line text =
        readSelection { p with routing := true } t marker line text) ∨
    (m.dialect.selectedTurret? text = none ∧ p.turret = none ∧
      m.readLine raw p index line text = readCommon p line text) ∨
    (m.dialect.selectedTurret? text = none ∧ ∃ t, p.turret = some t ∧
      m.readLine raw p index line text = m.readRouted raw p t index line text) := by
  cases hselect : m.dialect.selectedTurret? text with
  | some entry =>
      obtain ⟨name, marker⟩ := entry
      obtain ⟨t, rfl⟩ := hd _ (List.mem_of_find?_eq_some hselect)
      exact Or.inl ⟨t, marker, rfl, readLine_of_select m raw p index line hselect⟩
  | none =>
      cases hturret : p.turret with
      | none =>
          have hread := readLine_of_no_turret m raw index line hp hselect hturret
          exact Or.inr (Or.inl ⟨rfl, rfl, hread⟩)
      | some t =>
          have hread := readLine_of_turret m raw index line hp hselect hturret
          exact Or.inr (Or.inr ⟨rfl, t, rfl, hread⟩)

/-- Whether a turret is selected and whether lines are routed stay in step, also where a line
is stopped. -/
theorem readLine_coherent
    {m : Machine}
    {p : Progress}
    (hd : m.dialect.NamesTurrets)
    (hp : p.Coherent)
    (raw : List Text)
    (index line : Int)
    (text : Text) :
    (m.readLine raw p index line text).progress.Coherent := by
  rcases readLine_cases hd hp raw index line text with
    ⟨t, marker, _, hread⟩ | ⟨_, _, hread⟩ | ⟨_, t, _, hread⟩
  · rw [hread]
    rfl
  · rw [hread, readCommon]
    split_ifs <;> exact hp
  · obtain ⟨hrouting, hturret⟩ := readRouted_selection m raw p t index line text
    rw [hread, Progress.Coherent, hrouting, hturret]
    exact hp

/-- With numeric limits and known turret names, a scan is stopped on a line of the selected
turret only, by an unknown spindle name or by a message that can not be written. -/
theorem fault_of_readLine
    {m : Machine}
    {raw : List Text}
    {p : Progress}
    {index line : Int}
    {text : Text}
    {fault : Fault}
    (hm : m.config.Numeric)
    (hd : m.dialect.NamesTurrets)
    (hp : p.Coherent)
    (hfault : (m.readLine raw p index line text).fault = some fault) :
    ∃ t, p.turret = some t ∧ m.dialect.selectedTurret? text = none ∧
      ((∃ name, m.dialect.UnknownSpindle text name ∧ fault = .unknownName ⟨.spindle, name⟩) ∨
        (fault = .tooLong ∧ (m.StartsUnwritten p t text ∨ m.LengthUnwritten text))) := by
  rcases readLine_cases hd hp raw index line text with
    ⟨t, marker, _, hread⟩ | ⟨_, _, hread⟩ | ⟨hselect, t, hturret, hread⟩
  · rw [hread] at hfault
    cases hfault
  · rw [hread, readCommon] at hfault
    split_ifs at hfault
  · rw [hread] at hfault
    refine ⟨t, hturret, hselect, ?_⟩
    cases hsignals : m.dialect.signals text with
    | error e =>
        obtain ⟨name, rfl, hname⟩ := signals_error hsignals
        exact Or.inl ⟨name, hname, by simpa [readRouted, hsignals] using hfault.symm⟩
    | ok signals => exact Or.inr ((readRouted_fault_eq_some_iff hm hsignals).mp hfault)

/-- The line asks for a message that can not be written. -/
def Unwritten (m : Machine) (p : Progress) (text : Text) : Prop :=
  m.dialect.selectedTurret? text = none ∧
    ∃ t, p.turret = some t ∧ (m.StartsUnwritten p t text ∨ m.LengthUnwritten text)

/-- With numeric limits and known names, a message that can not be written is what stops a
line, and nothing else does. -/
theorem readLine_fault_eq_some_iff
    {m : Machine}
    {raw : List Text}
    {p : Progress}
    {index line : Int}
    {text : Text}
    {fault : Fault}
    (hm : m.config.Numeric)
    (hturrets : m.dialect.NamesTurrets)
    (hspindles : m.dialect.NamesSpindles)
    (hp : p.Coherent) :
    (m.readLine raw p index line text).fault = some fault ↔
      fault = .tooLong ∧ m.Unwritten p text := by
  constructor
  · intro hfault
    obtain ⟨t, hturret, hselect, ⟨name, hname, _⟩ | ⟨rfl, hunwritten⟩⟩ :=
      fault_of_readLine hm hturrets hp hfault
    · exact absurd hname (not_unknownSpindle hspindles text name)
    · exact ⟨rfl, hselect, t, hturret, hunwritten⟩
  · rintro ⟨rfl, hselect, t, hturret, hunwritten⟩
    obtain ⟨signals, hsignals⟩ := exists_signals hspindles text
    rw [readLine_of_turret m raw index line hp hselect hturret]
    exact (readRouted_fault_eq_some_iff hm hsignals).mpr ⟨rfl, hunwritten⟩

/-- With short numbers every message can be written. -/
theorem Writable.not_unwritten
    {m : Machine}
    (hm : m.Writable)
    (p : Progress)
    (text : Text) :
    ¬ m.Unwritten p text := by
  rintro ⟨_, t, _, hstart | hlength⟩
  · exact hm.not_startsUnwritten p t text hstart
  · exact hm.not_lengthUnwritten text hlength

end Machine
end DualTurret
