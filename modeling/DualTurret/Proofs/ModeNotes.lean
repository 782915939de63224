import DualTurret.Proofs.Balance
import DualTurret.Proofs.Isolation
import DualTurret.Proofs.Scan.Moment
import Mathlib.Data.List.Chain

/-!
# Modes and the notes on them

A turret notes a change of its spindle, of milling and of cross machining, and notes nothing
else about them.  So its modes can be had in three ways: from the state that the scan
keeps, from the notes at its lines, and, for milling and cross machining, from the markers
on its lines.

The notes are read by their wording.  `Tracks` says that some changes lead from one value to
another with no change to the value that there was; `Modes.Noted` says it of each mode, and
is kept by every switch.
-/

namespace DualTurret

namespace Finding

/-- The switch that a finding tells of, where it is worded in one of two ways. -/
def switch? (on off : Text) (f : Finding) : Option Bool :=
  if f.message = on then some true else if f.message = off then some false else none

def milling? : Finding → Option Bool :=
  switch? "Milling mode activated".toList "Milling mode cancelled".toList

def cross? : Finding → Option Bool :=
  switch? "Cross machining control active".toList "Cross machining control cancelled".toList

def spindle? (f : Finding) : Option Spindle :=
  if "1st spindle selected (".toList.isPrefixOf f.message then some .first
  else if "2nd spindle selected (".toList.isPrefixOf f.message then some .second
  else none

end Finding

/-- The modes that notes tell of: the spindle of the last note on spindles, and what an odd
number of switches leaves on. -/
def Modes.ofNotes (notes : List Finding) : Modes where
  spindle := (notes.filterMap Finding.spindle?).getLast?
  milling := (notes.filterMap Finding.milling?).length % 2 = 1
  cross := (notes.filterMap Finding.cross?).length % 2 = 1

def Result.notesOf (r : Result) (t : Turret) : List Finding :=
  (Log.notes r.log).findingsAt (r.streams.get t)

/-- The notes at the lines of a turret up to a number. -/
def Result.notesUpTo (r : Result) (t : Turret) (number : Int) : List Finding :=
  (Log.notes (Log.upTo r.log number)).findingsAt (r.streams.get t)

namespace Dialect

/-- A line that the turret works on, up to the line of a number, holds a start marker, and no
line from it up to there holds a stop marker. -/
def SwitchedOn
    (d : Dialect)
    (streams : Stream → List ClassifiedLine)
    (t : Turret)
    (starts stops : List Text)
    (number : Int) :
    Prop :=
  ∃ start, d.WorkLine streams t start ∧ Block.holdsAny start.text starts = true ∧
    start.line ≤ number ∧
    ∀ stop, d.WorkLine streams t stop → Block.holdsAny stop.text stops = true →
      ¬ (start.line ≤ stop.line ∧ stop.line ≤ number)

/-- The modes that are switched on and off are those that the markers up to a line leave on. -/
structure Switched
    (d : Dialect)
    (streams : Stream → List ClassifiedLine)
    (t : Turret)
    (number : Int)
    (modes : Modes) : Prop where
  milling : modes.milling = true ↔
    d.SwitchedOn streams t d.millingStart d.millingStop number
  cross : modes.cross = true ↔ d.SwitchedOn streams t d.crossStart d.crossStop number

/-- The notes of a turret, its modes and the markers on its lines say the same. -/
structure ModeLaw (d : Dialect) (r : Result) (t : Turret) : Prop where
  milling : (false :: (r.notesOf t).filterMap Finding.milling?).IsChain (· ≠ ·)
  cross : (false :: (r.notesOf t).filterMap Finding.cross?).IsChain (· ≠ ·)
  spindle : ((r.notesOf t).filterMap Finding.spindle?).IsChain (· ≠ ·)
  lines : ∀ entry ∈ r.streams.get t,
    entry.modes = Modes.ofNotes (r.notesUpTo t entry.line) ∧
      d.Switched r.stream t entry.line entry.modes
  final : (r.finalStates.get t).modes = Modes.ofNotes (r.notesOf t) ∧
    d.Switched r.stream t r.totalLines (r.finalStates.get t).modes

end Dialect

/-- Some changes lead from a value to another, and none is to the value that there was. -/
structure Tracks {α : Type} (initial : α) (changes : List α) (current : α) : Prop where
  chain : (initial :: changes).IsChain (· ≠ ·)
  last : (initial :: changes).getLast? = some current

namespace Tracks

variable {α : Type} {initial current next : α} {changes : List α}

theorem start (initial : α) : Tracks initial [] initial :=
  ⟨List.isChain_singleton _, rfl⟩

/-- A change to another value is tracked. -/
theorem append
    (h : Tracks initial changes current)
    (hne : current ≠ next) :
    Tracks initial (changes ++ [next]) next where
  chain := by
    rw [← List.cons_append, List.isChain_append]
    refine ⟨h.chain, List.isChain_singleton _, ?_⟩
    intro a ha b hb
    rw [h.last] at ha
    cases ha
    cases hb
    exact hne
  last := by
    rw [← List.cons_append, List.getLast?_concat]

theorem of_cons
    {first : α}
    (h : Tracks initial (first :: changes) current) :
    initial ≠ first ∧ Tracks first changes current := by
  obtain ⟨hne, hchain⟩ := List.isChain_cons_cons.mp h.chain
  refine ⟨hne, hchain, ?_⟩
  rw [← h.last, List.getLast?_cons_cons]

/-- A flag is back where it was after an even number of changes. -/
theorem eq_iff_even
    {initial current : Bool}
    {changes : List Bool}
    (h : Tracks initial changes current) :
    current = initial ↔ changes.length % 2 = 0 := by
  induction changes generalizing initial with
  | nil =>
      have hlast : some initial = some current := h.last
      cases hlast
      simp
  | cons first changes ih =>
      obtain ⟨hne, hrest⟩ := h.of_cons
      have hback : current = initial ↔ ¬ current = first := by
        revert hne
        cases initial <;> cases first <;> cases current <;> decide
      rw [hback, ih hrest, List.length_cons]
      omega

/-- A switch that has changed an odd number of times is on. -/
theorem eq_decide_odd
    {current : Bool}
    {changes : List Bool}
    (h : Tracks false changes current) :
    current = decide (changes.length % 2 = 1) := by
  have heven := h.eq_iff_even
  cases current with
  | false =>
      have := heven.mp rfl
      simp [this]
  | true =>
      have hodd : ¬ changes.length % 2 = 0 := fun h => Bool.noConfusion (heven.mpr h)
      have : changes.length % 2 = 1 := by omega
      simp [this]

/-- Something that was not there at first is what was changed to last. -/
theorem eq_getLast?
    {current : Option α}
    {changes : List α}
    (h : Tracks none (changes.map some) current) :
    current = changes.getLast? := by
  have hlast := h.last
  rw [List.getLast?_cons, List.getLast?_map] at hlast
  cases hchanges : changes.getLast? with
  | none => simpa [hchanges] using hlast.symm
  | some last => simpa [hchanges] using hlast.symm

end Tracks

/-- Where there is a change, it is to another value. -/
def Follows
    {α : Type}
    (before after : α) :
    Option α → Prop
  | none => after = before
  | some value => after = value ∧ before ≠ value

theorem Tracks.note
    {α : Type}
    {initial before after : α}
    {read : Finding → Option α}
    {notes : List Finding}
    {f : Finding}
    (h : Tracks initial (notes.filterMap read) before)
    (hf : Follows before after (read f)) :
    Tracks initial ((notes ++ [f]).filterMap read) after := by
  cases hread : read f with
  | none =>
      rw [hread] at hf
      rw [List.filterMap_append, List.filterMap_cons_none hread, hf]
      simpa using h
  | some value =>
      rw [hread] at hf
      obtain ⟨rfl, hne⟩ := hf
      rw [List.filterMap_append, List.filterMap_cons_some hread]
      exact h.append hne

namespace Modes

/-- The notes have followed each mode from the start. -/
structure Noted (modes : Modes) (notes : List Finding) : Prop where
  spindle : Tracks none (notes.filterMap fun f => f.spindle?.map some) modes.spindle
  milling : Tracks false (notes.filterMap Finding.milling?) modes.milling
  cross : Tracks false (notes.filterMap Finding.cross?) modes.cross

variable {modes after : Modes} {notes : List Finding}

namespace Noted

theorem start : Noted {} [] :=
  ⟨Tracks.start none, Tracks.start false, Tracks.start false⟩

theorem note
    {f : Finding}
    (h : modes.Noted notes)
    (hspindle : Follows modes.spindle after.spindle (f.spindle?.map some))
    (hmilling : Follows modes.milling after.milling f.milling?)
    (hcross : Follows modes.cross after.cross f.cross?) :
    after.Noted (notes ++ [f]) :=
  ⟨h.spindle.note hspindle, h.milling.note hmilling, h.cross.note hcross⟩

/-- The modes are what the notes say. -/
theorem eq_ofNotes (h : modes.Noted notes) : modes = ofNotes notes := by
  have hspindle := h.spindle
  rw [← List.map_filterMap] at hspindle
  have hparts : modes.spindle = (ofNotes notes).spindle ∧
      modes.milling = (ofNotes notes).milling ∧ modes.cross = (ofNotes notes).cross :=
    ⟨hspindle.eq_getLast?, h.milling.eq_decide_odd, h.cross.eq_decide_odd⟩
  cases modes
  cases hparts.1
  cases hparts.2.1
  cases hparts.2.2
  rfl

theorem selectSpindle
    (h : modes.Noted notes)
    (asked : Option (Spindle × Text)) :
    (modes.selectSpindle asked).1.Noted (notes ++ (modes.selectSpindle asked).2) := by
  cases asked with
  | none => simpa [Modes.selectSpindle] using h
  | some asked =>
      obtain ⟨spindle, marker⟩ := asked
      simp only [Modes.selectSpindle]
      split_ifs with hsame
      · simpa using h
      · cases spindle with
        | first => exact h.note ⟨rfl, hsame⟩ rfl rfl
        | second => exact h.note ⟨rfl, hsame⟩ rfl rfl

theorem startMilling
    (h : modes.Noted notes)
    (asked : Bool) :
    (modes.startMilling asked).1.Noted (notes ++ (modes.startMilling asked).2) := by
  unfold Modes.startMilling
  split_ifs with hchange
  · exact h.note rfl ⟨rfl, by grind⟩ rfl
  · simpa using h

theorem stopMilling
    (h : modes.Noted notes)
    (asked : Bool) :
    (modes.stopMilling asked).1.Noted (notes ++ (modes.stopMilling asked).2) := by
  unfold Modes.stopMilling
  split_ifs with hchange
  · exact h.note rfl ⟨rfl, by grind⟩ rfl
  · simpa using h

theorem startCross
    (h : modes.Noted notes)
    (asked : Bool) :
    (modes.startCross asked).1.Noted (notes ++ (modes.startCross asked).2) := by
  unfold Modes.startCross
  split_ifs with hchange
  · exact h.note rfl rfl ⟨rfl, by grind⟩
  · simpa using h

theorem stopCross
    (h : modes.Noted notes)
    (asked : Bool) :
    (modes.stopCross asked).1.Noted (notes ++ (modes.stopCross asked).2) := by
  unfold Modes.stopCross
  split_ifs with hchange
  · exact h.note rfl rfl ⟨rfl, by grind⟩
  · simpa using h

/-- Following the signals of a line is five switches, one after the other. -/
theorem follow
    (h : modes.Noted notes)
    (signals : Signals) :
    (modes.follow signals).1.Noted (notes ++ (modes.follow signals).2) := by
  have hall := ((((h.selectSpindle signals.spindle).startMilling
    signals.millingStart).stopMilling signals.millingStop).startCross
      signals.crossStart).stopCross signals.crossStop
  simpa only [Modes.follow, List.append_assoc] using hall

end Noted

/-- Following signals switches each mode on before it switches it off. -/
theorem follow_modes
    (modes : Modes)
    (signals : Signals) :
    (modes.follow signals).1.milling =
        ((modes.milling || signals.millingStart) && !signals.millingStop) ∧
      (modes.follow signals).1.cross =
        ((modes.cross || signals.crossStart) && !signals.crossStop) := by
  have hselect : (modes.selectSpindle signals.spindle).1.milling = modes.milling ∧
      (modes.selectSpindle signals.spindle).1.cross = modes.cross := by
    cases signals.spindle with
    | none => exact ⟨rfl, rfl⟩
    | some asked =>
        simp only [selectSpindle]
        split_ifs <;> exact ⟨rfl, rfl⟩
  simp only [follow, startMilling, stopMilling, startCross, stopCross]
  grind

end Modes

namespace Finding

theorem severity_of_mode {f : Finding} (h : f.rule = .mode) : f.severity = .info := by
  cases f with
  | spindleSelected => rfl
  | millingOn => rfl
  | millingOff => rfl
  | crossOn => rfl
  | crossOff => rfl
  | _ => cases h

/-- A note from another rule tells of no mode. -/
theorem tells_no_mode
    {f : Finding}
    (hinfo : f.severity = .info)
    (hmode : f.rule ≠ .mode)
    (hremark : f.rule ≠ .remark) :
    f.spindle? = none ∧ f.milling? = none ∧ f.cross? = none := by
  cases f with
  | turretSelected turret marker => cases turret <;> exact ⟨rfl, rfl, rfl⟩
  | balanceStarts master => exact ⟨rfl, rfl, rfl⟩
  | balanceEnds => exact ⟨rfl, rfl, rfl⟩
  | balanceSpeed digits => exact ⟨rfl, rfl, rfl⟩
  | remark => exact absurd rfl hremark
  | spindleSelected => exact absurd rfl hmode
  | millingOn => exact absurd rfl hmode
  | millingOff => exact absurd rfl hmode
  | crossOn => exact absurd rfl hmode
  | crossOff => exact absurd rfl hmode
  | _ => cases hinfo

end Finding

namespace Log

/-- The notes at some lines are the notes among the findings there. -/
theorem findingsAt_notes
    (log : Log)
    (entries : List ClassifiedLine) :
    (Log.notes log).findingsAt entries =
      (log.findingsAt entries).filter fun f => f.severity = .info := by
  unfold findingsAt notes withSeverity
  rw [List.filter_map, List.filter_comm]
  rfl

/-- Of the notes, those on modes are read. -/
theorem filterMap_notes
    {α : Type}
    {read : Finding → Option α}
    (hread : ∀ f : Finding, f.severity = .info → f.rule ≠ .mode → f.rule ≠ .remark →
      read f = none)
    {log : Log}
    (hlog : ∀ d ∈ log, d.finding.rule ≠ .remark)
    (entries : List ClassifiedLine) :
    ((Log.notes log).findingsAt entries).filterMap read =
      ((log.findingsAt entries).filter fun f => f.rule = .mode).filterMap read := by
  rw [findingsAt_notes, List.filterMap_filter, List.filterMap_filter]
  refine List.filterMap_congr ?_
  intro f hf
  obtain ⟨d, hd, rfl⟩ := List.mem_map.mp hf
  have hremark := hlog d (List.mem_of_mem_filter hd)
  by_cases hmode : d.finding.rule = .mode
  · simp [hmode, Finding.severity_of_mode hmode]
  · by_cases hinfo : d.finding.severity = .info
    · simp [hmode, hinfo, hread _ hinfo hmode hremark]
    · simp [hmode, hinfo]

end Log

namespace Machine

variable {m : Machine} {raw done : List Text} {s : Trace}

/-- The notes of a replay have followed its modes. -/
theorem replay_noted
    (m : Machine)
    (texts : List Text) :
    (m.replay texts).modes.Noted (m.replay texts).modeNotes := by
  induction texts using List.reverseRecOn with
  | nil => exact Modes.Noted.start
  | append_singleton texts text ih =>
      rw [replay, List.foldl_concat, ← replay]
      unfold replayLine
      split
      · exact ih.follow _
      · exact ih

/-- The notes at the lines of a turret have followed its modes. -/
theorem Reaches.noted
    (h : Reaches m raw done s)
    (t : Turret) :
    (s.progress.states.get t).modes.Noted
      ((Log.notes s.log).findingsAt (s.stream (.turret t))) := by
  have hview : (s.view t).modes.Noted (s.view t).modeNotes := by
    rw [h.view_eq_replay]
    exact m.replay_noted _
  have hremark : ∀ d ∈ s.log, d.finding.rule ≠ .remark := fun d hd => h.rule_ne_remark hd
  constructor
  · rw [Log.filterMap_notes _ hremark]
    · exact hview.spindle
    · intro f hinfo hmode hremark
      rw [(Finding.tells_no_mode hinfo hmode hremark).1]
      rfl
  · rw [Log.filterMap_notes _ hremark]
    · exact hview.milling
    · intro f hinfo hmode hremark
      exact (Finding.tells_no_mode hinfo hmode hremark).2.1
  · rw [Log.filterMap_notes _ hremark]
    · exact hview.cross
    · intro f hinfo hmode hremark
      exact (Finding.tells_no_mode hinfo hmode hremark).2.2

end Machine

namespace Dialect

variable {d : Dialect} {streams streams' : Stream → List ClassifiedLine} {t t' : Turret}
  {entry : ClassifiedLine} {starts stops : List Text} {number : Int}

theorem SwitchedOn.congr
    (hwork : ∀ entry, d.WorkLine streams' t entry ↔ d.WorkLine streams t entry) :
    d.SwitchedOn streams' t starts stops number ↔ d.SwitchedOn streams t starts stops number := by
  simp only [SwitchedOn, hwork]

/-- One more line that the turret works on: its stop marker counts, also against its own
start marker. -/
theorem Adds.switchedOn_iff
    (h : d.Adds streams streams' t entry)
    (hnumber : entry.line ≤ number) :
    d.SwitchedOn streams' t starts stops number ↔
      (Block.holdsAny entry.text starts = true ∨ d.SwitchedOn streams t starts stops number) ∧
        Block.holdsAny entry.text stops = false := by
  have hentry : d.WorkLine streams' t entry := (h.work t entry).mpr (Or.inr ⟨rfl, rfl⟩)
  have hold : ∀ {other}, d.WorkLine streams t other → d.WorkLine streams' t other :=
    fun hother => (h.work t _).mpr (Or.inl hother)
  constructor
  · rintro ⟨start, hwork, hstart, hle, hopen⟩
    have hstop : ¬ Block.holdsAny entry.text stops = true := fun hstop =>
      hopen entry hentry hstop ⟨h.line_le hwork, hnumber⟩
    refine ⟨?_, by simpa using hstop⟩
    rcases (h.work t start).mp hwork with hbefore | ⟨_, rfl⟩
    · exact Or.inr ⟨start, hbefore, hstart, hle, fun stop hstop => hopen stop (hold hstop)⟩
    · exact Or.inl hstart
  · rintro ⟨hstart | ⟨start, hwork, hstart, hle, hopen⟩, hstop⟩
    · refine ⟨entry, hentry, hstart, hnumber, ?_⟩
      rintro stop hwork hmarker ⟨hfrom, _⟩
      rcases (h.work t stop).mp hwork with hbefore | ⟨_, rfl⟩
      · have hlt := h.last t stop hbefore
        omega
      · rw [hstop] at hmarker
        cases hmarker
    · refine ⟨start, hold hwork, hstart, hle, ?_⟩
      intro stop hstopWork hmarker
      rcases (h.work t stop).mp hstopWork with hbefore | ⟨_, rfl⟩
      · exact hopen stop hbefore hmarker
      · rw [hstop] at hmarker
        cases hmarker

theorem Adds.switchedOn_iff_of_ne
    (h : d.Adds streams streams' t' entry)
    (hne : t' ≠ t) :
    d.SwitchedOn streams' t starts stops number ↔ d.SwitchedOn streams t starts stops number := by
  refine SwitchedOn.congr ?_
  intro other
  rw [h.work, or_iff_left]
  rintro ⟨rfl, _⟩
  exact hne rfl

/-- A mode that start markers switch on and stop markers switch off. -/
structure Flag (d : Dialect) (flag : Modes → Bool) (starts stops : List Text) : Prop where
  start : flag {} = false
  follow : ∀ modes text signals, d.signals text = .ok signals →
    flag (modes.follow signals).1 =
      ((flag modes || Block.holdsAny text starts) && !Block.holdsAny text stops)

/-- The signals of a line are those of the markers that it holds. -/
theorem exists_eq_of_signals
    {text : Text}
    {signals : Signals}
    (h : d.signals text = .ok signals) :
    ∃ spindle, signals =
      { spindle
        millingStart := Block.holdsAny text d.millingStart
        millingStop := Block.holdsAny text d.millingStop
        crossStart := Block.holdsAny text d.crossStart
        crossStop := Block.holdsAny text d.crossStop } := by
  unfold Dialect.signals at h
  split at h
  · cases h
  · cases h
    exact ⟨_, rfl⟩

/-- The milling markers switch milling. -/
theorem flag_milling (d : Dialect) : d.Flag Modes.milling d.millingStart d.millingStop where
  start := rfl
  follow := by
    intro modes text signals hsignals
    obtain ⟨_, rfl⟩ := exists_eq_of_signals hsignals
    exact (modes.follow_modes _).1

/-- The cross machining markers switch cross machining. -/
theorem flag_cross (d : Dialect) : d.Flag Modes.cross d.crossStart d.crossStop where
  start := rfl
  follow := by
    intro modes text signals hsignals
    obtain ⟨_, rfl⟩ := exists_eq_of_signals hsignals
    exact (modes.follow_modes _).2

end Dialect

namespace Machine

variable {m : Machine} {raw done : List Text} {s : Trace}

/-- A mode is on in the state of a turret where the markers leave it on.  The number is free above
the lines read, so that a line passed over changes nothing. -/
theorem Reaches.flag_iff
    {flag : Modes → Bool}
    {starts stops : List Text}
    (hflag : m.dialect.Flag flag starts stops)
    (h : Reaches m raw done s)
    (t : Turret) :
    ∀ number, (done.length : Int) ≤ number →
      (flag (s.progress.states.get t).modes = true ↔
        m.dialect.SwitchedOn s.stream t starts stops number) := by
  induction h with
  | start =>
      intro number _
      have hoff : flag (({} : Trace).progress.states.get t).modes = false := by
        cases t <;> exact hflag.start
      rw [hoff]
      constructor
      · intro hon
        cases hon
      · rintro ⟨start, ⟨hmem, _⟩, _⟩
        cases hmem
  | skip _ _ ih =>
      intro number hnumber
      rw [List.length_append] at hnumber
      exact ih number (by omega)
  | @advance done s line outcome before _ step ih =>
      intro number hnumber
      rw [List.length_append, List.length_singleton] at hnumber
      have hbefore := ih number (by omega)
      rcases before.idle_or_adds step with
        ⟨_, hstates, hwork⟩ | ⟨t', signals, rfl, hsignals, hadds⟩
      · rw [Dialect.SwitchedOn.congr (hwork t), ← hbefore]
        show flag (outcome.progress.states.get t).modes = true ↔ _
        rw [hstates]
      · by_cases ht : t' = t
        · subst ht
          have hnext : ((m.routedProgress s.progress t' signals (done.length + 1)
              (Text.trim line)).states.get t').modes =
                ((s.progress.states.get t').modes.follow signals).1 := by
            rw [routedProgress_state]
            rfl
          rw [hadds.switchedOn_iff (by exact_mod_cast hnumber), ← hbefore]
          show flag ((m.routedProgress s.progress t' signals (done.length + 1)
              (Text.trim line)).states.get t').modes = true ↔
            (Block.holdsAny (Text.trim line) starts = true ∨ _) ∧
              Block.holdsAny (Text.trim line) stops = false
          rw [hnext, hflag.follow _ _ _ hsignals]
          simp [or_comm]
        · rw [hadds.switchedOn_iff_of_ne ht, ← hbefore]
          show flag ((s.progress.states.set t' _).get t).modes = true ↔ _
          rw [PerTurret.get_set_of_ne _ ht]

/-- The modes of a turret are those that the markers of its lines leave on. -/
theorem Reaches.switched
    (h : Reaches m raw done s)
    (t : Turret) :
    m.dialect.Switched s.stream t done.length (s.progress.states.get t).modes :=
  ⟨h.flag_iff m.dialect.flag_milling t _ (Int.le_refl _),
    h.flag_iff m.dialect.flag_cross t _ (Int.le_refl _)⟩

/-- A line shows the modes that its turret had when it was read. -/
theorem Advance.entry_modes
    {p : Progress}
    {index line : Int}
    {text : Text}
    {outcome : Outcome}
    (h : Advance m raw p index line text outcome)
    {t : Turret}
    {entry : ClassifiedLine}
    (hplaced : outcome.placed = some (.turret t, entry)) :
    entry.modes = (outcome.progress.states.get t).modes := by
  cases h with
  | header => cases hplaced
  | common => cases hplaced
  | select =>
      cases hplaced
      rfl
  | routed =>
      cases hplaced
      rfl

/-- A line shows the modes that its turret had right after it. -/
theorem Reaches.exists_modes
    (h : Reaches m raw done s)
    {t : Turret}
    {entry : ClassifiedLine}
    (hentry : entry ∈ s.stream (.turret t)) :
    ∃ first s₀, Reaches m raw first s₀ ∧ first.length = entry.line ∧
      s.Passed s₀ entry.line ∧ entry.modes = (s₀.progress.states.get t).modes := by
  obtain ⟨first, line, s₀, outcome, hread, hplaced⟩ := h.exists_readAt_of_mem hentry
  have hline := hread.step.placed_line hplaced
  refine ⟨first ++ [line], _, hread.after, ?_, ?_, hread.step.entry_modes hplaced⟩
  · rw [hline, List.length_append, List.length_singleton]
    rfl
  · rw [hline]
    exact hread.passed

end Machine

namespace Trace.Passed

variable {s s₀ : Trace} {number : Int}

/-- The notes of a turret up to a line are those that were there after the line. -/
theorem notes_eq
    (h : s.Passed s₀ number)
    (stream : Stream) :
    (Log.notes (Log.upTo s.log number)).findingsAt (s.stream stream) =
      (Log.notes s₀.log).findingsAt (s₀.stream stream) := by
  rw [h.log]
  unfold Log.findingsAt
  congr 1
  refine List.filter_congr ?_
  intro d hd
  have hd : d ∈ Log.upTo s.log number := by
    rw [h.log]
    exact List.mem_of_mem_filter hd
  have hline : d.line ≤ number := of_decide_eq_true (List.mem_filter.mp hd).2
  rw [Bool.eq_iff_iff, List.any_eq_true, List.any_eq_true]
  refine exists_congr fun entry => ?_
  rw [h.mem_stream_iff, and_assoc, decide_eq_true_eq]
  refine and_congr_right fun _ => ?_
  omega

theorem switchedOn_iff
    (h : s.Passed s₀ number)
    {d : Dialect}
    {t : Turret}
    {starts stops : List Text} :
    d.SwitchedOn s.stream t starts stops number ↔
      d.SwitchedOn s₀.stream t starts stops number := by
  simp only [Dialect.SwitchedOn, Dialect.WorkLine, h.mem_stream_iff]
  grind

theorem switched
    (h : s.Passed s₀ number)
    {d : Dialect}
    {t : Turret}
    {modes : Modes}
    (hswitched : d.Switched s₀.stream t number modes) :
    d.Switched s.stream t number modes :=
  ⟨hswitched.milling.trans h.switchedOn_iff.symm, hswitched.cross.trans h.switchedOn_iff.symm⟩

end Trace.Passed

namespace Machine

variable {m : Machine} {raw done : List Text} {s : Trace}

/-- At each line of a turret, the notes and the markers up to it tell of its modes. -/
theorem Reaches.modes_of_entry
    (h : Reaches m raw done s)
    {t : Turret}
    {entry : ClassifiedLine}
    (hentry : entry ∈ s.stream (.turret t)) :
    entry.modes = Modes.ofNotes
        ((Log.notes (Log.upTo s.log entry.line)).findingsAt (s.stream (.turret t))) ∧
      m.dialect.Switched s.stream t entry.line entry.modes := by
  obtain ⟨first, s₀, hreach, hlength, hpassed, hmodes⟩ := h.exists_modes hentry
  have hswitched := hreach.switched t
  rw [hlength] at hswitched
  rw [hpassed.notes_eq, hmodes]
  exact ⟨(hreach.noted t).eq_ofNotes, hpassed.switched hswitched⟩

/-- Every change of a turret's modes is noted once, so that the notes and the markers at its
lines tell its modes at each of them and at the end. -/
theorem analyze_notes_modes
    (m : Machine)
    (program : Text) :
    (m.config.Numeric → m.Writable → m.dialect.NamesTurrets → m.dialect.NamesSpindles →
        ∃ r, m.analyze program = .ok r) ∧
      ∀ r, m.analyze program = .ok r → ∀ t, m.dialect.ModeLaw r t := by
  refine ⟨fun hconfig hwritable hturrets hspindles =>
    analyze_ok hconfig hwritable hturrets hspindles program, ?_⟩
  intro r hr t
  obtain ⟨s, hreach, rfl⟩ := exists_reaches hr
  have hstream : (s.toResult (Text.lines program)).streams.get t = s.stream (.turret t) :=
    congrFun (Trace.toResult_stream s _) (.turret t)
  have hnoted := hreach.noted t
  have hspindle := hnoted.spindle.chain
  rw [← List.map_filterMap] at hspindle
  constructor
  · rw [Result.notesOf, hstream]
    exact hnoted.milling.chain
  · rw [Result.notesOf, hstream]
    exact hnoted.cross.chain
  · rw [Result.notesOf, hstream]
    refine (List.isChain_map some).mp hspindle.tail |>.imp ?_
    intro a b hne heq
    exact hne (congrArg some heq)
  · intro entry hentry
    rw [Result.notesUpTo, Trace.toResult_stream, hstream]
    rw [hstream] at hentry
    exact hreach.modes_of_entry hentry
  · rw [Result.notesOf, Trace.toResult_stream, hstream]
    exact ⟨hnoted.eq_ofNotes, hreach.switched t⟩

/-- Markers on selections do not count, a start that is on already makes no note, and a start
and a stop on one line make two. -/
theorem analyze_notes_interleaved_modes :
    ∃ r, (Machine.ofPreset Config.defaultPreset).analyze
        "G109 L1\nM901 M200\nM200\nG109 L2 M200\nM200 M205\nG109 L1 M205\nM902 G110\nM205".toList =
          .ok r ∧
      (∀ t, Dialect.integrex.ModeLaw r t) ∧
      (r.notesOf .upper).filterMap Finding.milling? = [true, false] ∧
      (r.notesOf .upper).filterMap Finding.spindle? = [.first, .second] ∧
      (r.notesOf .lower).filterMap Finding.milling? = [true, false] ∧
      r.streams.upper.map (fun entry => entry.modes.milling) =
        [false, true, true, true, true, false] ∧
      r.finalStates.upper.modes = ⟨some .second, false, true⟩ := by
  obtain ⟨hok, hlaw⟩ := analyze_notes_modes (Machine.ofPreset Config.defaultPreset)
    "G109 L1\nM901 M200\nM200\nG109 L2 M200\nM200 M205\nG109 L1 M205\nM902 G110\nM205".toList
  obtain ⟨r, hr⟩ := hok (Config.numeric_preset _) (Machine.writable_ofPreset _)
    Dialect.integrex_namesTurrets Dialect.integrex_namesSpindles
  refine ⟨r, hr, hlaw r hr, ?_⟩
  have hnotes : ((Machine.ofPreset Config.defaultPreset).analyze
      "G109 L1\nM901 M200\nM200\nG109 L2 M200\nM200 M205\nG109 L1 M205\nM902 G110\nM205".toList
        ).toOption.any (fun r => (r.notesOf .upper).filterMap Finding.milling? = [true, false] ∧
          (r.notesOf .upper).filterMap Finding.spindle? = [.first, .second] ∧
          (r.notesOf .lower).filterMap Finding.milling? = [true, false] ∧
          r.streams.upper.map (fun entry => entry.modes.milling) =
            [false, true, true, true, true, false] ∧
          r.finalStates.upper.modes = ⟨some .second, false, true⟩) = true := by
    decide +kernel
  rw [hr] at hnotes
  exact of_decide_eq_true hnotes

end Machine
end DualTurret
