import DualTurret.Proofs.Extension
import Mathlib.Data.List.Basic

/-!
# Scans under other names

A scan handles line numbers and turrets as names: it copies them into entries, wait
histories, sessions and findings, and asks of two turrets only whether they are opposite.
So a scan in which all lines have other numbers, or in which the two turrets have changed
places, is the same scan under other names.  The raw lines alone are not reached by a
renaming, and only the lookahead at the end of balance cutting sees them.

Main facts:
* `Machine.readLine_renamed`: the step under other names is the step, renamed;
* `Machine.readLines_renamed`: so is a run, also where lines that are passed over have been
  put between the others.
-/

namespace DualTurret

/-- The name of the other turret for the name of a turret; any other name stays. -/
def Turret.exchangedName (name : Text) : Text :=
  if name = Turret.upper.name then Turret.lower.name
  else if name = Turret.lower.name then Turret.upper.name
  else name

/-- Other names for what a scan handles: other line numbers, and the two turrets either
as they are or exchanged. -/
structure Renaming where
  number : Int → Int := id
  exchanges : Bool := false

namespace Renaming

variable (ν : Renaming)

def turret (t : Turret) : Turret :=
  if ν.exchanges then t.opposite else t

/-- The name of a turret in a dialect under its other name. -/
def turretName (name : Text) : Text :=
  if ν.exchanges then Turret.exchangedName name else name

/-- What belongs to each turret, under the other names of the turrets. -/
def pair {α : Type} (both : PerTurret α) : PerTurret α :=
  if ν.exchanges then ⟨both.lower, both.upper⟩ else both

def stream : Stream → Stream
  | .common => .common
  | .turret t => .turret (ν.turret t)

def wait (entry : WaitEntry) : WaitEntry :=
  { entry with line := ν.number entry.line }

/-- A turret's state with the other numbers of its wait codes. -/
def state (s : TurretState) : TurretState :=
  { s with waits := s.waits.map ν.wait }

/-- A session under the other names of its master and of the line that began it. -/
def session (s : BalanceSession) : BalanceSession :=
  { s with master := ν.turret s.master, startLine := ν.number s.startLine }

def progress (p : Progress) : Progress where
  routing := p.routing
  turret := p.turret.map ν.turret
  session := p.session.map ν.session
  states := ν.pair (p.states.map ν.state)

/-- A finding under the other name of the turret that it is about. -/
def finding : Finding → Finding
  | .slaveWaitMissing slave => .slaveWaitMissing (ν.turret slave)
  | .turretSelected t marker => .turretSelected (ν.turret t) marker
  | .balanceStarts master => .balanceStarts (ν.turret master)
  | f => f

def diagnostic (d : Diagnostic) : Diagnostic :=
  ⟨ν.number d.line, ν.finding d.finding⟩

def entry (e : ClassifiedLine) : ClassifiedLine :=
  { e with line := ν.number e.line }

def placed (place : Stream × ClassifiedLine) : Stream × ClassifiedLine :=
  (ν.stream place.1, ν.entry place.2)

def outcome (o : Outcome) : Outcome where
  progress := ν.progress o.progress
  findings := o.findings.map ν.finding
  placed := o.placed.map ν.placed
  fault := o.fault

def reading (r : Reading) : Reading where
  line := ν.number r.line
  findings := r.findings.map ν.finding
  placed := r.placed.map ν.placed

def scan (s : Trace) : Trace where
  progress := ν.progress s.progress
  history := s.history.map ν.reading

/-- A dialect under the other names of the turrets. -/
def dialect (d : Dialect) : Dialect :=
  { d with turretSelect := d.turretSelect.map fun entry => (ν.turretName entry.1, entry.2) }

def machine (m : Machine) : Machine :=
  { m with dialect := ν.dialect m.dialect }

section Turrets

theorem turret_opposite (t : Turret) : ν.turret t.opposite = (ν.turret t).opposite := by
  unfold turret
  split_ifs <;> rfl

/-- Different turrets have different other names. -/
theorem turret_injective {t u : Turret} (h : ν.turret t = ν.turret u) : t = u := by
  unfold turret at h
  split_ifs at h
  · cases t <;> cases u <;> first | rfl | cases h
  · exact h

@[simp] theorem get_pair
    {α : Type}
    (both : PerTurret α)
    (t : Turret) :
    (ν.pair both).get (ν.turret t) = both.get t := by
  unfold pair turret
  split_ifs
  · cases t <;> rfl
  · rfl

theorem pair_set
    {α : Type}
    (both : PerTurret α)
    (t : Turret)
    (a : α) :
    ν.pair (both.set t a) = (ν.pair both).set (ν.turret t) a := by
  unfold pair turret
  split_ifs
  · cases t <;> rfl
  · rfl

theorem ofName_turretName
    (name : Text) :
    Turret.ofName (ν.turretName name) = (Turret.ofName name).map ν.turret := by
  unfold turretName turret
  split_ifs
  · by_cases hupper : name = Turret.upper.name
    · subst hupper
      rfl
    · by_cases hlower : name = Turret.lower.name
      · subst hlower
        rfl
      · simp only [Turret.exchangedName, Turret.ofName, if_neg hupper, if_neg hlower]
        rfl
  · cases Turret.ofName name <;> rfl

/-- A renamed dialect selects the turret of the other name. -/
theorem selectedTurret?
    (d : Dialect)
    (text : Text) :
    (ν.dialect d).selectedTurret? text =
      (d.selectedTurret? text).map fun held => (ν.turretName held.1, held.2) := by
  simp only [Dialect.selectedTurret?, Block.heldName?, dialect, List.find?_map]
  rfl

end Turrets

section Views

theorem states_get
    (states : PerTurret TurretState)
    (t : Turret) :
    (ν.pair (states.map ν.state)).get (ν.turret t) = ν.state (states.get t) := by
  rw [get_pair]
  cases t <;> rfl

theorem lastWait? (s : TurretState) : (ν.state s).lastWait? = s.lastWait?.map ν.wait := by
  rw [TurretState.lastWait?, TurretState.lastWait?, state, List.getLast?_map]

theorem inBalance (p : Progress) : (ν.progress p).inBalance = p.inBalance := by
  unfold Progress.inBalance progress
  cases p.session <;> rfl

theorem stream_injective {a b : Stream} (h : ν.stream a = ν.stream b) : a = b := by
  cases a with
  | common =>
      cases b with
      | common => rfl
      | turret u => cases h
  | turret t =>
      cases b with
      | common => cases h
      | turret u => rw [ν.turret_injective (Stream.turret.inj h)]

/-- The streams of a renamed scan are the renamed streams. -/
theorem scan_stream
    (s : Trace)
    (stream : Stream) :
    (ν.scan s).stream (ν.stream stream) = (s.stream stream).map ν.entry := by
  simp only [Trace.stream, Stream.lines, scan, List.filterMap_map, List.map_filterMap]
  congr 1
  funext r
  cases hplaced : r.placed with
  | none => simp [Reading.lineIn?, reading, hplaced]
  | some place =>
      by_cases heq : place.1 = stream
      · simp [Reading.lineIn?, reading, placed, hplaced, heq]
      · have hne : ν.stream place.1 ≠ ν.stream stream := fun h => heq (ν.stream_injective h)
        simp [Reading.lineIn?, reading, placed, hplaced, heq, hne]

/-- The log of a renamed scan is the renamed log. -/
theorem scan_log (s : Trace) : (ν.scan s).log = s.log.map ν.diagnostic := by
  simp only [Trace.log, Log.ofHistory, scan, List.flatMap_map, List.map_flatMap]
  congr 1
  funext r
  simp only [Reading.diagnostics, reading, List.map_map]
  rfl

theorem finding_severity (f : Finding) : (ν.finding f).severity = f.severity := by
  cases f <;> rfl

theorem finding_isWritable (f : Finding) : (ν.finding f).isWritable = f.isWritable := by
  cases f <;> rfl

theorem ofFindings_map
    (found : List Finding) :
    Check.ofFindings (found.map ν.finding) =
      (Check.ofFindings found).map (List.map ν.finding) := by
  have hall : (found.map ν.finding).all Finding.isWritable = found.all Finding.isWritable := by
    rw [List.all_map]
    exact congrArg found.all (funext ν.finding_isWritable)
  unfold Check.ofFindings
  rw [hall]
  split_ifs <;> rfl

theorem withSeverity_map
    (log : Log)
    (severity : Severity) :
    Log.withSeverity (log.map ν.diagnostic) severity =
      (Log.withSeverity log severity).map ν.diagnostic := by
  rw [Log.withSeverity, Log.withSeverity, List.filter_map]
  refine congrArg _ (List.filter_congr ?_)
  intro d _
  show decide ((ν.finding d.finding).severity = severity) = decide (d.finding.severity = severity)
  rw [finding_severity]

/-- Only the rules about selections and about the start of balance cutting name a turret. -/
theorem finding_eq_self
    {f : Finding}
    (hselect : f.rule ≠ .selection)
    (hstart : f.rule ≠ .balanceStart) :
    ν.finding f = f := by
  cases f with
  | slaveWaitMissing => exact absurd rfl hstart
  | turretSelected => exact absurd rfl hselect
  | balanceStarts => exact absurd rfl hstart
  | _ => rfl

theorem map_finding_eq_self
    {found : List Finding}
    (h : ∀ f ∈ found, f.rule ≠ .selection ∧ f.rule ≠ .balanceStart) :
    found.map ν.finding = found := by
  conv_rhs => rw [← List.map_id found]
  refine List.map_congr_left ?_
  intro f hf
  exact ν.finding_eq_self (h f hf).1 (h f hf).2

end Views
end Renaming

namespace Machine

variable {m : Machine} {ν : Renaming} {raw raw' : List Text} {p : Progress} {t : Turret}
  {signals : Signals} {index index' line : Int} {text : Text} {dropped : Finding → Bool}

/-- Following the mode signals does not see the names. -/
theorem follow_renamed
    (state : TurretState) :
    m.follow (ν.state state) signals (ν.number line) text =
      (ν.state (m.follow state signals line text).1, (m.follow state signals line text).2) := by
  simp only [follow, Renaming.state, List.map_append, List.map_map]
  rfl

theorem nextSession_renamed
    (session : Option BalanceSession) :
    m.nextSession (session.map ν.session) (ν.turret t) (ν.number line) text =
      (m.nextSession session t line text).map ν.session := by
  unfold nextSession closeSession openSession
  split_ifs <;> rfl

/-- Comparing the wait codes does not see the names. -/
theorem handshakeFindings_renamed
    (states : PerTurret TurretState) :
    m.handshakeFindings (ν.pair (states.map ν.state)) (ν.turret t) =
      (m.handshakeFindings states t).map ν.finding := by
  unfold handshakeFindings
  rw [← ν.turret_opposite, ν.states_get, ν.states_get, ν.lastWait?, ν.lastWait?]
  cases (states.get t).lastWait? with
  | none => rfl
  | some masterWait =>
      cases (states.get t.opposite).lastWait? with
      | none => rfl
      | some slaveWait =>
          simp only [Option.map_some, Renaming.wait]
          split_ifs <;> rfl

theorem startFindings_renamed
    (states : PerTurret TurretState) :
    m.startFindings (ν.pair (states.map ν.state)) (ν.turret t) text =
      (m.startFindings states t text).map ν.finding := by
  unfold startFindings
  split_ifs
  · rw [handshakeFindings_renamed, List.map_append]
    rfl
  · rfl

/-- The checks of a line make no finding that names a turret. -/
theorem map_finding_run
    (inBalance : Bool) :
    (Check.run (m.endChecks raw index text ++ m.blockChecks inBalance text)).1.map ν.finding =
      (Check.run (m.endChecks raw index text ++ m.blockChecks inBalance text)).1 := by
  refine ν.map_finding_eq_self ?_
  intro f hf
  rcases mem_run_cases hf with h | h | h | h | hlength
  · rw [h]
    decide
  · rw [h]
    decide
  · rw [h]
    decide
  · rw [h]
    decide
  · rw [rule_of_mem_lengthCheck hlength]
    decide

/-- The two releases are the same, beside findings that are dropped. -/
def SameRelease
    (m : Machine)
    (dropped : Finding → Bool)
    (raw : List Text)
    (index : Int)
    (raw' : List Text)
    (index' : Int) :
    Prop :=
  (m.releaseCheck raw index).map (List.filter fun f => !dropped f) =
    (m.releaseCheck raw' index').map (List.filter fun f => !dropped f)

/-- Beside what is dropped, the checks of a line find and stop the same. -/
theorem run_of_sameRelease
    (h : m.SameRelease dropped raw index raw' index')
    (text : Text)
    (checks : List Check) :
    ((Check.run (m.endChecks raw index text ++ checks)).1.filter (fun f => !dropped f) =
        (Check.run (m.endChecks raw' index' text ++ checks)).1.filter fun f => !dropped f) ∧
      (Check.run (m.endChecks raw index text ++ checks)).2 =
        (Check.run (m.endChecks raw' index' text ++ checks)).2 := by
  have hends : (m.endChecks raw index text).map
        (fun check => check.map (List.filter fun f => !dropped f)) =
      (m.endChecks raw' index' text).map
        fun check => check.map (List.filter fun f => !dropped f) := by
    unfold endChecks
    split_ifs
    · rw [List.map_cons, List.map_cons, h]
      rfl
    · rfl
  rw [← Prod.mk.injEq, ← Check.run_map_filter, ← Check.run_map_filter, List.map_append,
    List.map_append, hends]

theorem routedProgress_renamed :
    m.routedProgress (ν.progress p) (ν.turret t) signals (ν.number line) text =
      ν.progress (m.routedProgress p t signals line text) := by
  have hstates : ∀ state, (p.states.set t state).map ν.state =
      (p.states.map ν.state).set t (ν.state state) := by
    intro state
    cases t <;> rfl
  simp only [routedProgress, Renaming.progress, ν.states_get, follow_renamed, nextSession_renamed,
    hstates, ν.pair_set]

theorem routedEntry_renamed :
    m.routedEntry (ν.progress p) (ν.turret t) signals (ν.number line) text =
      ν.entry (m.routedEntry p t signals line text) := by
  rw [routedEntry, routedProgress_renamed, ν.inBalance, Renaming.progress, ν.states_get]
  rfl

/-- A line of a turret does not see the names, beside what is dropped. -/
theorem readRouted_renamed
    (h : m.SameRelease dropped raw index raw' index') :
    (m.readRouted raw' (ν.progress p) (ν.turret t) index' (ν.number line) text).without dropped =
      (ν.outcome (m.readRouted raw p t index line text)).without dropped := by
  cases hsignals : m.dialect.signals text with
  | error e =>
      simp only [readRouted, hsignals]
      rfl
  | ok signals =>
      have hnotes : (m.follow (p.states.get t) signals line text).2.map ν.finding =
          (m.follow (p.states.get t) signals line text).2 := by
        refine ν.map_finding_eq_self ?_
        intro f hf
        rw [Modes.rule_of_mem_follow hf]
        decide
      have hfollow : (m.follow ((ν.progress p).states.get (ν.turret t)) signals (ν.number line)
          text).2 = (m.follow (p.states.get t) signals line text).2 := by
        rw [Renaming.progress, ν.states_get, follow_renamed]
      have hstart : ∀ next : Progress, m.startFindings (ν.progress next).states (ν.turret t) text =
          (m.startFindings next.states t text).map ν.finding := fun next =>
        startFindings_renamed next.states
      have hbalance : (ν.progress (m.routedProgress p t signals line text)).inBalance =
          (m.routedProgress p t signals line text).inBalance := ν.inBalance _
      obtain ⟨hfound, hfault⟩ := run_of_sameRelease h text
        (m.blockChecks (m.routedProgress p t signals line text).inBalance text)
      simp only [readRouted, hsignals, routedProgress_renamed, hstart, ν.ofFindings_map]
      cases Check.ofFindings
          (m.startFindings (m.routedProgress p t signals line text).states t text) with
      | error fault =>
          simp only [Except.map, Outcome.without, Renaming.outcome, hfollow, hnotes]
          rfl
      | ok opening =>
          simp only [Except.map, Outcome.without, Renaming.outcome, routedProgress_renamed,
            routedEntry_renamed, routedChecks, hbalance, List.map_append, List.filter_append,
            map_finding_run, hnotes, hfollow, hfound, hfault]
          split_ifs <;> rfl

/-- A selection does not see the names. -/
theorem readSelection_renamed
    (marker : Text) :
    readSelection (ν.progress p) (ν.turret t) marker (ν.number line) text =
      ν.outcome (readSelection p t marker line text) := by
  have hmotion : (selectFindings text).map ν.finding = selectFindings text := by
    unfold selectFindings
    split_ifs <;> rfl
  have hstate : (ν.progress p).states.get (ν.turret t) = ν.state (p.states.get t) :=
    ν.states_get _ _
  simp only [readSelection, Renaming.outcome, List.map_append, hmotion, hstate]
  rfl

/-- The step under other names is the step, renamed. -/
theorem readLine_renamed
    (h : m.SameRelease dropped raw index raw' index') :
    ((ν.machine m).readLine raw' (ν.progress p) index' (ν.number line) text).without dropped =
      (ν.outcome (m.readLine raw p index line text)).without dropped := by
  have hselected : (ν.machine m).dialect.selectedTurret? text =
      (m.dialect.selectedTurret? text).map fun held => (ν.turretName held.1, held.2) :=
    ν.selectedTurret? m.dialect text
  unfold readLine
  rw [hselected]
  cases m.dialect.selectedTurret? text with
  | some held =>
      obtain ⟨name, marker⟩ := held
      simp only [Option.map_some, ν.ofName_turretName]
      cases Turret.ofName name with
      | error e => rfl
      | ok t =>
          have hselect : readSelection (ν.progress { p with routing := true }) (ν.turret t) marker
              (ν.number line) text =
                ν.outcome (readSelection { p with routing := true } t marker line text) :=
            readSelection_renamed marker
          exact congrArg (fun o : Outcome => o.without dropped) hselect
  | none =>
      have hrouting : (ν.progress p).routing = p.routing := rfl
      have hturret : (ν.progress p).turret = p.turret.map ν.turret := rfl
      simp only [Option.map_none, hrouting, hturret]
      split_ifs
      · cases p.turret with
        | none => rfl
        | some t => exact readRouted_renamed h
      · unfold readCommon
        split_ifs <;> rfl

end Machine

/-- The lines with further lines put between them: `inserted k` stands right before the line
with index `k`, or at the end if there is no such line. -/
def insertLines
    (inserted : Nat → List Text) :
    Nat → List Text → List Text
  | k, [] => inserted k
  | k, line :: lines => inserted k ++ line :: insertLines inserted (k + 1) lines

/-- How many lines have been put in before the line with number `n`. -/
def insertedBefore
    (inserted : Nat → List Text) :
    Nat → Nat
  | 0 => 0
  | n + 1 => insertedBefore inserted n + (inserted n).length

namespace Machine

variable {m : Machine} {ν : Renaming} {raw raw' : List Text} {dropped : Finding → Bool}
  {inserted : Nat → List Text}

/-- Lines that are passed over only move the index. -/
theorem readLines_of_skipped
    (p : Progress)
    (index : Nat)
    {skipped : List Text}
    (hskip : ∀ line ∈ skipped, isSkipped line = true)
    (rest : List Text) :
    m.readLines raw p index (skipped ++ rest) =
      m.readLines raw p (index + skipped.length) rest := by
  induction skipped generalizing index with
  | nil => rfl
  | cons line skipped ih =>
      rw [List.cons_append, readLines, if_pos (hskip line List.mem_cons_self),
        ih (index + 1) fun other hother => hskip other (List.mem_cons_of_mem _ hother),
        List.length_cons, Nat.add_right_comm, Nat.add_assoc]

theorem map_behind_without
    (x : Except Fault Trace)
    (o : Outcome)
    (line : Int) :
    (x.map (Trace.behind (o.reading line))).map (Trace.without · fun d => dropped d.finding) =
      (x.map (Trace.without · fun d => dropped d.finding)).map
        (Trace.behind ((o.without dropped).reading line)) := by
  cases x <;> rfl

/-- A run under other names is the run, renamed, also where lines that are passed over stand
between the others. -/
theorem readLines_renamed
    (hskip : ∀ k, ∀ line ∈ inserted k, isSkipped line = true)
    (hnumber : ∀ k : Nat, ν.number (k + 1) = k + insertedBefore inserted (k + 1) + 1)
    (hrelease : ∀ k : Nat,
      m.SameRelease dropped raw k raw' (k + insertedBefore inserted (k + 1) : Nat))
    (lines : List Text)
    (p : Progress)
    (k : Nat) :
    ((ν.machine m).readLines raw' (ν.progress p) (k + insertedBefore inserted k)
        (insertLines inserted k lines)).map (Trace.without · fun d => dropped d.finding) =
      (m.readLines raw p k lines).map fun s => (ν.scan s).without fun d => dropped d.finding := by
  induction lines generalizing p k with
  | nil =>
      have hnil : (ν.machine m).readLines raw' (ν.progress p) (k + insertedBefore inserted k)
          (inserted k ++ []) = .ok { progress := ν.progress p } :=
        readLines_of_skipped _ _ (hskip k) []
      rw [List.append_nil] at hnil
      rw [insertLines, hnil]
      rfl
  | cons line lines ih =>
      have hbefore : k + insertedBefore inserted k + (inserted k).length =
          k + insertedBefore inserted (k + 1) :=
        Nat.add_assoc _ _ _
      have hnext : k + insertedBefore inserted (k + 1) + 1 =
          k + 1 + insertedBefore inserted (k + 1) :=
        Nat.add_right_comm _ _ _
      rw [insertLines, readLines_of_skipped _ _ (hskip k), hbefore]
      cases hline : isSkipped line with
      | true =>
          rw [readLines, readLines, if_pos hline, if_pos hline, hnext]
          exact ih p (k + 1)
      | false =>
          have hindex : ν.number (k + 1) =
              ((k + insertedBefore inserted (k + 1) : Nat) : Int) + 1 := by
            rw [hnumber, Int.natCast_add]
          have hstep : ((ν.machine m).readLine raw' (ν.progress p)
              (k + insertedBefore inserted (k + 1) : Nat) (ν.number (k + 1))
                (Text.trim line)).without dropped =
              (ν.outcome (m.readLine raw p k (k + 1) (Text.trim line))).without dropped :=
            readLine_renamed (hrelease k)
          rw [hindex] at hstep
          generalize houtcome : m.readLine raw p k (k + 1) (Text.trim line) = o at hstep
          generalize houtcome' :
            (ν.machine m).readLine raw' (ν.progress p) _ _ (Text.trim line) = o' at hstep
          have hfault : o'.fault = o.fault := (congrArg Outcome.fault hstep :)
          have hprogress : o'.progress = ν.progress o.progress :=
            (congrArg Outcome.progress hstep :)
          rw [readLines_of_read hline houtcome, readLines_of_read hline houtcome', hfault,
            hprogress]
          cases o.fault with
          | some fault => rfl
          | none =>
              dsimp only
              rw [map_behind_without, hnext, ih, hstep, ← hindex]
              cases m.readLines raw o.progress (k + 1) lines <;> rfl

end Machine
end DualTurret
