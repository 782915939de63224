import DualTurret.Proofs.Block.Line
import DualTurret.Proofs.Scan.Renaming
import Mathlib.Order.Monotone.Basic

/-!
# Decoration of a program

Blank lines and section dividers are passed over, whatever else they hold.  Putting such
lines into a program moves the numbers of its lines and changes nothing else, with one
exception: the lookahead at the end of balance cutting counts raw lines, so a release may
move out of its reach, and a wait code in a divider may come into it.

The proof reads the decorated program as the program under other line numbers
(`Machine.readLines_renamed`), with the findings about releases left out.
-/

namespace DualTurret

def Text.Decorative (line : Text) : Prop :=
  Text.trim line = [] ∨ ['(', '='] <+: Text.trim line

instance (line : Text) : Decidable (Text.Decorative line) :=
  inferInstanceAs (Decidable (_ ∨ _))

/-- A scan passes over decoration. -/
theorem Machine.isSkipped_of_decorative
    {line : Text}
    (h : Text.Decorative line) :
    Machine.isSkipped line = true := by
  rcases h with hblank | hdivider
  · simp [isSkipped, hblank]
  · simp [isSkipped, (Block.isDivider_iff line).mpr hdivider]

/-- The finding asks for a wait code after the end of balance cutting. -/
def Finding.isRelease : Finding → Bool
  | .releaseMissing _ => true
  | _ => false

theorem Finding.severity_of_isRelease
    {f : Finding}
    (h : f.isRelease = true) :
    f.severity = .warning := by
  cases f with
  | releaseMissing => rfl
  | _ => cases h

def Log.otherWarnings (log : Log) : Log :=
  (Log.warnings log).filter fun d => !d.finding.isRelease

section Numbers

variable (inserted : Nat → List Text)

/-- The number that a line has after lines have been put in before it. -/
def renumbered (number : Int) : Int :=
  number + insertedBefore inserted number.toNat

/-- The further a line stands, the more lines have been put in before it. -/
theorem insertedBefore_monotone : Monotone (insertedBefore inserted) :=
  monotone_nat_of_le_succ fun _ => Nat.le_add_right _ _

/-- The new numbers keep the order of the lines. -/
theorem renumbered_lt
    (a b : Int)
    (hlt : a < b) :
    renumbered inserted a < renumbered inserted b := by
  have hbefore : insertedBefore inserted a.toNat ≤ insertedBefore inserted b.toNat :=
    insertedBefore_monotone inserted (Int.toNat_le_toNat (Int.le_of_lt hlt))
  unfold renumbered
  omega

theorem renumbered_succ
    (k : Nat) :
    renumbered inserted (k + 1) = k + insertedBefore inserted (k + 1) + 1 := by
  have hnat : ((k : Int) + 1).toNat = k + 1 := by omega
  rw [renumbered, hnat]
  omega

/-- A line stands after the lines put in before it and the other lines before it. -/
theorem getElem?_insertLines
    {lines : List Text}
    {k i j : Nat}
    {line : Text}
    (hline : lines[i]? = some line)
    (hj : j + insertedBefore inserted k = i + insertedBefore inserted (k + i + 1)) :
    (insertLines inserted k lines)[j]? = some line := by
  induction lines generalizing k i j with
  | nil => cases hline
  | cons first lines ih =>
      have hstep : insertedBefore inserted (k + 1) =
          insertedBefore inserted k + (inserted k).length := rfl
      cases i with
      | zero =>
          have hlength : j = (inserted k).length := by
            rw [Nat.add_zero] at hj
            omega
          rw [insertLines, hlength, List.getElem?_append_right (Nat.le_refl _), Nat.sub_self]
          exact hline
      | succ i =>
          have hmono := insertedBefore_monotone inserted (show k + 1 ≤ k + (i + 1) + 1 by omega)
          have hmoved : k + (i + 1) + 1 = k + 1 + i + 1 := by omega
          rw [hmoved] at hj hmono
          obtain ⟨rest, rfl⟩ : ∃ rest, j = (inserted k).length + (rest + 1) :=
            ⟨j - (inserted k).length - 1, by omega⟩
          rw [insertLines, List.getElem?_append_right (by omega), Nat.add_sub_cancel_left,
            List.getElem?_cons_succ]
          exact ih hline (by omega)

end Numbers

/-- The second result is the first with other line numbers, beside warnings about releases. -/
structure Result.Renumbered (number : Int → Int) (r r' : Result) : Prop where
  stream : ∀ stream, r'.stream stream =
    (r.stream stream).map fun entry => { entry with line := number entry.line }
  errors : Log.errors r'.log = (Log.errors r.log).map fun d => { d with line := number d.line }
  notes : Log.notes r'.log = (Log.notes r.log).map fun d => { d with line := number d.line }
  otherWarnings : Log.otherWarnings r'.log =
    (Log.otherWarnings r.log).map fun d => { d with line := number d.line }
  modes : ∀ t, (r'.finalStates.get t).modes = (r.finalStates.get t).modes
  waits : ∀ t, (r'.finalStates.get t).waits =
    (r.finalStates.get t).waits.map fun entry => { entry with line := number entry.line }

namespace Renaming

variable (number : Int → Int)

theorem finding_of_number (f : Finding) : Renaming.finding { number } f = f := by
  cases f <;> rfl

theorem map_finding_of_number : Renaming.diagnostic { number } =
    fun d => { d with line := number d.line } := by
  funext d
  rw [diagnostic, finding_of_number]

theorem machine_of_number (m : Machine) : Renaming.machine { number } m = m := by
  have hnames : m.dialect.turretSelect.map
      (fun entry => (Renaming.turretName { number } entry.1, entry.2)) = m.dialect.turretSelect :=
    List.map_id _
  rw [machine, dialect, hnames]

theorem stream_of_number (stream : Stream) : Renaming.stream { number } stream = stream := by
  cases stream <;> rfl

theorem state_of_number
    (p : Progress)
    (t : Turret) :
    (Renaming.progress { number } p).states.get t = Renaming.state { number } (p.states.get t) := by
  cases t <;> rfl

end Renaming

/-- Results of scans that differ only in numbers and releases are renumbered. -/
theorem Trace.renumbered_of_without
    {number : Int → Int}
    {s s' : Trace}
    (h : s'.without (fun d => d.finding.isRelease) =
      (Renaming.scan { number } s).without fun d => d.finding.isRelease)
    (raw raw' : List Text) :
    (s.toResult raw).Renumbered number (s'.toResult raw') := by
  have hprogress : s'.progress = Renaming.progress { number } s.progress :=
    (congrArg Trace.progress h :)
  have hlog : s'.log.filter (fun d => !d.finding.isRelease) =
      (s.log.map fun d => { d with line := number d.line }).filter
        fun d => !d.finding.isRelease := by
    have hwithout := congrArg Trace.log h
    rwa [Trace.without_log, Trace.without_log, Renaming.scan_log, Renaming.map_finding_of_number]
      at hwithout
  have hseverity : ∀ severity : Severity, severity ≠ .warning →
      Log.withSeverity s'.log severity =
        (Log.withSeverity s.log severity).map fun d => { d with line := number d.line } := by
    intro severity hne
    have hdropped : ∀ d : Diagnostic, d.finding.isRelease = true → d.severity ≠ severity := by
      intro d hd
      rw [Diagnostic.severity, Finding.severity_of_isRelease hd]
      exact hne.symm
    rw [← Log.withSeverity_without hdropped, hlog, Log.withSeverity_without hdropped,
      ← Renaming.map_finding_of_number, Renaming.withSeverity_map]
  exact {
    stream := by
      intro stream
      have hstream := congrArg (fun s : Trace => s.stream stream) h
      simp only [Trace.without_stream] at hstream
      rw [Trace.toResult_stream, Trace.toResult_stream, hstream]
      conv_lhs => rw [← Renaming.stream_of_number number stream]
      exact Renaming.scan_stream _ s stream
    errors := hseverity .error (by decide)
    notes := hseverity .info (by decide)
    otherWarnings := by
      show (s'.log.filter _).filter _ = ((s.log.filter _).filter _).map _
      rw [List.filter_comm, hlog, List.filter_map, List.filter_map, List.filter_comm]
      rfl
    modes := by
      intro t
      show (s'.progress.states.get t).modes = (s.progress.states.get t).modes
      rw [hprogress, Renaming.state_of_number]
      rfl
    waits := by
      intro t
      show (s'.progress.states.get t).waits = _
      rw [hprogress, Renaming.state_of_number]
      rfl }

namespace Machine

variable {m : Machine} {program program' : Text} {inserted : Nat → List Text}

/-- Without its findings the release check is the same everywhere. -/
theorem sameRelease_of_isRelease
    (raw : List Text)
    (index : Int)
    (raw' : List Text)
    (index' : Int) :
    m.SameRelease Finding.isRelease raw index raw' index' := by
  have hnone : ∀ (raw : List Text) (index lookahead : Int),
      m.config.releaseLookahead.int? = some lookahead →
      (m.releaseCheck raw index).map (List.filter fun f => !f.isRelease) = .ok [] := by
    intro raw index lookahead hlookahead
    rw [releaseCheck_eq hlookahead]
    split_ifs <;> rfl
  unfold SameRelease
  cases hlookahead : m.config.releaseLookahead.int? with
  | none => simp only [releaseCheck, hlookahead]
  | some lookahead =>
      rw [hnone raw index lookahead hlookahead, hnone raw' index' lookahead hlookahead]

theorem readLines_decorated
    (hdecorative : ∀ k, ∀ line ∈ inserted k, Text.Decorative line)
    (hlines : Text.lines program' = insertLines inserted 0 (Text.lines program)) :
    (m.readLines (Text.lines program') {} 0 (Text.lines program')).map
        (Trace.without · fun d => d.finding.isRelease) =
      (m.readLines (Text.lines program) {} 0 (Text.lines program)).map fun s =>
        (Renaming.scan { number := renumbered inserted } s).without
          fun d => d.finding.isRelease := by
  have hrun := readLines_renamed
    (fun k line hline => isSkipped_of_decorative (hdecorative k line hline))
    (show ∀ k : Nat, Renaming.number { number := renumbered inserted } (k + 1) =
      k + insertedBefore inserted (k + 1) + 1 from renumbered_succ inserted)
    (fun k => sameRelease_of_isRelease (m := m) (Text.lines program) k (Text.lines program') _)
    (Text.lines program) {} 0
  rw [Renaming.machine_of_number, ← hlines] at hrun
  exact hrun

/-- Lines of decoration that are put into a program move the numbers of its lines and change
nothing else but the warnings about releases. -/
theorem analyze_decorated
    (hdecorative : ∀ k, ∀ line ∈ inserted k, Text.Decorative line)
    (hlines : Text.lines program' = insertLines inserted 0 (Text.lines program)) :
    (∀ a b, a < b → renumbered inserted a < renumbered inserted b) ∧
    (∀ (k : Nat) line, (Text.lines program)[k]? = some line →
      (Text.lines program')[(renumbered inserted (k + 1) - 1).toNat]? = some line) ∧
    (∀ r, m.analyze program = .ok r →
      ∃ r', m.analyze program' = .ok r' ∧ r.Renumbered (renumbered inserted) r') ∧
    ∀ fault, m.analyze program = .error fault → m.analyze program' = .error fault := by
  obtain ⟨hok, herror⟩ := analyze_of_map_eq (readLines_decorated (m := m) hdecorative hlines)
  refine ⟨renumbered_lt inserted, ?_, ?_, herror⟩
  · intro k line hline
    have hplace : (renumbered inserted (k + 1) - 1).toNat =
        k + insertedBefore inserted (k + 1) := by
      rw [renumbered_succ]
      omega
    rw [hlines, hplace]
    exact getElem?_insertLines inserted hline (by simp [insertedBefore])
  · intro r hr
    obtain ⟨s, s', rfl, hr', hview⟩ := hok r hr
    exact ⟨_, hr', Trace.renumbered_of_without hview _ _⟩

/-- Blank lines, and dividers that hold a turret selection, a zero feed and a wait code. -/
theorem analyze_decorated_with_markers :
    ∃ r r', (ofPreset []).analyze "G109 L1\nP10 F0\nM562\nM563".toList = .ok r ∧
      (ofPreset []).analyze
        "\t\nG109 L1\n (=G109 L2 F0)\n\nP10 F0\nM562\nM563\n(=P7)".toList = .ok r' ∧
      r.Renumbered (renumbered fun k =>
        if k = 0 then ["\t".toList]
        else if k = 1 then [" (=G109 L2 F0)".toList, []]
        else if k = 4 then ["(=P7)".toList]
        else []) r' ∧
      (Log.errors r.log).map (fun d => d.line) = [2] ∧
      (Log.errors r'.log).map (fun d => d.line) = [5] := by
  obtain ⟨r, hr⟩ := analyze_ok (m := ofPreset []) (Config.numeric_preset [])
    (writable_ofPreset []) Dialect.integrex_namesTurrets Dialect.integrex_namesSpindles
    "G109 L1\nP10 F0\nM562\nM563".toList
  obtain ⟨_, _, hok, _⟩ := analyze_decorated (m := ofPreset [])
    (show ∀ k : Nat, ∀ line ∈
        if k = 0 then ["\t".toList]
        else if k = 1 then [" (=G109 L2 F0)".toList, []]
        else if k = 4 then ["(=P7)".toList]
        else [], Text.Decorative line by
      intro k
      split_ifs <;> decide)
    (show Text.lines "\t\nG109 L1\n (=G109 L2 F0)\n\nP10 F0\nM562\nM563\n(=P7)".toList =
      insertLines _ 0 (Text.lines "G109 L1\nP10 F0\nM562\nM563".toList) by decide)
  obtain ⟨r', hr', hrenumbered⟩ := hok r hr
  have herrors : ((ofPreset []).analyze "G109 L1\nP10 F0\nM562\nM563".toList).toOption.any
      (fun r => (Log.errors r.log).map (fun d => d.line) = [2]) = true := by
    decide +kernel
  have herrors' : ((ofPreset []).analyze
      "\t\nG109 L1\n (=G109 L2 F0)\n\nP10 F0\nM562\nM563\n(=P7)".toList).toOption.any
        (fun r => (Log.errors r.log).map (fun d => d.line) = [5]) = true := by
    decide +kernel
  rw [hr] at herrors
  rw [hr'] at herrors'
  exact ⟨r, r', hr, hr', hrenumbered, of_decide_eq_true herrors, of_decide_eq_true herrors'⟩

end Machine
end DualTurret
