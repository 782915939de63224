import DualTurret.Proofs.Block.Spacing
import DualTurret.Proofs.Scan.Findings
import Mathlib.Data.List.Forall2

/-!
# Spacing of a program

A scan sees the words and markers of a line, never the blanks between them.  The blanks
show in two places only: a stream keeps the text of its lines, and a block may be too long.
The sketch of a scan leaves out both, and two programs that are respaced line by line have
the same sketch.

The proof goes line by line.  Lines that read alike (`Dialect.ReadsAlike`) have the same
outcome but for its texts and lengths (`Machine.readLine_sketch`), so the scan goes on from
the same progress.  The lookahead at the end of balance cutting sees the raw lines, but of
them only the wait codes.
-/

namespace DualTurret

def ClassifiedLine.unworded (entry : ClassifiedLine) : ClassifiedLine :=
  { entry with text := [] }

/-- An outcome without the text and the length of its line. -/
def Outcome.sketch (outcome : Outcome) : Outcome :=
  { outcome with
    findings := outcome.findings.filter Finding.beyondLength
    placed := outcome.placed.map fun place => (place.1, place.2.unworded) }

/-- A reading without the text and the length of its line. -/
def Reading.sketch (r : Reading) : Reading :=
  { r with
    findings := r.findings.filter Finding.beyondLength
    placed := r.placed.map fun place => (place.1, place.2.unworded) }

/-- A scan without the texts and the lengths of its lines. -/
def Trace.sketch (s : Trace) : Trace :=
  { s with history := s.history.map Reading.sketch }

theorem Outcome.reading_sketch
    (outcome : Outcome)
    (line : Int) :
    (outcome.reading line).sketch = outcome.sketch.reading line :=
  rfl

theorem Trace.sketch_stream
    (s : Trace)
    (stream : Stream) :
    s.sketch.stream stream = (s.stream stream).map ClassifiedLine.unworded := by
  simp only [Trace.stream, Stream.lines, Trace.sketch, List.filterMap_map, List.map_filterMap]
  congr 1
  funext r
  cases hplaced : r.placed with
  | none => simp [Reading.lineIn?, Reading.sketch, hplaced]
  | some place =>
      by_cases heq : place.1 = stream
      · simp [Reading.lineIn?, Reading.sketch, hplaced, heq]
      · simp [Reading.lineIn?, Reading.sketch, hplaced, heq]

theorem Trace.sketch_log
    (s : Trace) :
    s.sketch.log = s.log.filter fun d => d.finding.beyondLength := by
  simp only [Trace.log, Log.ofHistory, Trace.sketch, List.flatMap_map, List.filter_flatMap]
  congr 1
  funext r
  simp only [Reading.diagnostics, Reading.sketch, List.filter_map]
  rfl

theorem slice_map
    {α β : Type}
    (f : α → β)
    (xs : List α)
    (i j : Int) :
    slice (xs.map f) i j = (slice xs i j).map f := by
  simp only [slice, List.length_map, List.map_take, List.map_drop]

/-- The two texts are the same to every reader of a scan. -/
structure Dialect.ReadsAlike (d : Dialect) (text text' : Text) : Prop where
  selectedTurret : d.selectedTurret? text = d.selectedTurret? text'
  signals : d.signals text = d.signals text'
  waitCode : d.waitCode? text = d.waitCode? text'
  balanceStart : Block.holdsMarker text d.balanceStart = Block.holdsMarker text' d.balanceStart
  balanceEnd : Block.holdsMarker text d.balanceEnd = Block.holdsMarker text' d.balanceEnd
  gCodes : Block.gCodes text = Block.gCodes text'
  feedRate : Block.feedRate? text = Block.feedRate? text'
  speedDigits : Block.speedDigits? text = Block.speedDigits? text'
  isComment : Block.isComment text = Block.isComment text'
  isProgramNumber : Block.isProgramNumber text = Block.isProgramNumber text'

namespace Dialect

variable {d : Dialect} {t u : Text}

/-- Respaced lines read alike. -/
theorem readsAlike_of_respaced (hd : d.Worded) (h : Text.Respaced t u) : d.ReadsAlike t u := by
  have hmarker : ∀ markers : List Text, (∀ marker ∈ markers, marker ∈ d.markers) →
      Block.holdsAny t markers = Block.holdsAny u markers := fun markers hsubset =>
    Block.holdsAny_eq h fun marker hmem => hd marker (hsubset marker hmem)
  have hname : ∀ named : List (Text × Text), (∀ marker ∈ named.map Prod.snd, marker ∈ d.markers) →
      Block.heldName? t named = Block.heldName? u named := fun named hsubset =>
    Block.heldName?_eq h fun entry hmem => hd entry.2 (hsubset entry.2 (List.mem_map_of_mem hmem))
  have hspindle : d.selectedSpindle? t = d.selectedSpindle? u :=
    hname _ fun _ hmem => by simp only [markers, List.mem_append, hmem, true_or, or_true]
  have hswitch : ∀ switch, switch ≠ .spindle → d.holdsSwitch t switch = d.holdsSwitch u switch := by
    intro switch hne
    cases switch with
    | spindle => exact absurd rfl hne
    | millingStart => exact hmarker _ fun _ hmem => by simp [markers, hmem]
    | millingStop => exact hmarker _ fun _ hmem => by simp [markers, hmem]
    | crossStart => exact hmarker _ fun _ hmem => by simp [markers, hmem]
    | crossStop => exact hmarker _ fun _ hmem => by simp [markers, hmem]
  have hspindleSignal : d.spindleSignal t = d.spindleSignal u := by
    rw [spindleSignal, spindleSignal, hspindle]
  exact {
    selectedTurret :=
      hname _ fun _ hmem => by simp only [markers, List.mem_append, hmem, true_or]
    signals := by
      rw [signals, signals, hspindleSignal, hswitch _ (by simp), hswitch _ (by simp),
        hswitch _ (by simp), hswitch _ (by simp)]
    waitCode := Block.waitCode?_eq h _ _
    balanceStart := Block.holdsMarker_eq h (hd _ (by simp [markers]))
    balanceEnd := Block.holdsMarker_eq h (hd _ (by simp [markers]))
    gCodes := Block.gCodes_eq h
    feedRate := Block.feedRate?_eq h
    speedDigits := Block.speedDigits?_eq h
    isComment := Block.isComment_eq h
    isProgramNumber := Block.isProgramNumber_eq h }

namespace ReadsAlike

theorem symm (h : d.ReadsAlike t u) : d.ReadsAlike u t :=
  ⟨h.1.symm, h.2.symm, h.3.symm, h.4.symm, h.5.symm, h.6.symm, h.7.symm, h.8.symm, h.9.symm,
    h.10.symm⟩

theorem trans {v : Text} (h : d.ReadsAlike t u) (h' : d.ReadsAlike u v) : d.ReadsAlike t v :=
  ⟨h.1.trans h'.1, h.2.trans h'.2, h.3.trans h'.3, h.4.trans h'.4, h.5.trans h'.5,
    h.6.trans h'.6, h.7.trans h'.7, h.8.trans h'.8, h.9.trans h'.9, h.10.trans h'.10⟩

end ReadsAlike

/-- A scan reads trimmed lines, and trimming a line only respaces it. -/
theorem readsAlike_trim
    (hd : d.Worded)
    (h : Text.Respaced t u) :
    d.ReadsAlike (Text.trim t) (Text.trim u) := by
  have ht : d.ReadsAlike (Text.trim t) t := readsAlike_of_respaced hd (Text.respaced_trim t)
  have hu : d.ReadsAlike (Text.trim u) u := readsAlike_of_respaced hd (Text.respaced_trim u)
  exact (ht.trans (readsAlike_of_respaced hd h)).trans hu.symm

end Dialect

namespace Machine

variable {m : Machine} {raw raw' : List Text} {p : Progress} {index line : Int}
  {text text' : Text}

/-- Blanks do not decide whether a line is passed over. -/
theorem isSkipped_eq {t u : Text} (h : Text.Respaced t u) : isSkipped t = isSkipped u := by
  have hblank : (Text.trim t).isEmpty = (Text.trim u).isEmpty := by
    rw [Bool.eq_iff_iff, List.isEmpty_iff, List.isEmpty_iff]
    exact ⟨h.trim_eq_nil, h.symm.trim_eq_nil⟩
  rw [isSkipped, isSkipped, hblank, Block.isDivider_eq h]

/-- The lookahead sees only the wait codes of the raw lines. -/
theorem releaseCheck_eq_of_waits
    (hraw : raw.map (fun t => m.dialect.waitCode? (Text.trim t)) =
      raw'.map fun t => m.dialect.waitCode? (Text.trim t))
    (index : Int) :
    m.releaseCheck raw index = m.releaseCheck raw' index := by
  have hany : ∀ lines : List Text, ∀ i j,
      (slice lines i j).any (fun t => (m.dialect.waitCode? (Text.trim t)).isSome) =
        (slice (lines.map fun t => m.dialect.waitCode? (Text.trim t)) i j).any Option.isSome := by
    intro lines i j
    rw [slice_map, List.any_map]
    rfl
  unfold releaseCheck
  simp only [hany, hraw]

section Step

variable (h : m.dialect.ReadsAlike text text')

include h

theorem follow_eq
    (state : TurretState)
    (signals : Signals) :
    m.follow state signals line text = m.follow state signals line text' := by
  simp only [follow, h.waitCode]

theorem nextSession_eq
    (session : Option BalanceSession)
    (t : Turret) :
    m.nextSession session t line text = m.nextSession session t line text' := by
  simp only [nextSession, openSession, closeSession, h.balanceStart, h.balanceEnd]

theorem startFindings_eq
    (states : PerTurret TurretState)
    (t : Turret) :
    m.startFindings states t text = m.startFindings states t text' := by
  simp only [startFindings, h.balanceStart]

theorem endChecks_eq
    (hrelease : m.releaseCheck raw index = m.releaseCheck raw' index) :
    m.endChecks raw index text = m.endChecks raw' index text' := by
  simp only [endChecks, h.balanceEnd, hrelease]

theorem routedProgress_eq
    (p : Progress)
    (t : Turret)
    (signals : Signals) :
    m.routedProgress p t signals line text = m.routedProgress p t signals line text' := by
  simp only [routedProgress, follow_eq h, nextSession_eq h]

theorem routedEntry_unworded_eq
    (p : Progress)
    (t : Turret)
    (signals : Signals) :
    (m.routedEntry p t signals line text).unworded =
      (m.routedEntry p t signals line text').unworded := by
  simp only [routedEntry, routedProgress_eq h, h.isComment]
  rfl

/-- The checks of a block differ in what the length check finds, but not in where they stop. -/
theorem blockChecks_map_filter
    (hwritable : m.Writable)
    (inBalance : Bool) :
    (m.blockChecks inBalance text).map (fun check => check.map (List.filter Finding.beyondLength)) =
      (m.blockChecks inBalance text').map
        fun check => check.map (List.filter Finding.beyondLength) := by
  have hlength : ∀ limit : Number, ∀ block : Text,
      (Check.ofFindings (if limit.lt (.whole block.length) then
        [Finding.longBlock m.config.maxBlockLength block.length] else [])).map
          (List.filter Finding.beyondLength) = .ok [] := by
    intro limit block
    have hshown := (longBlock_isWritable_iff block.length).mpr hwritable.maxBlockLength
    unfold Check.ofFindings
    split_ifs with hlong hall
    · rfl
    · simp [hshown] at hall
    · rfl
    · rename_i hall
      exact absurd rfl hall
  have hcheck : (m.lengthCheck text).map (List.filter Finding.beyondLength) =
      (m.lengthCheck text').map (List.filter Finding.beyondLength) := by
    unfold lengthCheck
    split
    · rfl
    · rw [hlength, hlength]
  simp only [blockChecks, List.map_cons, hcheck, codeCheck, h.gCodes, feedCheck, h.feedRate,
    speedCheck, h.speedDigits]

/-- Beside the length, the checks of respaced lines find and stop the same. -/
theorem run_routedChecks_eq
    (hwritable : m.Writable)
    (hrelease : m.releaseCheck raw index = m.releaseCheck raw' index)
    (p : Progress)
    (t : Turret)
    (signals : Signals)
    (line : Int) :
    (Check.run (m.routedChecks raw p t signals index line text)).1.filter Finding.beyondLength =
        (Check.run (m.routedChecks raw' p t signals index line text')).1.filter
          Finding.beyondLength ∧
      (Check.run (m.routedChecks raw p t signals index line text)).2 =
        (Check.run (m.routedChecks raw' p t signals index line text')).2 := by
  rw [← Prod.mk.injEq, ← Check.run_map_filter, ← Check.run_map_filter, routedChecks, routedChecks,
    routedProgress_eq h, endChecks_eq h hrelease, List.map_append, List.map_append,
    blockChecks_map_filter h hwritable]

theorem readRouted_sketch
    (hwritable : m.Writable)
    (hrelease : m.releaseCheck raw index = m.releaseCheck raw' index)
    (t : Turret) :
    (m.readRouted raw p t index line text).sketch =
      (m.readRouted raw' p t index line text').sketch := by
  unfold readRouted
  rw [h.signals]
  cases m.dialect.signals text' with
  | error e => rfl
  | ok signals =>
      obtain ⟨hfound, hfault⟩ := run_routedChecks_eq h hwritable hrelease p t signals line
      simp only [follow_eq h, routedProgress_eq h, startFindings_eq h]
      cases Check.ofFindings
          (m.startFindings (m.routedProgress p t signals line text').states t text') with
      | error fault => rfl
      | ok opening =>
          simp only [Outcome.sketch, List.filter_append, hfound, hfault]
          split_ifs
          · rfl
          · simp only [Option.map_some, routedEntry_unworded_eq h]

/-- Respaced lines are read alike, beside their texts and lengths. -/
theorem readLine_sketch
    (hwritable : m.Writable)
    (hrelease : m.releaseCheck raw index = m.releaseCheck raw' index) :
    (m.readLine raw p index line text).sketch = (m.readLine raw' p index line text').sketch := by
  unfold readLine
  rw [h.selectedTurret]
  cases m.dialect.selectedTurret? text' with
  | some selected =>
      obtain ⟨name, marker⟩ := selected
      simp only [readSelection, selectFindings, h.gCodes]
      cases Turret.ofName name <;> rfl
  | none =>
      dsimp only
      split_ifs
      · cases p.turret with
        | none => rfl
        | some t => exact readRouted_sketch h hwritable hrelease t
      · simp only [readCommon, h.isComment, h.isProgramNumber]
        split_ifs <;> rfl

end Step

theorem map_behind_sketch
    (x : Except Fault Trace)
    (r : Reading) :
    (x.map (Trace.behind r)).map Trace.sketch =
      (x.map Trace.sketch).map (Trace.behind r.sketch) := by
  cases x <;> rfl

/-- Lines that are respaced one by one give the same sketch of a scan. -/
theorem readLines_sketch
    (hwritable : m.Writable)
    (hd : m.dialect.Worded)
    (hrelease : ∀ index, m.releaseCheck raw index = m.releaseCheck raw' index)
    {lines lines' : List Text}
    (hlines : List.Forall₂ Text.Respaced lines lines')
    (p : Progress)
    (index : Nat) :
    (m.readLines raw p index lines).map Trace.sketch =
      (m.readLines raw' p index lines').map Trace.sketch := by
  induction hlines generalizing p index with
  | nil => rfl
  | @cons line line' lines lines' hline _ ih =>
      cases hskip : isSkipped line' with
      | true =>
          have hskip' : isSkipped line = true := by rw [isSkipped_eq hline, hskip]
          rw [readLines, readLines, if_pos hskip, if_pos hskip']
          exact ih p (index + 1)
      | false =>
          have hskip' : isSkipped line = false := by rw [isSkipped_eq hline, hskip]
          have hstep : (m.readLine raw p index (index + 1) (Text.trim line)).sketch =
              (m.readLine raw' p index (index + 1) (Text.trim line')).sketch :=
            readLine_sketch (Dialect.readsAlike_trim hd hline) hwritable (hrelease index)
          generalize houtcome : m.readLine raw p index (index + 1) (Text.trim line) = outcome
            at hstep
          generalize houtcome' : m.readLine raw' p index (index + 1) (Text.trim line') = outcome'
            at hstep
          have hfault : outcome.fault = outcome'.fault :=
            (congrArg Outcome.fault hstep :)
          have hprogress : outcome.progress = outcome'.progress :=
            (congrArg Outcome.progress hstep :)
          rw [readLines_of_read hskip' houtcome, readLines_of_read hskip houtcome', hfault,
            hprogress]
          cases outcome'.fault with
          | some fault => rfl
          | none =>
              dsimp only
              rw [map_behind_sketch, map_behind_sketch, ih, Outcome.reading_sketch,
                Outcome.reading_sketch, hstep]

end Machine

/-- Warnings and notes are never about the length of a block. -/
theorem Log.withSeverity_beyondLength
    (log : Log)
    {severity : Severity}
    (h : severity ≠ .error) :
    Log.withSeverity (log.filter fun d => d.finding.beyondLength) severity =
      Log.withSeverity log severity := by
  unfold Log.withSeverity
  rw [List.filter_filter]
  refine List.filter_congr ?_
  intro d _
  cases hlength : d.finding.beyondLength with
  | true => simp
  | false => simp [Diagnostic.severity, Finding.severity_of_length hlength, h.symm]

theorem Log.errors_beyondLength
    (log : Log) :
    Log.errors (log.filter fun d => d.finding.beyondLength) = Log.otherErrors log := by
  simp only [Log.otherErrors, Log.errors, Log.withSeverity, List.filter_filter, Bool.and_comm]

/-- Two results show the same beside the texts and the lengths of their lines. -/
structure Result.SameBesideSpacing (r r' : Result) : Prop where
  stream : ∀ stream, (r.stream stream).map ClassifiedLine.unworded =
    (r'.stream stream).map ClassifiedLine.unworded
  finalStates : r.finalStates = r'.finalStates
  warnings : Log.warnings r.log = Log.warnings r'.log
  notes : Log.notes r.log = Log.notes r'.log
  otherErrors : Log.otherErrors r.log = Log.otherErrors r'.log

/-- Scans with one sketch give the same beside spacing. -/
theorem Trace.sameBesideSpacing_of_sketch
    {s s' : Trace}
    (h : s.sketch = s'.sketch)
    (raw raw' : List Text) :
    (s.toResult raw).SameBesideSpacing (s'.toResult raw') := by
  have hlog : s.log.filter (fun d => d.finding.beyondLength) =
      s'.log.filter fun d => d.finding.beyondLength := by
    rw [← Trace.sketch_log, ← Trace.sketch_log, h]
  have hseverity : ∀ severity : Severity, severity ≠ .error →
      Log.withSeverity s.log severity = Log.withSeverity s'.log severity := by
    intro severity hne
    rw [← Log.withSeverity_beyondLength s.log hne, ← Log.withSeverity_beyondLength s'.log hne,
      hlog]
  have hprogress : s.progress = s'.progress := (congrArg Trace.progress h :)
  exact {
    stream := by
      intro stream
      rw [Trace.toResult_stream, Trace.toResult_stream, ← Trace.sketch_stream,
        ← Trace.sketch_stream, h]
    finalStates := congrArg Progress.states hprogress
    warnings := hseverity .warning (by decide)
    notes := hseverity .info (by decide)
    otherErrors := by
      show Log.otherErrors s.log = Log.otherErrors s'.log
      rw [← Log.errors_beyondLength, ← Log.errors_beyondLength, hlog] }

namespace Machine

variable {m : Machine} {program program' : Text}

/-- Runs over respaced programs have one sketch. -/
theorem readLines_respaced
    (hwritable : m.Writable)
    (hd : m.dialect.Worded)
    (h : List.Forall₂ Text.Respaced (Text.lines program) (Text.lines program')) :
    (m.readLines (Text.lines program) {} 0 (Text.lines program)).map Trace.sketch =
      (m.readLines (Text.lines program') {} 0 (Text.lines program')).map Trace.sketch := by
  have hwaits : (Text.lines program).map (fun t => m.dialect.waitCode? (Text.trim t)) =
      (Text.lines program').map fun t => m.dialect.waitCode? (Text.trim t) := by
    rw [← List.forall₂_eq_eq_eq, List.forall₂_map_left_iff, List.forall₂_map_right_iff]
    exact h.imp fun t u htu => (Dialect.readsAlike_trim hd htu).waitCode
  exact readLines_sketch hwritable hd (releaseCheck_eq_of_waits hwaits) h {} 0

/-- Programs that are respaced line by line have results that are the same beside the texts
and the lengths of their lines, or both end with the same fault. -/
theorem analyze_respaced
    (hwritable : m.Writable)
    (hd : m.dialect.Worded)
    (h : List.Forall₂ Text.Respaced (Text.lines program) (Text.lines program')) :
    (∀ r, m.analyze program = .ok r →
      ∃ r', m.analyze program' = .ok r' ∧ r.SameBesideSpacing r') ∧
    ∀ fault, m.analyze program = .error fault → m.analyze program' = .error fault := by
  obtain ⟨hresult, hfault⟩ := analyze_of_map_eq (readLines_respaced hwritable hd h).symm
  refine ⟨?_, hfault⟩
  intro r hr
  obtain ⟨s, s', rfl, hr', hsame⟩ := hresult r hr
  exact ⟨_, hr', Trace.sameBesideSpacing_of_sketch hsame.symm _ _⟩

/-- Tabs, wide blanks and blanks at the ends of the lines of a program do not matter. -/
theorem analyze_respaced_tabs :
    List.Forall₂ Text.Respaced (Text.lines "G109 L1\nS90 M950".toList)
        (Text.lines "\tG109 \t L1\nS90\u3000M950  ".toList) ∧
      ∃ r r', (ofPreset []).analyze "G109 L1\nS90 M950".toList = .ok r ∧
        (ofPreset []).analyze "\tG109 \t L1\nS90\u3000M950  ".toList = .ok r' ∧
        r.SameBesideSpacing r' := by
  have hlines : List.Forall₂ Text.Respaced (Text.lines "G109 L1\nS90 M950".toList)
      (Text.lines "\tG109 \t L1\nS90\u3000M950  ".toList) := by
    have hselect : Text.Aligned "G109 L1".toList "G109 \t L1".toList :=
      .word_append "G109".toList (by decide)
        (.gap (b := [' ']) (c := " \t ".toList) (by decide) (by decide) (by simp) (by simp)
          (.refl "L1".toList))
    have hspeed : Text.Aligned "S90 M950".toList "S90\u3000M950  ".toList :=
      .word_append "S90".toList (by decide)
        (.gap (b := [' ']) (c := ['\u3000']) (by decide) (by decide) (by simp) (by simp)
          (Text.Aligned.append_blanks "M950".toList (b := "  ".toList) (by decide)).symm)
    exact .cons ⟨[], ['\t'], _, _, by decide, by decide, hselect, rfl, rfl⟩
      (.cons ⟨[], [], _, _, by decide, by decide, hspeed, rfl, rfl⟩ .nil)
  obtain ⟨r, hr⟩ := analyze_ok (Config.numeric_preset []) (writable_ofPreset [])
    Dialect.integrex_namesTurrets Dialect.integrex_namesSpindles "G109 L1\nS90 M950".toList
  obtain ⟨r', hr', hsame⟩ := (analyze_respaced (writable_ofPreset []) (by decide) hlines).1 r hr
  exact ⟨hlines, r, r', hr, hr', hsame⟩

end Machine
end DualTurret
