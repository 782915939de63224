import DualTurret.Proofs.Number.Order
import DualTurret.Proofs.Scan.Findings

/-!
# Errors

The errors of a block are those of its G codes, its feed rate and its length, so they are
fixed by its text.  The errors of a program are the errors of the lines that the
turrets work on, one line after the other, whichever turret has a line and whatever was
read before it.

Main facts:
* `Machine.filter_error_routedOutcome`: the errors that a line of the selected turret makes;
* `Machine.Reaches.routed_eq_merge`: the lines of both turrets, merged by their numbers, are
  the lines in the order in which they were read.
-/

namespace DualTurret

/-- A block of this length is longer than the configuration allows. -/
def Config.tooLong (c : Config) (length : Nat) : Bool :=
  c.maxBlockLength.number?.any fun limit => limit.lt (.whole length)

def Block.feedIsZero (text : Text) : Bool :=
  (Block.feedRate? text).any Binary64.isZero

/-- The errors of a block, by its text alone: each G code that is not in the table, then a
feed rate of zero, then the length. -/
def Machine.blockErrors (m : Machine) (text : Text) : List Finding :=
  ((Block.gCodes text).filter fun code => !m.dialect.gCodeTable.contains code).map
      .unsupportedCode ++
    (if Block.feedIsZero text then [.zeroFeed] else []) ++
    if m.config.tooLong text.length then
      [.longBlock m.config.maxBlockLength text.length] else []

/-- The rules whose findings can be errors. -/
def Rule.raisesErrors : Rule → Bool
  | .code | .feed | .length | .remark => true
  | .selection | .mode | .balanceStart | .balanceEnd | .speed => false

/-- Only three rules raise errors. -/
theorem Finding.raisesErrors_of_severity
    {f : Finding}
    (h : f.severity = .error) :
    f.rule.raisesErrors = true := by
  cases f <;> cases h <;> rfl

/-- For a limit that is a whole number, longer is longer as a number. -/
theorem Config.tooLong_iff
    {c : Config}
    {limit : Int}
    (h : c.maxBlockLength.int? = some limit)
    (length : Nat) :
    c.tooLong length = true ↔ limit < length := by
  rw [Config.tooLong, Value.number?_of_int? h]
  exact Number.whole_lt_whole_iff

namespace Machine

/-- The errors of the G codes are those that the table does not hold. -/
theorem filter_error_codeCheck
    (m : Machine)
    (text : Text) :
    (m.codeCheck text).findings.filter (fun f => f.severity = .error) =
      ((Block.gCodes text).filter fun code => !m.dialect.gCodeTable.contains code).map
        .unsupportedCode := by
  rw [List.filter_eq_self.mpr]
  · rfl
  · intro f hf
    obtain ⟨code, _, rfl⟩ := List.mem_map.mp hf
    rfl

/-- The one error of a feed rate is that it is zero. -/
theorem filter_error_feedCheck
    (m : Machine)
    (text : Text) :
    (m.feedCheck text).findings.filter (fun f => f.severity = .error) =
      if Block.feedIsZero text then [.zeroFeed] else [] := by
  unfold feedCheck Block.feedIsZero
  cases Block.feedRate? text with
  | none => rfl
  | some rate =>
      simp only [Option.any_some]
      split_ifs with hzero
      · rfl
      · cases m.config.minFeedRate.number? with
        | none => rfl
        | some limit =>
            simp only [Check.findings]
            split_ifs <;> rfl

/-- The one error of a length is that it is beyond the limit. -/
theorem filter_error_lengthCheck
    {m : Machine}
    {text : Text}
    (hpasses : (m.lengthCheck text).Passes) :
    (m.lengthCheck text).findings.filter (fun f => f.severity = .error) =
      if m.config.tooLong text.length then
        [.longBlock m.config.maxBlockLength text.length] else [] := by
  unfold lengthCheck at hpasses ⊢
  unfold Config.tooLong
  cases hlimit : m.config.maxBlockLength.number? with
  | none => rfl
  | some limit =>
      simp only [hlimit] at hpasses
      simp only [Check.findings_ofFindings hpasses, Option.any_some]
      split_ifs <;> rfl

section Routed

variable {m : Machine} {raw : List Text} {p : Progress} {t : Turret} {signals : Signals}
  {index line : Int} {text : Text}

/-- The other rules find no errors. -/
theorem filter_error_found
    (rule : Rule)
    (hrule : rule.raisesErrors = false) :
    (m.found raw p t signals index line text rule).filter (fun f => f.severity = .error) = [] := by
  rw [List.filter_eq_nil_iff]
  intro f hf hseverity
  have hraises := Finding.raisesErrors_of_severity (of_decide_eq_true hseverity)
  rw [rule_of_mem_found hf, hrule] at hraises
  cases hraises

/-- The errors of a line of the selected turret are those of its text. -/
theorem filter_error_routedOutcome
    (hchecks : ∀ check ∈ m.routedChecks raw p t signals index line text, check.Passes) :
    (m.routedOutcome raw p t signals index line text).findings.filter
        (fun f => f.severity = .error) = m.blockErrors text := by
  rw [routedOutcome_findings, List.filter_flatMap]
  simp only [Rule.order, List.flatMap_cons, List.flatMap_nil, List.append_nil]
  rw [filter_error_found .mode rfl, filter_error_found .balanceStart rfl,
    filter_error_found .balanceEnd rfl, filter_error_found .speed rfl]
  have hlength : (m.lengthCheck text).Passes :=
    hchecks _ (List.mem_append_right _ (by simp [blockChecks]))
  simp only [found, filter_error_codeCheck, filter_error_feedCheck,
    filter_error_lengthCheck hlength, List.nil_append, blockErrors, List.append_assoc]

end Routed

end Machine

/-- The line that a reading has placed with a turret. -/
def Reading.routed? (r : Reading) : Option ClassifiedLine :=
  match r.placed with
  | some (.turret _, entry) => some entry
  | some (.common, _) => none
  | none => none

/-- The lines of both turrets in the order in which they were read. -/
def Trace.routed (s : Trace) : List ClassifiedLine :=
  s.history.filterMap Reading.routed?

/-- The lines of both turrets, merged by their numbers. -/
def Result.turretLines (r : Result) : List ClassifiedLine :=
  List.merge r.streams.upper r.streams.lower fun a b => a.line ≤ b.line

theorem Reading.routed?_eq_some
    {r : Reading}
    {entry : ClassifiedLine} :
    r.routed? = some entry ↔ ∃ t, r.placed = some (.turret t, entry) := by
  unfold Reading.routed?
  split
  · rename_i t other hplaced
    simp [hplaced]
  · rename_i other hplaced
    simp [hplaced]
  · rename_i hplaced
    simp [hplaced]

/-- The routed lines are those of both turrets. -/
theorem Trace.mem_routed
    {s : Trace}
    {entry : ClassifiedLine} :
    entry ∈ s.routed ↔ ∃ t, entry ∈ s.stream (.turret t) := by
  simp only [Trace.routed, List.mem_filterMap, Reading.routed?_eq_some, Trace.mem_stream]
  constructor
  · rintro ⟨r, hr, t, hplaced⟩
    exact ⟨t, r, hr, hplaced⟩
  · rintro ⟨t, r, hr, hplaced⟩
    exact ⟨r, hr, t, hplaced⟩

theorem Trace.routed_after
    (s : Trace)
    (outcome : Outcome)
    (line : Int) :
    (s.after outcome line).routed = s.routed ++ (outcome.reading line).routed?.toList := by
  cases hentry : (outcome.reading line).routed? with
  | none => simp [Trace.routed, Trace.after, hentry]
  | some entry => simp [Trace.routed, Trace.after, hentry]

namespace Machine

variable {m : Machine} {raw done : List Text} {s : Trace}

/-- The lines of both turrets are read in the order of their numbers. -/
theorem Reaches.routed_increasing
    (h : Reaches m raw done s) :
    s.routed.Pairwise fun a b => a.line < b.line := by
  refine List.pairwise_filterMap.mpr ((List.Pairwise.and_mem.mp h.history_increasing).imp ?_)
  rintro a b ⟨ha, hb, hlt⟩ entry hentry entry' hentry'
  obtain ⟨t, hplaced⟩ := Reading.routed?_eq_some.mp hentry
  obtain ⟨t', hplaced'⟩ := Reading.routed?_eq_some.mp hentry'
  rw [h.entry_line a ha _ _ hplaced, h.entry_line b hb _ _ hplaced']
  exact hlt

theorem nodup_of_increasing
    {entries : List ClassifiedLine}
    (h : entries.Pairwise fun a b => a.line < b.line) :
    entries.Nodup := by
  refine h.imp ?_
  rintro a b hlt rfl
  exact Int.lt_irrefl _ hlt

theorem Reaches.turretLines_nodup
    (h : Reaches m raw done s) :
    (s.toResult raw).turretLines.Nodup := by
  have hnodup : (s.stream (.turret .upper) ++ s.stream (.turret .lower)).Nodup := by
    refine List.nodup_append.mpr ⟨nodup_of_increasing (h.stream_increasing _),
      nodup_of_increasing (h.stream_increasing _), ?_⟩
    rintro a ha b hb rfl
    cases (h.entry_unique ha hb rfl).1
  exact (List.merge_perm_append _).nodup_iff.mpr hnodup

theorem Reaches.turretLines_ordered
    (h : Reaches m raw done s) :
    (s.toResult raw).turretLines.Pairwise fun a b => a.line ≤ b.line := by
  have hstream : ∀ stream, (s.stream stream).Pairwise fun a b =>
      decide (a.line ≤ b.line) = true := by
    intro stream
    refine (h.stream_increasing stream).imp ?_
    intro a b hlt
    exact decide_eq_true (Int.le_of_lt hlt)
  have hmerge : (s.toResult raw).turretLines.Pairwise fun a b =>
      decide (a.line ≤ b.line) = true := by
    refine List.pairwise_merge ?_ ?_ _ _ (hstream _) (hstream _)
    · intro a b c hab hbc
      simp only [decide_eq_true_eq] at hab hbc ⊢
      omega
    · intro a b
      simp only [Bool.or_eq_true, decide_eq_true_eq]
      omega
  exact hmerge.imp of_decide_eq_true

/-- The lines of both turrets, merged by their numbers, are the lines in the order in which
they were read. -/
theorem Reaches.routed_eq_merge
    (h : Reaches m raw done s) :
    (s.toResult raw).turretLines = s.routed := by
  have hmem : ∀ entry, entry ∈ (s.toResult raw).turretLines ↔ entry ∈ s.routed := by
    intro entry
    rw [Trace.mem_routed, Result.turretLines, List.mem_merge]
    constructor
    · rintro (hupper | hlower)
      · exact ⟨.upper, hupper⟩
      · exact ⟨.lower, hlower⟩
    · rintro ⟨t, hentry⟩
      cases t with
      | upper => exact Or.inl hentry
      | lower => exact Or.inr hentry
  have hincreasing := h.routed_increasing
  refine List.Perm.eq_of_pairwise ?_ h.turretLines_ordered
    (hincreasing.imp Int.le_of_lt)
    ((List.perm_ext_iff_of_nodup h.turretLines_nodup (nodup_of_increasing hincreasing)).mpr hmem)
  intro a b ha hb hab hba
  obtain ⟨t, ha⟩ := Trace.mem_routed.mp ((hmem a).mp ha)
  obtain ⟨t', hb⟩ := Trace.mem_routed.mp hb
  exact (h.entry_unique ha hb (by omega)).2

/-- A turret works on the line: it does not select one. -/
def isWork (m : Machine) (entry : ClassifiedLine) : Bool :=
  (m.dialect.selectedTurret? entry.text).isNone

/-- The errors of a line at its number. -/
def errorsAt (m : Machine) (entry : ClassifiedLine) : Log :=
  (m.blockErrors entry.text).map fun f => ⟨entry.line, f⟩

theorem filter_error_readSelection
    {p : Progress}
    {t : Turret}
    {marker : Text}
    {line : Int}
    {text : Text} :
    (readSelection p t marker line text).findings.filter (fun f => f.severity = .error) = [] := by
  rw [List.filter_eq_nil_iff]
  intro f hf hseverity
  have hraises := Finding.raisesErrors_of_severity (of_decide_eq_true hseverity)
  rw [rule_of_mem_readSelection hf] at hraises
  cases hraises

/-- A line makes the errors of its text where a turret works on it, and else none. -/
theorem Advance.errors_eq
    {p : Progress}
    {index line : Int}
    {text : Text}
    {outcome : Outcome}
    (h : Advance m raw p index line text outcome) :
    (outcome.findings.filter fun f => f.severity = .error).map (fun f => ⟨line, f⟩) =
      ((outcome.reading line).routed?.toList.filter m.isWork).flatMap m.errorsAt := by
  cases h with
  | header => rfl
  | common => rfl
  | @select t marker hselect =>
      have hwork : m.isWork ((p.states.get t).snapshot text line .turretSelect false) = false := by
        simp [isWork, TurretState.snapshot, hselect]
      rw [filter_error_readSelection]
      simp [Reading.routed?, Outcome.reading, readSelection, hwork]
  | @routed t signals hselect _ _ hchecks =>
      have hwork : m.isWork (m.routedEntry p t signals line text) = true := by
        simp [isWork, routedEntry, TurretState.snapshot, hselect]
      have hentry : ((m.routedOutcome raw p t signals index line text).reading
          line).routed?.toList = [m.routedEntry p t signals line text] := rfl
      rw [filter_error_routedOutcome hchecks, hentry, List.filter_cons_of_pos hwork]
      exact (List.append_nil _).symm

/-- The errors of a scan are those that the texts of its lines ask for, in order. -/
theorem Reaches.errors_eq
    (h : Reaches m raw done s) :
    Log.errors s.log = (s.routed.filter m.isWork).flatMap m.errorsAt := by
  induction h with
  | start => rfl
  | skip _ _ ih => exact ih
  | @advance done s line outcome before _ step ih =>
      rw [Trace.log_after, Trace.routed_after, List.filter_append, List.flatMap_append, ← ih,
        ← step.errors_eq, Log.errors, Log.withSeverity, List.filter_append, List.filter_map]
      rfl

/-- The errors of a program are those of the texts of its turrets' lines, one line after the
other. -/
theorem analyze_errors_by_text
    (m : Machine)
    (program : Text) :
    (m.config.Numeric → m.Writable → m.dialect.NamesTurrets → m.dialect.NamesSpindles →
        ∃ r, m.analyze program = .ok r) ∧
      (∀ r, m.analyze program = .ok r →
        Log.errors r.log = (r.turretLines.filter m.isWork).flatMap m.errorsAt) ∧
      ∀ limit, m.config.maxBlockLength.int? = some limit →
        ∀ length : Nat, m.config.tooLong length = true ↔ limit < length := by
  refine ⟨fun hconfig hwritable hturrets hspindles =>
    analyze_ok hconfig hwritable hturrets hspindles program,
    ?_, fun limit hlimit => Config.tooLong_iff hlimit⟩
  intro r hr
  obtain ⟨s, hreach, rfl⟩ := exists_reaches hr
  rw [hreach.routed_eq_merge]
  exact hreach.errors_eq

/-- One line with every kind of error, between lines that make none and a long one. -/
theorem analyze_errors_of_all_kinds :
    ∃ r, (Machine.mk { Config.integrex100 with maxBlockLength := Value.ofInt 12 }
          Dialect.integrex).analyze
        "G777\nG109 L2 G777\nG777 F0 G01 G778\nG109 L1\n(A LONG REMARK)\nG00".toList = .ok r ∧
      Log.errors r.log =
        (r.turretLines.filter (Machine.mk { Config.integrex100 with
          maxBlockLength := Value.ofInt 12 } Dialect.integrex).isWork).flatMap
            (Machine.mk { Config.integrex100 with maxBlockLength := Value.ofInt 12 }
              Dialect.integrex).errorsAt ∧
      (Log.errors r.log).map (fun d => (d.line, d.message)) =
        [(3, "Invalid or unsupported G-code: G777".toList),
          (3, "Invalid or unsupported G-code: G778".toList),
          (3, "Feed rate F0 will cause alarm 816 (FEEDRATE ZERO)".toList),
          (3, "Block exceeds 12 character limit (16 chars)".toList),
          (5, "Block exceeds 12 character limit (15 chars)".toList)] := by
  obtain ⟨hok, herrors, _⟩ := analyze_errors_by_text
    (Machine.mk { Config.integrex100 with maxBlockLength := Value.ofInt 12 } Dialect.integrex)
    "G777\nG109 L2 G777\nG777 F0 G01 G778\nG109 L1\n(A LONG REMARK)\nG00".toList
  obtain ⟨r, hr⟩ := hok ⟨⟨_, rfl⟩, ⟨_, rfl⟩, ⟨_, rfl⟩, ⟨_, rfl⟩⟩
    (writable_integrex rfl (by decide +kernel)) Dialect.integrex_namesTurrets
    Dialect.integrex_namesSpindles
  refine ⟨r, hr, herrors r hr, ?_⟩
  have hmessages : ((Machine.mk { Config.integrex100 with maxBlockLength := Value.ofInt 12 }
      Dialect.integrex).analyze
        "G777\nG109 L2 G777\nG777 F0 G01 G778\nG109 L1\n(A LONG REMARK)\nG00".toList).toOption.map
          (fun r => (Log.errors r.log).map (fun d => (d.line, d.message))) =
      some [(3, "Invalid or unsupported G-code: G777".toList),
        (3, "Invalid or unsupported G-code: G778".toList),
        (3, "Feed rate F0 will cause alarm 816 (FEEDRATE ZERO)".toList),
        (3, "Block exceeds 12 character limit (16 chars)".toList),
        (5, "Block exceeds 12 character limit (15 chars)".toList)] := by
    decide +kernel
  rw [hr] at hmessages
  exact Option.some.inj hmessages

end Machine
end DualTurret
