import DualTurret.Proofs.Block.Line
import DualTurret.Proofs.Scan.Moment

/-!
# Comments and line counts

A line is written as a comment when its text begins with a parenthesis.  The streams mark
such lines, and the counts of a result leave out the lines that are marked.  A line that
selects a turret is never marked, so one that is written as a comment counts all the same.
-/

namespace DualTurret

/-- The line is written as a comment. -/
def ClassifiedLine.opensComment (entry : ClassifiedLine) : Bool :=
  ['('].isPrefixOf entry.text

namespace Dialect

/-- The line is written as a comment and selects no turret. -/
def IsComment (d : Dialect) (entry : ClassifiedLine) : Prop :=
  ['('] <+: entry.text ∧ d.selectedTurret? entry.text = none

/-- The marks and counts of comments: the common section marks and counts by the text alone;
a turret also counts the selections that are written as comments. -/
structure CommentLaw (d : Dialect) (r : Result) : Prop where
  marks : ∀ stream, ∀ entry ∈ r.stream stream, entry.comment = true ↔ d.IsComment entry
  commonMarks : ∀ entry ∈ r.common, entry.comment = true ↔ ['('] <+: entry.text
  commonCount : r.statistics.common = r.common.countP fun entry => !entry.opensComment
  turretCount : ∀ t, r.statistics.lines.get t =
    (r.streams.get t).countP (fun entry => !entry.opensComment) +
      (r.streams.get t).countP fun entry =>
        entry.opensComment && (d.selectedTurret? entry.text).isSome

end Dialect

theorem ClassifiedLine.opensComment_iff
    (entry : ClassifiedLine) :
    entry.opensComment = true ↔ ['('] <+: entry.text :=
  List.isPrefixOf_iff_prefix

namespace Machine

variable {m : Machine} {raw done : List Text} {s : Trace}

/-- A line is marked as a comment by its text, unless it selects a turret. -/
theorem Reaches.comment_iff
    (h : Reaches m raw done s)
    {stream : Stream}
    {entry : ClassifiedLine}
    (hentry : entry ∈ s.stream stream) :
    entry.comment = true ↔ m.dialect.IsComment entry := by
  obtain ⟨first, line, s₀, outcome, hread, hplaced⟩ := h.exists_readAt_of_mem hentry
  have htext : Block.isComment (Text.trim line) = true ↔ ['('] <+: Text.trim line := by
    rw [Block.isComment_iff, Text.trim_trim]
  have step := hread.step
  cases step with
  | header => cases hplaced
  | common hselect =>
      cases hplaced
      exact htext.trans (and_iff_left hselect).symm
  | select hselect =>
      cases hplaced
      constructor
      · intro hcomment
        cases hcomment
      · rintro ⟨_, hnone⟩
        cases hselect.symm.trans hnone
  | routed hselect =>
      cases hplaced
      exact htext.trans (and_iff_left hselect).symm

/-- No line of the common section selects a turret. -/
theorem Reaches.selectedTurret?_common
    (h : Reaches m raw done s)
    {entry : ClassifiedLine}
    (hentry : entry ∈ s.stream .common) :
    m.dialect.selectedTurret? entry.text = none := by
  obtain ⟨first, line, s₀, outcome, hread, hplaced⟩ := h.exists_readAt_of_mem hentry
  have step := hread.step
  cases step with
  | header => cases hplaced
  | common hselect =>
      cases hplaced
      exact hselect
  | select => cases hplaced
  | routed => cases hplaced

/-- The lines of a stream that count are those that are not written as comments, and the
selections that are. -/
theorem Reaches.codeLines_eq
    (h : Reaches m raw done s)
    (stream : Stream) :
    Result.codeLines (s.stream stream) =
      (s.stream stream).countP (fun entry => !entry.opensComment) +
        (s.stream stream).countP fun entry =>
          entry.opensComment && (m.dialect.selectedTurret? entry.text).isSome := by
  have hcomment : ∀ entry ∈ s.stream stream, entry.comment =
      (entry.opensComment && (m.dialect.selectedTurret? entry.text).isNone) := by
    intro entry hentry
    rw [Bool.eq_iff_iff, h.comment_iff hentry, Dialect.IsComment, ← entry.opensComment_iff,
      Bool.and_eq_true, Option.isNone_iff_eq_none]
  rw [Result.codeLines, ← List.countP_eq_length_filter,
    List.countP_eq_countP_filter_add _ _ fun entry => !entry.opensComment, List.countP_filter,
    List.countP_filter]
  congr 1
  · refine List.countP_congr ?_
    intro entry hentry
    rw [hcomment entry hentry]
    cases entry.opensComment <;> simp
  · refine List.countP_congr ?_
    intro entry hentry
    rw [hcomment entry hentry]
    cases entry.opensComment <;> cases m.dialect.selectedTurret? entry.text <;> simp

/-- Comments are marked and counted by their text, save selections of a turret. -/
theorem analyze_marks_comments
    (m : Machine)
    (program : Text) :
    (m.config.Numeric → m.Writable → m.dialect.NamesTurrets → m.dialect.NamesSpindles →
        ∃ r, m.analyze program = .ok r) ∧
      ∀ r, m.analyze program = .ok r → m.dialect.CommentLaw r := by
  refine ⟨fun hconfig hwritable hturrets hspindles =>
    analyze_ok hconfig hwritable hturrets hspindles program, ?_⟩
  intro r hr
  obtain ⟨s, hreach, rfl⟩ := exists_reaches hr
  constructor
  · intro stream entry hentry
    rw [Trace.toResult_stream] at hentry
    exact hreach.comment_iff hentry
  · intro entry hentry
    rw [hreach.comment_iff hentry]
    exact and_iff_left (hreach.selectedTurret?_common hentry)
  · have hnone : (s.stream .common).countP (fun entry =>
        entry.opensComment && (m.dialect.selectedTurret? entry.text).isSome) = 0 := by
      rw [List.countP_eq_zero]
      intro entry hentry
      simp [hreach.selectedTurret?_common hentry]
    have hcount := hreach.codeLines_eq .common
    rw [hnone, Nat.add_zero] at hcount
    exact hcount
  · intro t
    cases t with
    | upper => exact hreach.codeLines_eq (.turret .upper)
    | lower => exact hreach.codeLines_eq (.turret .lower)

/-- Comments and code in each stream, with selections of either kind. -/
theorem analyze_marks_comments_of_each_stream :
    ∃ r, (Machine.ofPreset Config.defaultPreset).analyze
        "(A)\nG1\n(G109 L1)\n(B)\nM901\nG109 L2 (C)\n (D)\n(G109 L2)\n(E)".toList = .ok r ∧
      Dialect.integrex.CommentLaw r ∧
      r.statistics.common = 1 ∧ r.statistics.lines = ⟨2, 2⟩ := by
  obtain ⟨hok, hlaw⟩ := analyze_marks_comments (Machine.ofPreset Config.defaultPreset)
    "(A)\nG1\n(G109 L1)\n(B)\nM901\nG109 L2 (C)\n (D)\n(G109 L2)\n(E)".toList
  obtain ⟨r, hr⟩ := hok (Config.numeric_preset _) (Machine.writable_ofPreset _)
    Dialect.integrex_namesTurrets Dialect.integrex_namesSpindles
  refine ⟨r, hr, hlaw r hr, ?_⟩
  have hcounts : ((Machine.ofPreset Config.defaultPreset).analyze
      "(A)\nG1\n(G109 L1)\n(B)\nM901\nG109 L2 (C)\n (D)\n(G109 L2)\n(E)".toList).toOption.any
        (fun r => r.statistics.common = 1 ∧ r.statistics.lines = ⟨2, 2⟩) = true := by
    decide +kernel
  rw [hr] at hcounts
  exact of_decide_eq_true hcounts

/-- A selection that is written as a comment is not marked, and counts as a line. -/
theorem analyze_counts_commented_selection :
    ∃ r entry, (Machine.ofPreset Config.defaultPreset).analyze "(G109 L1)".toList = .ok r ∧
      r.streams.upper = [entry] ∧ ['('] <+: entry.text ∧ entry.comment = false ∧
      r.statistics.lines.upper ≠ r.streams.upper.countP fun entry => !entry.opensComment := by
  obtain ⟨r, hr⟩ := analyze_ok (m := Machine.ofPreset Config.defaultPreset)
    (Config.numeric_preset _) (Machine.writable_ofPreset _)
    Dialect.integrex_namesTurrets Dialect.integrex_namesSpindles
    "(G109 L1)".toList
  have hupper : ((Machine.ofPreset Config.defaultPreset).analyze
      "(G109 L1)".toList).toOption.any
        (fun r => r.streams.upper = [⟨"(G109 L1)".toList, 1, .turretSelect, false, {}⟩] ∧
          r.statistics.lines.upper = 1) = true := by
    decide +kernel
  rw [hr] at hupper
  obtain ⟨hstream, hcount⟩ := of_decide_eq_true hupper
  refine ⟨r, _, hr, hstream, ⟨_, rfl⟩, rfl, ?_⟩
  rw [hcount, hstream]
  decide

end Machine
end DualTurret
