import DualTurret.Proofs.Extension
import DualTurret.Proofs.Scan.Work

/-!
# Release after balance cutting

Where a line of a turret ends balance cutting, a wait code has to release the other turret:
on that line or on one of the raw lines after it, as far as the lookahead reaches.  Every raw
line in this window counts, also a blank one, decoration, a selection or a line of the other
turret, and a window that reaches past the program ends with its last line.  It does not
matter whether balance cutting is under way.
-/

namespace DualTurret

namespace Dialect

/-- A wait code stands on a raw line from the index on, within the lookahead and not past the
last line. -/
def Releases (d : Dialect) (raw : List Text) (lookahead index : Nat) : Prop :=
  ∃ j line, index ≤ j ∧ j ≤ min (index + lookahead) (raw.length - 1) ∧ raw[j]? = some line ∧
    (d.waitCode? (Text.trim line)).isSome = true

/-- What a result tells at a line that ends balance cutting, which is the raw line of this
index: one note, and one warning if nothing releases the other turret. -/
structure ReleaseAt
    (d : Dialect)
    (raw : List Text)
    (lookahead : Nat)
    (r : Result)
    (entry : ClassifiedLine)
    (index : Nat) : Prop where
  line : entry.line = index + 1
  text : ∃ line, raw[index]? = some line ∧ entry.text = Text.trim line
  noted : r.log.told .balanceEnd entry.line = ["Balance cutting ends".toList]
  warned : ¬ d.Releases raw lookahead index →
    r.log.told .release entry.line =
      ["Wait code required after ".toList ++ d.balanceEnd ++ " to release slave turret".toList]
  released : d.Releases raw lookahead index → r.log.told .release entry.line = []

/-- The warnings of a missing release and the notes on the end of balance cutting, at the lines
that end it and at no other line. -/
structure ReleaseLaw (d : Dialect) (raw : List Text) (lookahead : Nat) (r : Result) : Prop where
  atEnd : ∀ t entry, d.Ends r.stream t entry →
    ∃ index, d.ReleaseAt raw lookahead r entry index
  elsewhere : ∀ number, (∀ t entry, d.Ends r.stream t entry → entry.line ≠ number) →
    r.log.told .release number = [] ∧ r.log.told .balanceEnd number = []

end Dialect

/-- What stands in a window that begins in a list is what the list holds from there on, within
the window and not past the last position. -/
theorem mem_slice_iff
    {α : Type}
    {xs : List α}
    {index lookahead : Nat}
    {a : α} :
    a ∈ slice xs index (index + lookahead + 1) ↔
      ∃ j, index ≤ j ∧ j ≤ min (index + lookahead) (xs.length - 1) ∧ xs[j]? = some a := by
  have hend : (index + lookahead + 1 : Int).toNat = index + lookahead + 1 := by omega
  rw [slice_of_nonneg xs (by omega) (by omega), hend, Int.toNat_natCast, List.mem_iff_getElem?]
  simp only [List.getElem?_drop, List.getElem?_take]
  constructor
  · rintro ⟨k, hk⟩
    split_ifs at hk with hwindow
    obtain ⟨hlast, _⟩ := List.getElem?_eq_some_iff.mp hk
    exact ⟨index + k, by omega, by omega, hk⟩
  · rintro ⟨j, hfrom, hto, hj⟩
    refine ⟨j - index, ?_⟩
    rw [Nat.add_sub_cancel' hfrom, if_pos (by omega)]
    exact hj

namespace Machine

variable {m : Machine} {raw done : List Text} {s : Trace} {lookahead : Nat}

/-- The lookahead finds a wait code exactly if one stands within reach. -/
theorem waitsWithin_iff
    (m : Machine)
    (raw : List Text)
    (lookahead index : Nat) :
    m.waitsWithin raw lookahead index = true ↔ m.dialect.Releases raw lookahead index := by
  rw [waitsWithin, List.any_eq_true]
  constructor
  · rintro ⟨line, hline, hwait⟩
    obtain ⟨j, hfrom, hto, hj⟩ := mem_slice_iff.mp hline
    exact ⟨j, line, hfrom, hto, hj, hwait⟩
  · rintro ⟨j, line, hfrom, hto, hj, hwait⟩
    exact ⟨line, mem_slice_iff.mpr ⟨j, hfrom, hto, hj⟩, hwait⟩

/-- What the end of balance cutting finds at a line. -/
theorem endFindings_eq
    (hlookahead : m.config.releaseLookahead.int? = some (lookahead : Int))
    (index : Int)
    (text : Text) :
    (m.endChecks raw index text).flatMap Check.findings =
      if Block.holdsMarker text m.dialect.balanceEnd then
        (if m.waitsWithin raw lookahead index then []
          else [.releaseMissing m.dialect.balanceEnd]) ++ [.balanceEnds]
      else [] := by
  unfold endChecks
  split_ifs with hmarker hwait
  · simp [releaseCheck_eq hlookahead, hwait, Check.findings]
  · simp [releaseCheck_eq hlookahead, hwait, Check.findings]
  · rfl

/-- A release is asked for at an end of balance cutting without a wait code in reach. -/
theorem filter_release_endFindings
    (hlookahead : m.config.releaseLookahead.int? = some (lookahead : Int))
    (index : Int)
    (text : Text) :
    ((m.endChecks raw index text).flatMap Check.findings).filter Kind.release.includes =
      if Block.holdsMarker text m.dialect.balanceEnd && !m.waitsWithin raw lookahead index then
        [.releaseMissing m.dialect.balanceEnd]
      else [] := by
  rw [endFindings_eq hlookahead]
  cases Block.holdsMarker text m.dialect.balanceEnd with
  | false => rfl
  | true => cases m.waitsWithin raw lookahead index <;> rfl

theorem filter_balanceEnd_endFindings
    (hlookahead : m.config.releaseLookahead.int? = some (lookahead : Int))
    (index : Int)
    (text : Text) :
    ((m.endChecks raw index text).flatMap Check.findings).filter Kind.balanceEnd.includes =
      if Block.holdsMarker text m.dialect.balanceEnd then [.balanceEnds] else [] := by
  rw [endFindings_eq hlookahead]
  cases Block.holdsMarker text m.dialect.balanceEnd with
  | false => rfl
  | true => cases m.waitsWithin raw lookahead index <;> rfl

/-- What is told at a line that ends balance cutting. -/
theorem Reaches.releaseAt
    (hlookahead : m.config.releaseLookahead.int? = some (lookahead : Int))
    (h : Reaches m raw raw s)
    {t : Turret}
    {entry : ClassifiedLine}
    (hend : m.dialect.Ends s.stream t entry) :
    ∃ index, m.dialect.ReleaseAt raw lookahead (s.toResult raw) entry index := by
  obtain ⟨hwork, hmarker⟩ := hend
  obtain ⟨first, line, rest, hraw, _, hnumber, htext⟩ := h.exists_raw hwork.1
  obtain ⟨p, signals, htold⟩ := h.told_work hwork
  have hindex : entry.line - 1 = (first.length : Int) := by omega
  have hnotes : s.log.told .balanceEnd entry.line = ["Balance cutting ends".toList] := by
    rw [htold]
    show (((m.endChecks raw _ _).flatMap Check.findings).filter _).map _ = _
    rw [filter_balanceEnd_endFindings hlookahead, if_pos hmarker]
    rfl
  have hwarnings : s.log.told .release entry.line =
      if m.waitsWithin raw lookahead first.length then []
      else [(Finding.releaseMissing m.dialect.balanceEnd).message] := by
    rw [htold]
    show (((m.endChecks raw _ _).flatMap Check.findings).filter _).map _ = _
    rw [filter_release_endFindings hlookahead, hmarker, hindex]
    cases m.waitsWithin raw lookahead first.length <;> rfl
  refine ⟨first.length, hnumber, ⟨line, by simp [hraw], htext⟩, hnotes, ?_, ?_⟩
  · intro hmissing
    rw [← waitsWithin_iff] at hmissing
    exact hwarnings.trans (if_neg hmissing)
  · intro hreleases
    rw [← waitsWithin_iff] at hreleases
    exact hwarnings.trans (if_pos hreleases)

/-- Nothing of the end of balance cutting is told where it does not end. -/
theorem Reaches.not_told_of_not_ends
    (hlookahead : m.config.releaseLookahead.int? = some (lookahead : Int))
    (h : Reaches m raw done s)
    {number : Int}
    (hnone : ∀ t entry, m.dialect.Ends s.stream t entry → entry.line ≠ number)
    {kind : Kind}
    (hkind : kind.rule = .balanceEnd) :
    s.log.told kind number = [] := by
  refine h.told_eq_nil kind ?_
  intro t entry hwork hline p signals
  have hmarker : ¬ Block.holdsMarker entry.text m.dialect.balanceEnd = true :=
    fun hmarker => hnone t entry ⟨hwork, hmarker⟩ hline
  rw [hkind]
  show ((m.endChecks raw _ _).flatMap Check.findings).filter _ = _
  rw [endFindings_eq hlookahead, if_neg hmarker, List.filter_nil]

/-- At each line that ends balance cutting one warning is made if no raw line in the window
releases the other turret and else none, and at no other line is there such a warning. -/
theorem analyze_asks_for_release
    (m : Machine)
    (program : Text)
    (lookahead : Nat)
    (hlookahead : m.config.releaseLookahead.int? = some (lookahead : Int)) :
    (m.config.Numeric → m.Writable → m.dialect.NamesTurrets → m.dialect.NamesSpindles →
        ∃ r, m.analyze program = .ok r) ∧
      ∀ r, m.analyze program = .ok r →
        m.dialect.ReleaseLaw (Text.lines program) lookahead r := by
  refine ⟨fun hconfig hwritable hturrets hspindles =>
    analyze_ok hconfig hwritable hturrets hspindles program, ?_⟩
  intro r hr
  obtain ⟨s, hreach, rfl⟩ := exists_reaches hr
  constructor
  · intro t entry hend
    rw [Trace.toResult_stream] at hend
    exact hreach.releaseAt hlookahead hend
  · intro number hnone
    rw [Trace.toResult_stream] at hnone
    exact ⟨hreach.not_told_of_not_ends hlookahead hnone rfl,
      hreach.not_told_of_not_ends hlookahead hnone rfl⟩

/-- With a lookahead of two: a release at the edge of the window, on decoration, on the line
itself and on a selection; one that comes a line too late; and a window cut off by the end of the
program.  Ends on a common line and on a selection do not count. -/
theorem analyze_asks_for_each_release :
    ∃ r, (Machine.mk { Config.integrex100 with releaseLookahead := Value.ofInt 2 }
          Dialect.integrex).analyze
        ("M563\nG109 L1 M563\nM563\n\n(= P1 =)\nM563\n\n\nM950\nM563 P7\n\nM563\n" ++
          "G109 L2 P3\nM563").toList = .ok r ∧
      Dialect.integrex.ReleaseLaw
        (Text.lines ("M563\nG109 L1 M563\nM563\n\n(= P1 =)\nM563\n\n\nM950\nM563 P7\n\nM563\n" ++
          "G109 L2 P3\nM563").toList) 2 r ∧
      (Log.warnings r.log).map (fun d => d.line) = [6, 14] ∧
      ((Log.notes r.log).filter fun d => Kind.balanceEnd.includes d.finding).map
        (fun d => d.line) = [3, 6, 10, 12, 14] := by
  obtain ⟨hok, hlaw⟩ := analyze_asks_for_release
    (Machine.mk { Config.integrex100 with releaseLookahead := Value.ofInt 2 } Dialect.integrex)
    ("M563\nG109 L1 M563\nM563\n\n(= P1 =)\nM563\n\n\nM950\nM563 P7\n\nM563\n" ++
      "G109 L2 P3\nM563").toList 2 rfl
  obtain ⟨r, hr⟩ := hok ⟨⟨_, rfl⟩, ⟨_, rfl⟩, ⟨_, rfl⟩, ⟨_, rfl⟩⟩
    (writable_integrex rfl (by decide +kernel)) Dialect.integrex_namesTurrets
    Dialect.integrex_namesSpindles
  refine ⟨r, hr, hlaw r hr, ?_⟩
  have hlines : ((Machine.mk { Config.integrex100 with releaseLookahead := Value.ofInt 2 }
      Dialect.integrex).analyze
        ("M563\nG109 L1 M563\nM563\n\n(= P1 =)\nM563\n\n\nM950\nM563 P7\n\nM563\n" ++
          "G109 L2 P3\nM563").toList).toOption.any
        (fun r => (Log.warnings r.log).map (fun d => d.line) = [6, 14] ∧
          ((Log.notes r.log).filter fun d => Kind.balanceEnd.includes d.finding).map
            (fun d => d.line) = [3, 6, 10, 12, 14]) = true := by
    decide +kernel
  rw [hr] at hlines
  exact of_decide_eq_true hlines

end Machine
end DualTurret
