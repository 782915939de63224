import DualTurret.Proofs.Block.Words
import DualTurret.Proofs.SingleTurret

/-!
# The wait history of a turret

A turret's wait history holds one entry for each line that it works on and that has a wait code,
in the order of the lines, and nothing else.  So the entries are numbered in increasing order,
no line number stands twice in the two histories, and each value lies in the range of its
address.  A code before the first selection, in decoration or on a selection enters no history.
-/

namespace DualTurret

namespace Dialect

def waitRange
    (d : Dialect) :
    WaitAddress → ValueRange
  | .m => d.waitM
  | .p => d.waitP

/-- The line that follows some others issues no wait code: it is blank or decoration, selects a
turret, or comes before the first selection. -/
def IssuesNone (d : Dialect) (before : List Text) (line : Text) : Prop :=
  Machine.isSkipped line = true ∨ d.selects line = true ∨
    ∀ other ∈ before ++ [line], d.selects other = false

/-- What the wait histories of a result hold, and what they do not hold. -/
structure WaitLaw (d : Dialect) (raw : List Text) (r : Result) : Prop where
  history : ∀ t, (r.finalStates.get t).waits =
    ((r.stream (.turret t)).filter fun entry => (d.selectedTurret? entry.text).isNone).filterMap
      fun entry => (d.waitCode? entry.text).map fun wait => ⟨wait.code, entry.line, wait.value⟩
  increasing : ∀ t, (r.finalStates.get t).waits.Pairwise fun a b => a.line < b.line
  unique : ∀ t t' a b, a ∈ (r.finalStates.get t).waits → b ∈ (r.finalStates.get t').waits →
    a.line = b.line → t = t' ∧ a = b
  ranged : ∀ t, ∀ wait ∈ (r.finalStates.get t).waits, ∃ address digits,
    wait.code = WaitAddress.letter address :: digits ∧
      (d.waitRange address).low ≤ wait.value ∧ wait.value ≤ (d.waitRange address).high
  excluded : ∀ before line rest, raw = before ++ line :: rest → d.IssuesNone before line →
    ∀ t, ∀ wait ∈ (r.finalStates.get t).waits, wait.line ≠ before.length + 1

/-- A wait code lies in the range of its address. -/
theorem waitRange_contains
    {d : Dialect}
    {line : Text}
    {wait : WaitCode}
    (h : d.waitCode? line = some wait) :
    (d.waitRange wait.address).contains wait.value = true := by
  have hfound : ∀ address, (Block.waitCodes address (d.waitRange address) line).head? = some wait →
      (d.waitRange wait.address).contains wait.value = true := by
    intro address hhead
    obtain ⟨rfl, _, _, hrange⟩ := Block.mem_waitCodes_iff.mp (List.mem_of_head? hhead)
    exact hrange
  unfold waitCode? Block.waitCode? at h
  split at h
  · rename_i first hfirst
    cases h
    exact hfound .m hfirst
  · exact hfound .p h

/-- A recorded wait code comes from a line that a turret works on. -/
theorem waitRecord?_eq_some_iff
    {d : Dialect}
    {entry : ClassifiedLine}
    {record : WaitEntry} :
    d.waitRecord? entry = some record ↔
      d.selectedTurret? entry.text = none ∧ ∃ wait, d.waitCode? entry.text = some wait ∧
        record = ⟨wait.code, entry.line, wait.value⟩ := by
  cases hselect : d.selectedTurret? entry.text with
  | some held => simp [waitRecord?_of_select hselect]
  | none => simp [waitRecord?_of_work hselect, eq_comm]

theorem filterMap_waitRecord?
    (d : Dialect)
    (entries : List ClassifiedLine) :
    entries.filterMap d.waitRecord? =
      (entries.filter fun entry => (d.selectedTurret? entry.text).isNone).filterMap
        fun entry => (d.waitCode? entry.text).map fun wait =>
          ⟨wait.code, entry.line, wait.value⟩ := by
  rw [List.filterMap_filter]
  refine List.filterMap_congr ?_
  intro entry _
  cases hselect : d.selectedTurret? entry.text with
  | some held => simp [waitRecord?_of_select hselect]
  | none => simp [waitRecord?_of_work hselect]

end Dialect

namespace Machine

variable {m : Machine} {raw done : List Text} {s : Trace}

/-- A recorded wait code comes from a line of the stream, with its number. -/
theorem Reaches.exists_entry_of_wait
    (h : Reaches m raw done s)
    {t : Turret}
    {record : WaitEntry}
    (hrecord : record ∈ (s.progress.states.get t).waits) :
    ∃ entry, m.dialect.WorkLine s.stream t entry ∧ entry.line = record.line ∧
      m.dialect.waitRecord? entry = some record := by
  rw [h.waits_eq, List.mem_filterMap] at hrecord
  obtain ⟨entry, hentry, hissued⟩ := hrecord
  obtain ⟨hselect, wait, _, rfl⟩ := Dialect.waitRecord?_eq_some_iff.mp hissued
  exact ⟨entry, ⟨hentry, hselect⟩, rfl, hissued⟩

/-- The wait codes are recorded in the order of their lines. -/
theorem Reaches.waits_increasing
    (h : Reaches m raw done s)
    (t : Turret) :
    (s.progress.states.get t).waits.Pairwise fun a b => a.line < b.line := by
  rw [h.waits_eq]
  refine List.pairwise_filterMap.mpr ((h.stream_increasing _).imp ?_)
  intro entry entry' hlt record hrecord record' hrecord'
  obtain ⟨_, _, _, rfl⟩ := Dialect.waitRecord?_eq_some_iff.mp hrecord
  obtain ⟨_, _, _, rfl⟩ := Dialect.waitRecord?_eq_some_iff.mp hrecord'
  exact hlt

/-- A line number stands at most once in the histories of both turrets. -/
theorem Reaches.wait_unique
    (h : Reaches m raw done s)
    {t t' : Turret}
    {a b : WaitEntry}
    (ha : a ∈ (s.progress.states.get t).waits)
    (hb : b ∈ (s.progress.states.get t').waits)
    (hline : a.line = b.line) :
    t = t' ∧ a = b := by
  obtain ⟨entry, hentry, hnumber, hissued⟩ := h.exists_entry_of_wait ha
  obtain ⟨entry', hentry', hnumber', hissued'⟩ := h.exists_entry_of_wait hb
  obtain ⟨hstream, rfl⟩ := h.entry_unique hentry.1 hentry'.1
    (hnumber.trans (hline.trans hnumber'.symm))
  cases hstream
  exact ⟨rfl, Option.some.inj (hissued.symm.trans hissued')⟩

/-- Every recorded wait code lies in the range of its letter. -/
theorem Reaches.wait_ranged
    (h : Reaches m raw done s)
    {t : Turret}
    {record : WaitEntry}
    (hrecord : record ∈ (s.progress.states.get t).waits) :
    ∃ address digits, record.code = WaitAddress.letter address :: digits ∧
      (m.dialect.waitRange address).low ≤ record.value ∧
      record.value ≤ (m.dialect.waitRange address).high := by
  obtain ⟨entry, _, _, hissued⟩ := h.exists_entry_of_wait hrecord
  obtain ⟨_, wait, hwait, rfl⟩ := Dialect.waitRecord?_eq_some_iff.mp hissued
  have hrange := Dialect.waitRange_contains hwait
  exact ⟨wait.address, wait.digits, rfl, ValueRange.contains_iff.mp hrange⟩

/-- Where a turret has a line, a line has selected a turret. -/
theorem Reaches.exists_selects_of_mem
    (h : Reaches m raw done s)
    {t : Turret}
    {entry : ClassifiedLine}
    (hentry : entry ∈ s.stream (.turret t)) :
    ∃ line ∈ done, m.dialect.selects line = true := by
  by_contra hnone
  refine h.not_mem_turret ?_ t entry hentry
  rw [h.turret_eq_none_iff, List.countP_eq_zero]
  intro line hline hselects
  exact hnone ⟨line, hline, hselects⟩

/-- A line that a turret works on is none of those that issue no wait code. -/
theorem Reaches.not_issuesNone
    (h : Reaches m raw done s)
    {t : Turret}
    {entry : ClassifiedLine}
    (hwork : m.dialect.WorkLine s.stream t entry)
    {before rest : List Text}
    {line : Text}
    (hdone : done = before ++ line :: rest)
    (hline : entry.line = before.length + 1) :
    ¬ m.dialect.IssuesNone before line := by
  obtain ⟨first, line', rest', hsplit, hskip, hnumber, htext⟩ := h.exists_raw hwork.1
  have hlength : first.length = before.length := by omega
  obtain ⟨rfl, hcons⟩ := List.append_inj (hsplit.symm.trans hdone) hlength
  obtain ⟨rfl, rfl⟩ := List.cons.inj hcons
  rintro (hskipped | hselects | hnone)
  · rw [hskip] at hskipped
    cases hskipped
  · rw [Dialect.selects_eq_of_read hskip, ← htext, hwork.2] at hselects
    cases hselects
  · rw [← List.singleton_append, ← List.append_assoc] at hdone
    obtain ⟨s₀, hreach, hpassed⟩ := h.exists_passed _ _ hdone
    have hmem : entry ∈ s₀.stream (.turret t) := by
      refine hpassed.mem_stream_iff.mpr ⟨hwork.1, ?_⟩
      rw [List.length_append, List.length_singleton]
      omega
    obtain ⟨other, hother, hselects⟩ := hreach.exists_selects_of_mem hmem
    rw [hnone other hother] at hselects
    cases hselects

/-- The wait history of each turret is what the lines that it works on have issued, line by
line, and nothing else. -/
theorem analyze_records_waits
    (m : Machine)
    (program : Text) :
    (m.config.Numeric → m.Writable → m.dialect.NamesTurrets → m.dialect.NamesSpindles →
        ∃ r, m.analyze program = .ok r) ∧
      ∀ r, m.analyze program = .ok r → m.dialect.WaitLaw (Text.lines program) r := by
  refine ⟨fun hconfig hwritable hturrets hspindles =>
    analyze_ok hconfig hwritable hturrets hspindles program, ?_⟩
  intro r hr
  obtain ⟨s, hreach, rfl⟩ := exists_reaches hr
  constructor
  · intro t
    rw [Trace.toResult_stream]
    exact (hreach.waits_eq t).trans (m.dialect.filterMap_waitRecord? _)
  · exact hreach.waits_increasing
  · intro t t' a b
    exact hreach.wait_unique
  · intro t record
    exact hreach.wait_ranged
  · intro before line rest hraw hnone t record hrecord hline
    obtain ⟨entry, hwork, hnumber, _⟩ := hreach.exists_entry_of_wait hrecord
    exact hreach.not_issuesNone hwork hraw (hnumber.trans hline) hnone

/-- Codes in the common section, in decoration and on selections are not recorded; those of
interleaved sections are, with an M code before a P code and out of range codes passed over. -/
theorem analyze_records_interleaved_waits :
    ∃ r, (Machine.ofPreset Config.defaultPreset).analyze
        ("P1\nO2 M950\nG109 L1 P3\nP007 M997\n(= P4\nG109 L2\nM998 P5\nM949\n(P6)\n" ++
          "G109 L1 M951\nP0 P8 P9").toList = .ok r ∧
      Dialect.integrex.WaitLaw
        (Text.lines ("P1\nO2 M950\nG109 L1 P3\nP007 M997\n(= P4\nG109 L2\nM998 P5\nM949\n(P6)\n" ++
          "G109 L1 M951\nP0 P8 P9").toList) r ∧
      r.finalStates.upper.waits = [⟨"M997".toList, 4, 997⟩, ⟨"P8".toList, 11, 8⟩] ∧
      r.finalStates.lower.waits = [⟨"P5".toList, 7, 5⟩, ⟨"P6".toList, 9, 6⟩] := by
  obtain ⟨hok, hlaw⟩ := analyze_records_waits (Machine.ofPreset Config.defaultPreset)
    ("P1\nO2 M950\nG109 L1 P3\nP007 M997\n(= P4\nG109 L2\nM998 P5\nM949\n(P6)\n" ++
      "G109 L1 M951\nP0 P8 P9").toList
  obtain ⟨r, hr⟩ := hok (Config.numeric_preset _) (Machine.writable_ofPreset _)
    Dialect.integrex_namesTurrets Dialect.integrex_namesSpindles
  refine ⟨r, hr, hlaw r hr, ?_⟩
  have hwaits : ((Machine.ofPreset Config.defaultPreset).analyze
      ("P1\nO2 M950\nG109 L1 P3\nP007 M997\n(= P4\nG109 L2\nM998 P5\nM949\n(P6)\n" ++
        "G109 L1 M951\nP0 P8 P9").toList).toOption.any
        (fun r =>
          r.finalStates.upper.waits = [⟨"M997".toList, 4, 997⟩, ⟨"P8".toList, 11, 8⟩] ∧
          r.finalStates.lower.waits = [⟨"P5".toList, 7, 5⟩, ⟨"P6".toList, 9, 6⟩]) = true := by
    decide +kernel
  rw [hr] at hwaits
  exact of_decide_eq_true hwaits

end Machine
end DualTurret
