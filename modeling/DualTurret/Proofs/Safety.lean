import DualTurret.Proofs.Block.Conversion
import DualTurret.Proofs.Scan.Findings
import Mathlib.Data.List.Nodup

/-!
# What can stop an analysis

With numeric limits and names that stand for turrets and spindles, only one thing can stop a
scan: a message that shows a number of more than 4300 digits.  The texts that a scan converts are
numbers, the names it looks up are known, and it never reads a line of a turret before one is
selected.  The last point is an invariant of every scan that starts fresh, whatever lines it is
given.

Main facts:
* `Scan.Stepped.coherent`: lines are routed exactly when a turret is selected;
* `Scan.Stepped.fault_eq_some_iff`: what stops a step;
* `Machine.analyzeValue_returns`: every other text has an analysis.
-/

namespace DualTurret

/-- The scans that reading lines one at a time leads to, from a fresh scan.  The lines may
carry any numbers and texts. -/
inductive Scan.Stepped
    (m : Machine)
    (raw : List Text) :
    Scan → Prop
  | fresh : Stepped m raw {}
  | step {s : Scan} (index line : Int) (text : Text) (before : Stepped m raw s) :
      Stepped m raw (s.step m raw index line text).1

/-- Every number that reading a line converts is written as one. -/
structure Block.SafeToConvert (line : Text) : Prop where
  words : ∀ address, ∀ digits ∈ wholeWords address line, Converts digits
  speed : ∀ digits, speedDigits? line = some digits → Converts digits
  feed : ∀ rate, feedRate? line = some rate →
    ∃ number ∈ findAll feedAt none line, DecimalNumeral number ∧ rate = decimalValue number

/-- Reading a line converts nothing but number texts. -/
theorem Block.safeToConvert (line : Text) : SafeToConvert line where
  words _ _ := converts_of_mem_wholeWords
  speed _ := converts_of_speedDigits?
  feed _ := exists_decimalNumeral

/-- The table has an entry for the name, and it is this one if each name has one entry only. -/
structure Dialect.Finds (table : List (Text × Text)) (name marker : Text) : Prop where
  known : ∃ found, table.lookup name = some found
  unique : (table.map Prod.fst).Nodup → table.lookup name = some marker

namespace Dialect

theorem exists_lookup_of_mem
    {table : List (Text × Text)}
    {name marker : Text}
    (h : (name, marker) ∈ table) :
    ∃ found, table.lookup name = some found := by
  cases hlookup : table.lookup name with
  | some found => exact ⟨found, rfl⟩
  | none =>
      have hdiffers := List.lookup_eq_none_iff.mp hlookup _ h
      simp at hdiffers

theorem lookup_of_mem
    {table : List (Text × Text)}
    (hkeys : (table.map Prod.fst).Nodup)
    {name marker : Text}
    (h : (name, marker) ∈ table) :
    table.lookup name = some marker := by
  induction table with
  | nil => cases h
  | cons entry table ih =>
      obtain ⟨key, value⟩ := entry
      obtain ⟨hfirst, hrest⟩ := List.nodup_cons.mp hkeys
      rcases List.mem_cons.mp h with hhead | htail
      · cases hhead
        exact List.lookup_cons_self
      · have hkey : name ≠ key := by
          rintro rfl
          exact hfirst (List.mem_map.mpr ⟨(name, marker), htail, rfl⟩)
        rw [List.lookup_cons, beq_eq_false_iff_ne.mpr hkey]
        exact ih hrest htail

/-- A name that a line holds is found again in its table. -/
theorem finds_of_heldName?
    {table : List (Text × Text)}
    {line name marker : Text}
    (h : Block.heldName? line table = some (name, marker)) :
    Finds table name marker :=
  ⟨exists_lookup_of_mem (List.mem_of_find?_eq_some h),
    fun hkeys => lookup_of_mem hkeys (List.mem_of_find?_eq_some h)⟩

/-- A selected turret is one of the two. -/
theorem NamesTurrets.ofName
    {d : Dialect}
    (hd : d.NamesTurrets)
    {line name marker : Text}
    (h : d.selectedTurret? line = some (name, marker)) :
    ∃ t, Turret.ofName name = .ok t := by
  obtain ⟨t, rfl⟩ := hd _ (List.mem_of_find?_eq_some h)
  exact ⟨t, Turret.ofName_name t⟩

/-- A selected spindle is one of the two. -/
theorem NamesSpindles.ofName
    {d : Dialect}
    (hd : d.NamesSpindles)
    {line name marker : Text}
    (h : d.selectedSpindle? line = some (name, marker)) :
    ∃ spindle, Spindle.ofName name = .ok spindle := by
  obtain ⟨spindle, rfl⟩ := hd _ (List.mem_of_find?_eq_some h)
  exact ⟨spindle, by cases spindle <;> rfl⟩

end Dialect

/-- The dialect of the lathes with another range of wait codes. -/
def Dialect.waitingFor (range : ValueRange) : Dialect :=
  { integrex with waitM := range }

/-- A configuration with numeric limits for a control that nobody knows. -/
def Config.unknownControl : Config :=
  { integrex100 with dialect := .text (DocText.ofText "nope".toList) }

section

variable {m : Machine} {raw : List Text} {s : Scan}

/-- Whatever lines a scan is given, and wherever they stop, lines are routed exactly when a
turret is selected. -/
theorem Scan.Stepped.coherent
    (hturrets : m.dialect.NamesTurrets)
    (h : s.Stepped m raw) :
    s.progress.Coherent := by
  induction h with
  | fresh => rfl
  | step index line text _ ih =>
      rw [Scan.step_eq, Scan.progress_after]
      exact Machine.readLine_coherent hturrets ih raw index line text

/-- Every message of the log can be written. -/
theorem Scan.Stepped.isWritable_of_mem_log
    (hturrets : m.dialect.NamesTurrets)
    (h : s.Stepped m raw) :
    ∀ d ∈ s.log, d.finding.isWritable = true := by
  induction h with
  | fresh =>
      intro d hd
      cases hd
  | step index line text before ih =>
      intro d hd
      rw [Scan.step_eq, Scan.log_after] at hd
      rcases List.mem_append.mp hd with hold | hnew
      · exact ih d hold
      · obtain ⟨f, hf, rfl⟩ := List.mem_map.mp hnew
        exact Machine.isWritable_of_mem_readLine hturrets (before.coherent hturrets) hf

/-- A step of a scan is stopped by a message that can not be written, and by nothing else. -/
theorem Scan.Stepped.fault_eq_some_iff
    (hconfig : m.config.Numeric)
    (hturrets : m.dialect.NamesTurrets)
    (hspindles : m.dialect.NamesSpindles)
    (h : s.Stepped m raw)
    (index line : Int)
    (text : Text)
    (fault : Fault) :
    (s.step m raw index line text).2 = some fault ↔
      fault = .tooLong ∧ m.Unwritten s.progress text := by
  rw [Scan.step_eq]
  exact Machine.readLine_fault_eq_some_iff hconfig hturrets hspindles (h.coherent hturrets)

/-- The scan of a program moves by such steps. -/
theorem Machine.Reaches.stepped
    {done : List Text}
    {s : Trace}
    (h : m.Reaches raw done s) :
    s.scan.Stepped m raw := by
  induction h with
  | start => exact .fresh
  | skip _ _ ih => exact ih
  | @advance done s line outcome before _ step ih =>
      obtain ⟨hread, _⟩ := step.readLine_eq before.coherent
      have hnext : (s.scan.step m raw done.length (done.length + 1) (Text.trim line)).1 =
          (s.after outcome (done.length + 1)).scan := by
        rw [Scan.step_eq, Trace.scan_after, ← hread]
        rfl
      rw [← hnext]
      exact .step _ _ _ ih

end

/-- A power of ten with this many zeros can not be written. -/
theorem not_isWritableWhole_pow
    {places : Nat}
    (h : maxWholeDigits ≤ places) :
    ¬ isWritableWhole (Nat.pow 10 places : Nat) = true := by
  rw [isWritableWhole_iff, Int.natAbs_natCast, Nat.not_lt]
  generalize maxWholeDigits = most at h
  exact Nat.pow_le_pow_right (by decide) h

namespace Machine

/-- Every text has an analysis, unless a number that messages show is too long: it is the view of
a scan in which lines are routed exactly when a turret is selected.  Nothing but such a number
stops a step of a scan, every text that is converted is a number text, and every name that is
looked up is known. -/
theorem analyzeValue_returns
    (m : Machine)
    (hconfig : m.config.Numeric)
    (hturrets : m.dialect.NamesTurrets)
    (hspindles : m.dialect.NamesSpindles) :
    (∀ program : DocText,
      (∃ s : Scan, s.Stepped m (Text.lines program.toText) ∧
        m.analyzeValue (.text program) = .ok (s.toResult (Text.lines program.toText))) ∨
      (¬ m.Writable ∧ m.analyzeValue (.text program) = .error (.fault .tooLong))) ∧
    (∀ raw (s : Scan), s.Stepped m raw →
      (s.progress.routing = true ↔ ∃ t, s.progress.turret = some t) ∧
      (∀ d ∈ s.log, d.finding.isWritable = true) ∧
      ∀ index line text fault, (s.step m raw index line text).2 = some fault ↔
        fault = .tooLong ∧ m.Unwritten s.progress text) ∧
    (m.Writable → ∀ p text, ¬ m.Unwritten p text) ∧
    (∀ line, Block.SafeToConvert line) ∧
    (∀ line name marker, m.dialect.selectedTurret? line = some (name, marker) →
      (∃ t, Turret.ofName name = .ok t) ∧ Dialect.Finds m.dialect.turretSelect name marker) ∧
    (∀ line name marker, m.dialect.selectedSpindle? line = some (name, marker) →
      (∃ spindle, Spindle.ofName name = .ok spindle) ∧
        Dialect.Finds m.dialect.spindleSelect name marker) := by
  refine ⟨?_, ?_, Writable.not_unwritten, Block.safeToConvert, ?_, ?_⟩
  · intro program
    rcases analyze_ok_or_tooLong hconfig hturrets hspindles program.toText with
      ⟨r, hr⟩ | ⟨hlong, hstop⟩
    · obtain ⟨s, hreach, rfl⟩ := exists_reaches hr
      exact Or.inl ⟨s.scan, hreach.stepped, by simp only [analyzeValue, hr, Trace.toResult]⟩
    · exact Or.inr ⟨hlong, by simp only [analyzeValue, hstop]⟩
  · intro raw s hs
    have hcoherent := hs.coherent hturrets
    refine ⟨?_, hs.isWritable_of_mem_log hturrets,
      hs.fault_eq_some_iff hconfig hturrets hspindles⟩
    rw [hcoherent, Option.isSome_iff_exists]
  · intro line name marker hselect
    exact ⟨hturrets.ofName hselect, Dialect.finds_of_heldName? hselect⟩
  · intro line name marker hselect
    exact ⟨hspindles.ofName hselect, Dialect.finds_of_heldName? hselect⟩

/-- Half of a surrogate pair, a speed of twenty digits and a feed rate in Arabic digits. -/
theorem analyzeValue_returns_odd_text :
    ∃ r, (ofPreset []).analyzeValue
        (.text (0xD800 :: DocText.ofText "\nG109 L1\nS099999999999999999999 F٣.".toList)) = .ok r ∧
      r.common.length = 1 ∧ r.streams.upper.length = 2 ∧
      Block.Converts "099999999999999999999".toList := by
  obtain ⟨hreturns, _, _, hnumbers, _⟩ := analyzeValue_returns (ofPreset [])
    (Config.numeric_preset []) Dialect.integrex_namesTurrets Dialect.integrex_namesSpindles
  rcases hreturns (0xD800 :: DocText.ofText "\nG109 L1\nS099999999999999999999 F٣.".toList) with
    ⟨s, _, hs⟩ | ⟨hlong, _⟩
  · have hlengths : ((ofPreset []).analyzeValue
        (.text (0xD800 :: DocText.ofText
          "\nG109 L1\nS099999999999999999999 F٣.".toList))).toOption.map
            (fun r => (r.common.length, r.streams.upper.length)) = some (1, 2) := by
      decide +kernel
    rw [hs] at hlengths
    obtain ⟨hcommon, hupper⟩ := Prod.mk.inj (Option.some.inj hlengths)
    exact ⟨_, hs, hcommon, hupper,
      (hnumbers "S099999999999999999999".toList).words 'S' _ (by decide +kernel)⟩
  · exact absurd (writable_ofPreset []) hlong

/-- A line that asks for a message that can not be written stops the analysis. -/
theorem Reaches.analyze_eq_tooLong
    {m : Machine}
    {program line : Text}
    {done rest : List Text}
    {s : Trace}
    (hreach : Reaches m (Text.lines program) done s)
    (hconfig : m.config.Numeric)
    (hturrets : m.dialect.NamesTurrets)
    (hspindles : m.dialect.NamesSpindles)
    (hlines : Text.lines program = done ++ line :: rest)
    (hskip : isSkipped line = false)
    (hunwritten : m.Unwritten s.progress (Text.trim line)) :
    m.analyze program = .error .tooLong := by
  have hfault : (m.readLine (Text.lines program) s.progress done.length (done.length + 1)
      (Text.trim line)).fault = some .tooLong :=
    (readLine_fault_eq_some_iff hconfig hturrets hspindles hreach.coherent).mpr ⟨rfl, hunwritten⟩
  rcases analyze_ok_or_tooLong hconfig hturrets hspindles program with ⟨r, hr⟩ | ⟨_, hstop⟩
  · obtain ⟨s', hread, _⟩ := exists_readLines hr
    have hsplit : Text.lines program = (done ++ [line]) ++ rest := by
      rw [hlines, List.append_assoc, List.singleton_append]
    nth_rewrite 2 [hsplit] at hread
    obtain ⟨s₀, hread, _⟩ := readLines_of_append hread
    rw [readLines_concat, readLines_of_reaches hreach] at hread
    simp [readNext, hskip, hfault] at hread
  · exact hstop

/-- The start of balance cutting right after the selection of the upper turret shows the range of
wait codes. -/
theorem unwritten_of_waits
    {range : ValueRange}
    (hwait : (Dialect.waitingFor range).waitCode? "M562".toList = none)
    (hlong : ¬ isWritableWhole range.low = true) :
    (Machine.mk Config.integrex100 (Dialect.waitingFor range)).Unwritten
      { routing := true, turret := some .upper } "M562".toList :=
  ⟨rfl, .upper, rfl, Or.inl ⟨rfl, rfl, hwait, fun h => hlong h.1.1⟩⟩

/-- Balance cutting that starts without a wait code is stopped if the range of wait codes is too
long to be shown. -/
theorem analyze_eq_tooLong_of_waits
    {range : ValueRange}
    (hwait : (Dialect.waitingFor range).waitCode? "M562".toList = none)
    (hlong : ¬ isWritableWhole range.low = true) :
    (Machine.mk Config.integrex100 (Dialect.waitingFor range)).analyze "G109 L1\nM562".toList =
      .error .tooLong := by
  have hselect : (Dialect.waitingFor range).selectedTurret? "G109 L1".toList =
      some (Turret.upper.name, "G109 L1".toList) := rfl
  have hreach : Reaches (Machine.mk Config.integrex100 (Dialect.waitingFor range))
      (Text.lines "G109 L1\nM562".toList) ["G109 L1".toList] _ :=
    .advance .start (by decide +kernel) (.select hselect)
  have hlines : Text.lines "G109 L1\nM562".toList = ["G109 L1".toList] ++ "M562".toList :: [] := by
    decide +kernel
  exact hreach.analyze_eq_tooLong (Config.numeric_preset Config.defaultPreset)
    Dialect.integrex_namesTurrets Dialect.integrex_namesSpindles hlines (by decide +kernel)
    (unwritten_of_waits hwait hlong)

/-- Numeric limits and known names are not enough: a wait range of long numbers stops the
analysis at the start of balance cutting, and a configuration may name a control that nobody
knows. -/
theorem analyzeValue_stopped_by_long_waits :
    Config.integrex100.Numeric ∧
      (Dialect.waitingFor ⟨Nat.pow 10 5000, Nat.pow 10 5000⟩).NamesTurrets ∧
      (Dialect.waitingFor ⟨Nat.pow 10 5000, Nat.pow 10 5000⟩).NamesSpindles ∧
      (Machine.mk Config.integrex100
          (Dialect.waitingFor ⟨Nat.pow 10 5000, Nat.pow 10 5000⟩)).analyzeValue
        (.text (DocText.ofText "G109 L1\nM562".toList)) = .error (.fault .tooLong) ∧
      Config.unknownControl.Numeric ∧ ∀ m, Machine.ofConfig Config.unknownControl ≠ .ok m := by
  have hconfig : Config.integrex100.Numeric := Config.numeric_preset Config.defaultPreset
  have hnames : ∀ range, (Dialect.waitingFor range).NamesTurrets ∧
      (Dialect.waitingFor range).NamesSpindles := fun _ =>
    ⟨Dialect.integrex_namesTurrets, Dialect.integrex_namesSpindles⟩
  have hunknown : Config.unknownControl.Numeric :=
    ⟨hconfig.maxSpindleSpeed, hconfig.minFeedRate, hconfig.maxBlockLength,
      hconfig.releaseLookahead⟩
  refine ⟨hconfig, (hnames _).1, (hnames _).2, ?_, hunknown, nofun⟩
  have htext : (DocText.ofText "G109 L1\nM562".toList).toText = "G109 L1\nM562".toList := by
    decide +kernel
  rw [analyzeValue, htext, analyze_eq_tooLong_of_waits (by decide +kernel)
    (not_isWritableWhole_pow (by decide))]

end Machine
end DualTurret
