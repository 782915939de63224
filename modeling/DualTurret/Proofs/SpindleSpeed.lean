import DualTurret.Proofs.Block.Words
import DualTurret.Proofs.Number.Order
import DualTurret.Proofs.Scan.Work

/-!
# The ceiling of spindle speeds

The first spindle speed of a line is compared with the ceiling of the configuration.  A speed of
more than eighteen digits has no value and counts as too high whatever the ceiling is.  For a
ceiling below `10 ^ 18` this agrees with the number that the digits denote, as long as the zeros
in front of it are plain ones: only those are left out when the digits are counted.
-/

namespace DualTurret

namespace Block

/-- What a run of digits has to do with the number that it denotes. -/
structure ValueLaw (digits : Text) : Prop where
  value : ∀ n, wordValue? digits = some n → n = runValue digits
  missing : wordValue? digits = none ↔ Overlong digits
  above : wordValue? digits = none → ¬ OtherZeroLeads digits → 10 ^ 18 ≤ runValue digits
  outside : wordValue? digits = none → ¬ OtherZeroLeads digits →
    ∀ range : ValueRange, range.high < 10 ^ 18 → range.contains (runValue digits) = false

/-- The value of a run of digits is the number that they denote, unless there are too many. -/
theorem valueLaw {digits : Text} (hdigits : Digits digits) : ValueLaw digits := by
  have hmissing : wordValue? digits = none ↔ Overlong digits := by
    simp [wordValue?_eq]
  have habove : wordValue? digits = none → ¬ OtherZeroLeads digits →
      10 ^ 18 ≤ runValue digits :=
    fun hnone => pow_le_runValue hdigits.2 (hmissing.mp hnone)
  refine ⟨?_, hmissing, habove, ?_⟩
  · intro n hn
    rw [wordValue?_eq] at hn
    split_ifs at hn
    exact (Option.some.inj hn).symm
  · intro hnone hlead range hhigh
    have hlarge := habove hnone hlead
    rw [← Bool.not_eq_true, ValueRange.contains_iff]
    omega

end Block

namespace Dialect

/-- What is told at a line whose first spindle speed has these digits. -/
structure SpeedAt (ceiling : Int) (told : List Text) (digits : Text) : Prop where
  warned : told = if Block.Overlong digits ∨ ceiling < Block.runValue digits then
      ["Spindle speed S".toList ++ Block.significant digits ++ " RPM is unusually high".toList]
    else []
  byValue_iff : told.length = (if ceiling < Block.runValue digits then 1 else 0) ↔
    (Block.Overlong digits → ceiling < Block.runValue digits)
  byValue : ceiling < 10 ^ 18 → ¬ Block.OtherZeroLeads digits →
    told.length = if ceiling < Block.runValue digits then 1 else 0

/-- The warnings of high spindle speeds, at the lines with a spindle speed and at no other. -/
structure SpeedLaw (d : Dialect) (ceiling : Int) (r : Result) : Prop where
  atSpeed : ∀ t entry digits, d.WorkLine r.stream t entry →
    Block.FirstWord 'S' entry.text digits →
    SpeedAt ceiling (r.log.told .highSpeed entry.line) digits
  elsewhere : ∀ number, (∀ t entry digits, d.WorkLine r.stream t entry →
    Block.FirstWord 'S' entry.text digits → entry.line ≠ number) →
    r.log.told .highSpeed number = []

end Dialect

namespace Machine

variable {m : Machine} {raw done : List Text} {s : Trace} {ceiling : Int}

/-- A speed is too high if it has no value or lies above the ceiling. -/
theorem exceedsSpeed_eq
    (hceiling : m.config.maxSpindleSpeed.int? = some ceiling)
    (digits : Text) :
    m.exceedsSpeed digits =
      .ok (decide (Block.Overlong digits ∨ ceiling < Block.runValue digits)) := by
  unfold exceedsSpeed
  rw [Block.wordValue?_eq, Value.number?_of_int? hceiling]
  by_cases hlong : Block.Overlong digits
  · simp [hlong]
  · simp only [hlong, if_false, false_or, Except.ok.injEq]
    rw [Bool.eq_iff_iff, Number.whole_lt_whole_iff, decide_eq_true_iff]

/-- What is found of high speeds at a line. -/
theorem filter_highSpeed_speedCheck
    (hceiling : m.config.maxSpindleSpeed.int? = some ceiling)
    (inBalance : Bool)
    {text digits : Text}
    (hfirst : Block.FirstWord 'S' text digits) :
    (m.speedCheck inBalance text).findings.filter Kind.highSpeed.includes =
      if Block.Overlong digits ∨ ceiling < Block.runValue digits then
        [.highSpeed (Block.significant digits)]
      else [] := by
  have hdigits : Block.speedDigits? text = some (Block.significant digits) := by
    rw [Block.speedDigits?, Block.firstWord_iff.mp hfirst, Option.map_some]
  unfold speedCheck
  rw [hdigits]
  simp only [exceedsSpeed_eq hceiling, Block.overlong_significant, Block.runValue_significant]
  by_cases hhigh : Block.Overlong digits ∨ ceiling < Block.runValue digits
  · rw [if_pos hhigh, decide_eq_true hhigh]
    cases inBalance <;> rfl
  · rw [if_neg hhigh, decide_eq_false hhigh]
    cases inBalance <;> rfl

theorem filter_highSpeed_of_no_word
    (inBalance : Bool)
    {text : Text}
    (hnone : ∀ digits, ¬ Block.FirstWord 'S' text digits) :
    (m.speedCheck inBalance text).findings.filter Kind.highSpeed.includes = [] := by
  have hdigits : Block.speedDigits? text = none := by
    rw [Block.speedDigits?, Option.map_eq_none_iff, Option.eq_none_iff_forall_ne_some]
    intro digits hdigits
    exact hnone digits (Block.firstWord_iff.mpr hdigits)
  unfold speedCheck
  rw [hdigits]
  rfl

/-- What is told at a line with a spindle speed. -/
theorem Reaches.speedAt
    (hceiling : m.config.maxSpindleSpeed.int? = some ceiling)
    (h : Reaches m raw done s)
    {t : Turret}
    {entry : ClassifiedLine}
    {digits : Text}
    (hwork : m.dialect.WorkLine s.stream t entry)
    (hfirst : Block.FirstWord 'S' entry.text digits) :
    Dialect.SpeedAt ceiling (s.log.told .highSpeed entry.line) digits := by
  obtain ⟨p, signals, htold⟩ := h.told_work hwork
  have hwarned : s.log.told .highSpeed entry.line =
      if Block.Overlong digits ∨ ceiling < Block.runValue digits then
        [(Finding.highSpeed (Block.significant digits)).message]
      else [] := by
    rw [htold]
    show ((m.speedCheck _ _).findings.filter _).map _ = _
    rw [filter_highSpeed_speedCheck hceiling _ hfirst, apply_ite (List.map Finding.message)]
    rfl
  have hvalue : (s.log.told .highSpeed entry.line).length =
      (if ceiling < Block.runValue digits then 1 else 0) ↔
        (Block.Overlong digits → ceiling < Block.runValue digits) := by
    rw [hwarned]
    by_cases hhigh : ceiling < Block.runValue digits
    · simp [hhigh]
    · by_cases hlong : Block.Overlong digits
      · simp [hhigh, hlong]
      · simp [hhigh, hlong]
  refine ⟨hwarned, hvalue, ?_⟩
  intro hbound hlead
  refine hvalue.mpr ?_
  intro hlong
  obtain ⟨_, hword, _⟩ := hfirst
  have hlarge := Block.pow_le_runValue hword.decimal.2 hlong hlead
  omega

/-- A spindle speed is reported if it lies above the ceiling or has more than eighteen digits,
once and with its digits, and nothing else is.  This is the comparison with the number that the
digits denote, unless they are that many and the number does not lie above the ceiling.  That can
not happen if the ceiling is below `10 ^ 18` and no zero of another script leads the digits. -/
theorem analyze_warns_of_high_speeds
    (m : Machine)
    (program : Text)
    (ceiling : Int)
    (hceiling : m.config.maxSpindleSpeed.int? = some ceiling) :
    (m.config.Numeric → m.Writable → m.dialect.NamesTurrets → m.dialect.NamesSpindles →
        ∃ r, m.analyze program = .ok r) ∧
      (∀ r, m.analyze program = .ok r → m.dialect.SpeedLaw ceiling r) ∧
      ∀ digits, Block.Digits digits → Block.ValueLaw digits := by
  refine ⟨fun hconfig hwritable hturrets hspindles =>
    analyze_ok hconfig hwritable hturrets hspindles program, ?_,
    fun digits => Block.valueLaw⟩
  intro r hr
  obtain ⟨s, hreach, rfl⟩ := exists_reaches hr
  constructor
  · intro t entry digits hwork hfirst
    rw [Trace.toResult_stream] at hwork
    exact hreach.speedAt hceiling hwork hfirst
  · intro number hnone
    rw [Trace.toResult_stream] at hnone
    refine hreach.told_eq_nil .highSpeed ?_
    intro t entry hwork hline p signals
    exact filter_highSpeed_of_no_word _ fun digits hfirst => hnone t entry digits hwork hfirst hline

/-- Speeds at the ceiling, above it, with zeros in front, in another script, and too long. -/
theorem analyze_warns_of_each_high_speed :
    ∃ r, (Machine.ofPreset Config.defaultPreset).analyze
        ("S9999\nG109 L1\nS5000\nS5001 S1\nXS6000 S0000000000000000000000800\nG109 L2 S6000\n" ++
          "S５００１\nS7000.\nS9999999999999999999").toList = .ok r ∧
      Dialect.integrex.SpeedLaw 5000 r ∧ Block.ValueLaw "9999999999999999999".toList ∧
      [1, 2, 3, 4, 5, 6, 7, 8, 9].map (fun number => (r.log.told .highSpeed number).length) =
        [0, 0, 0, 1, 0, 0, 1, 1, 1] := by
  obtain ⟨hok, hlaw, hvalue⟩ := analyze_warns_of_high_speeds
    (Machine.ofPreset Config.defaultPreset)
    ("S9999\nG109 L1\nS5000\nS5001 S1\nXS6000 S0000000000000000000000800\nG109 L2 S6000\n" ++
      "S５００１\nS7000.\nS9999999999999999999").toList 5000 rfl
  obtain ⟨r, hr⟩ := hok (Config.numeric_preset _) (Machine.writable_ofPreset _)
    Dialect.integrex_namesTurrets Dialect.integrex_namesSpindles
  have hdigits : Block.Digits "9999999999999999999".toList :=
    ⟨by decide, List.all_eq_true.mp (by decide +kernel)⟩
  refine ⟨r, hr, hlaw r hr, hvalue _ hdigits, ?_⟩
  have htold : ((Machine.ofPreset Config.defaultPreset).analyze
      ("S9999\nG109 L1\nS5000\nS5001 S1\nXS6000 S0000000000000000000000800\nG109 L2 S6000\n" ++
        "S５００１\nS7000.\nS9999999999999999999").toList).toOption.map
          (fun r => [1, 2, 3, 4, 5, 6, 7, 8, 9].map fun number =>
            (r.log.told .highSpeed number).length) = some [0, 0, 0, 1, 0, 0, 1, 1, 1] := by
    decide +kernel
  rw [hr] at htold
  exact Option.some.inj htold

/-- Nineteen zeros of another script denote zero, but are reported as too high; and a speed of
nineteen digits is reported also where the ceiling is that very number. -/
theorem analyze_warns_of_zero_speed :
    Block.FirstWord 'S' ('S' :: List.replicate 19 '０') (List.replicate 19 '０') ∧
      Block.runValue (List.replicate 19 '０') = 0 ∧
      ((Machine.ofPreset Config.defaultPreset).analyze
        ("G109 L1\nS".toList ++ List.replicate 19 '０')).toOption.map
          (fun r => ((r.stream (.turret .upper)).map ClassifiedLine.text,
            (r.log.told .highSpeed 2).length)) =
        some (["G109 L1".toList, 'S' :: List.replicate 19 '０'], 1) ∧
      Block.runValue "1000000000000000000".toList = 10 ^ 18 ∧
      ((Machine.mk { Config.integrex100 with maxSpindleSpeed := Value.ofInt (10 ^ 18) }
        Dialect.integrex).analyze "G109 L1\nS1000000000000000000".toList).toOption.map
          (fun r => (r.log.told .highSpeed 2).length) = some 1 := by
  refine ⟨Block.firstWord_iff.mpr ?_, ?_, ?_, ?_, ?_⟩ <;> decide +kernel

end Machine
end DualTurret
