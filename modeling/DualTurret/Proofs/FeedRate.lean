import DualTurret.Proofs.Block.Places
import DualTurret.Proofs.Number.Order
import DualTurret.Proofs.Scan.Work

/-!
# Low feed rates

A feed rate that is positive and below the limit is reported with ten decimal places.  The number
in the report reads back as the feed rate if and only if some decimal number with ten places does,
so it always does for a feed rate that was typed with at most ten.  A smaller feed rate may not
be told from zero: up to half of the last place it is written as zero.
-/

namespace DualTurret

namespace Binary64

theorem units_pos {rank : Nat} (h : rank ≠ 0) : 0 < units rank := by
  refine Nat.pos_of_ne_zero ?_
  intro hzero
  have hrank := nearestRank_units rank
  rw [hzero, nearestRank_zero _ unitsPerOne_pos] at hrank
  exact h hrank.symm

/-- A number that is read without a sign and is not zero lies above zero. -/
theorem zero_lt_ofRank
    {rank : Nat}
    (h : (ofRank false rank).isZero = false) :
    (Number.whole 0).lt (.real (ofRank false rank)) = true := by
  unfold ofRank at h ⊢
  split_ifs at h ⊢
  · exact Number.zero_lt_finite_iff.mpr (units_pos (by simpa [isZero] using h))
  · rfl

end Binary64

namespace Block

/-- The feed rate of a text lies between zero and a limit. -/
structure LowFeed (limit : Number) (text : Text) (rate : Binary64) : Prop where
  extracted : feedRate? text = some rate
  positive : (Number.whole 0).lt (.real rate) = true
  below : (Number.real rate).lt limit = true

/-- A feed rate reads back from its ten places, which are not those of zero. -/
structure FeedShown (rate : Binary64) : Prop where
  readBack : feedRate? ('F' :: rate.fixedText 10) = some rate
  nonzero : rate.fixedText 10 ≠ ['0']

/-- How a feed rate between zero and a limit reads when it is written with ten places. -/
structure FeedText (text : Text) (rate : Binary64) : Prop where
  shown_iff : feedRate? ('F' :: rate.fixedText 10) = some rate ↔
    ∃ n, rate = Binary64.nearest false n (10 ^ 10)
  typed : ∀ number, (findAll feedAt none text).head? = some number →
    (decimals number).length ≤ 10 → FeedShown rate
  zero_iff : ∃ rank, rate = .finite false rank ∧
    (rate.fixedText 10 = ['0'] ↔ 2 * (Binary64.units rank * 10 ^ 10) ≤ Binary64.unitsPerOne)

/-- A shown feed rate reads back as the number nearest to what is shown. -/
theorem feedRate?_fixedText
    (rank : Fin infinityRank) :
    feedRate? ('F' :: (Binary64.finite false rank).fixedText 10) =
      some (Binary64.nearest false (Binary64.fixedMultiple 10 rank) (10 ^ 10)) :=
  feedRate?_pointText (by decide) _

/-- A feed rate reads back if it was read from ten places. -/
theorem feedRate?_fixedText_iff
    (rank : Fin infinityRank) :
    feedRate? ('F' :: (Binary64.finite false rank).fixedText 10) = some (.finite false rank) ↔
      ∃ n, Binary64.finite false rank = Binary64.nearest false n (10 ^ 10) := by
  rw [feedRate?_fixedText, Option.some.injEq]
  constructor
  · intro h
    exact ⟨_, h.symm⟩
  · rintro ⟨n, hn⟩
    have hrank : rank.val = Binary64.nearestRank n (10 ^ 10) := by
      unfold Binary64.nearest Binary64.ofRank at hn
      split_ifs at hn
      cases hn
      rfl
    rw [Binary64.nearest, hrank, Binary64.nearestRank_fixedMultiple (by decide), ← hrank,
      Document.ofRank_val]

/-- A feed rate shows as zero up to half of the last place. -/
theorem fixedText_eq_zero_iff
    (rank : Fin infinityRank) :
    (Binary64.finite false rank).fixedText 10 = ['0'] ↔
      2 * (Binary64.units rank * 10 ^ 10) ≤ Binary64.unitsPerOne :=
  (Binary64.pointText_eq_zero_iff 10 _).trans (Binary64.fixedMultiple_eq_zero_iff 10 rank)

theorem feedRate?_zero : feedRate? "F0".toList = some (Binary64.zero false) := by
  decide +kernel

theorem LowFeed.feedText
    {limit : Number}
    {text : Text}
    {rate : Binary64}
    (h : LowFeed limit text rate) :
    FeedText text rate := by
  obtain ⟨rank, rfl, hrank⟩ := Number.exists_rank_of_lt h.positive h.below
  refine ⟨feedRate?_fixedText_iff rank, ?_, rank, rfl, fixedText_eq_zero_iff rank⟩
  intro number hnumber hdecimals
  have hrate : Binary64.finite false rank = decimalValue number := by
    have hextracted := h.extracted
    rw [feedRate?, hnumber, Option.map_some] at hextracted
    exact (Option.some.inj hextracted).symm
  obtain ⟨n, hn⟩ := exists_nearest_of_decimals hdecimals
  have hread := (feedRate?_fixedText_iff rank).mpr ⟨n, hrate.trans hn⟩
  refine ⟨hread, ?_⟩
  intro hzero
  rw [hzero] at hread
  cases hread.symm.trans feedRate?_zero
  exact hrank rfl

end Block

namespace Dialect

/-- The warnings of low feed rates, at the lines with such a feed rate and at no other. -/
structure FeedLaw (d : Dialect) (limit : Number) (r : Result) : Prop where
  warned : ∀ t entry rate, d.WorkLine r.stream t entry → Block.LowFeed limit entry.text rate →
    r.log.told .lowFeed entry.line =
      ["Feed rate F".toList ++ rate.fixedText 10 ++ " is unusually low".toList]
  worded : ∀ t entry rate, d.WorkLine r.stream t entry → Block.LowFeed limit entry.text rate →
    Block.FeedText entry.text rate
  elsewhere : ∀ number, (∀ t entry rate, d.WorkLine r.stream t entry →
    Block.LowFeed limit entry.text rate → entry.line ≠ number) →
    r.log.told .lowFeed number = []

end Dialect

namespace Machine

variable {m : Machine} {limit : Number} {text : Text}

/-- A feed rate between zero and the limit is warned of. -/
theorem filter_lowFeed_feedCheck
    (hlimit : m.config.minFeedRate.number? = some limit)
    {rate : Binary64}
    (hlow : Block.LowFeed limit text rate) :
    (m.feedCheck text).findings.filter Kind.lowFeed.includes = [.lowFeed rate] := by
  have hzero : rate.isZero = false := by
    obtain ⟨rank, rfl, hrank⟩ := Number.exists_rank_of_lt hlow.positive hlow.below
    simpa [Binary64.isZero] using hrank
  simp [feedCheck, hlow.extracted, hzero, hlimit, hlow.below, Check.findings, Kind.includes]

/-- No other feed rate is warned of as low. -/
theorem filter_lowFeed_of_none
    (hlimit : m.config.minFeedRate.number? = some limit)
    (hnone : ∀ rate, ¬ Block.LowFeed limit text rate) :
    (m.feedCheck text).findings.filter Kind.lowFeed.includes = [] := by
  cases hrate : Block.feedRate? text with
  | none => simp [feedCheck, hrate, Check.findings]
  | some rate =>
      cases hzero : rate.isZero with
      | true => simp [feedCheck, hrate, hzero, Check.findings, Kind.includes]
      | false =>
          have hpositive : (Number.whole 0).lt (.real rate) = true := by
            obtain ⟨number, _, _, rfl⟩ := Block.exists_decimalNumeral hrate
            rw [Block.decimalValue_eq] at hzero ⊢
            exact Binary64.zero_lt_ofRank hzero
          have hbelow : (Number.real rate).lt limit = false := by
            by_contra hbelow
            exact hnone rate ⟨hrate, hpositive, by simpa using hbelow⟩
          simp [feedCheck, hrate, hzero, hlimit, hbelow, Check.findings]

/-- A feed rate between zero and the limit is reported once, with ten places.  The number in the
report reads back as the feed rate exactly if the feed rate is nearest to a number with ten
places, as it is whenever it was typed with no more; it is zero only for a feed rate of at most
half of the last place. -/
theorem analyze_words_low_feeds
    (m : Machine)
    (program : Text)
    (limit : Number)
    (hlimit : m.config.minFeedRate.number? = some limit) :
    (m.config.Numeric → m.Writable → m.dialect.NamesTurrets → m.dialect.NamesSpindles →
        ∃ r, m.analyze program = .ok r) ∧
      ∀ r, m.analyze program = .ok r → m.dialect.FeedLaw limit r := by
  refine ⟨fun hconfig hwritable hturrets hspindles =>
    analyze_ok hconfig hwritable hturrets hspindles program, ?_⟩
  intro r hr
  obtain ⟨s, hreach, rfl⟩ := exists_reaches hr
  constructor
  · intro t entry rate hwork hlow
    rw [Trace.toResult_stream] at hwork
    obtain ⟨p, signals, htold⟩ := hreach.told_work hwork
    refine (htold .lowFeed).trans ?_
    show ((m.feedCheck entry.text).findings.filter _).map _ = _
    rw [filter_lowFeed_feedCheck hlimit hlow]
    rfl
  · intro t entry rate _ hlow
    exact hlow.feedText
  · intro number hnone
    rw [Trace.toResult_stream] at hnone
    refine hreach.told_eq_nil .lowFeed ?_
    intro t entry hwork hline p signals
    exact filter_lowFeed_of_none hlimit fun rate hlow => hnone t entry rate hwork hlow hline

/-- Low feed rates of up to ten places, with needless zeros and without a whole part, among lines
that have none. -/
theorem analyze_words_each_low_feed :
    ∃ r, (Machine.ofPreset Config.defaultPreset).analyze
        ("F0.00005\nG109 L1\nG01 X50. F0.00005\nF0.0001\nF.0000000001 F1.\n" ++
          "G109 L2 F0.00001\nF00.000099999900").toList = .ok r ∧
      Dialect.integrex.FeedLaw (.real (Binary64.ofDecimal false [1] (-4))) r ∧
      [1, 2, 3, 4, 5, 6, 7].map (r.log.told .lowFeed) =
        [[], [], ["Feed rate F0.00005 is unusually low".toList], [],
          ["Feed rate F0.0000000001 is unusually low".toList], [],
          ["Feed rate F0.0000999999 is unusually low".toList]] := by
  obtain ⟨hok, hlaw⟩ := analyze_words_low_feeds (Machine.ofPreset Config.defaultPreset)
    ("F0.00005\nG109 L1\nG01 X50. F0.00005\nF0.0001\nF.0000000001 F1.\n" ++
      "G109 L2 F0.00001\nF00.000099999900").toList _ rfl
  obtain ⟨r, hr⟩ := hok (Config.numeric_preset _) (Machine.writable_ofPreset _)
    Dialect.integrex_namesTurrets Dialect.integrex_namesSpindles
  refine ⟨r, hr, hlaw r hr, ?_⟩
  have htold : ((Machine.ofPreset Config.defaultPreset).analyze
      ("F0.00005\nG109 L1\nG01 X50. F0.00005\nF0.0001\nF.0000000001 F1.\n" ++
        "G109 L2 F0.00001\nF00.000099999900").toList).toOption.map
          (fun r => [1, 2, 3, 4, 5, 6, 7].map (r.log.told .lowFeed)) =
        some [[], [], ["Feed rate F0.00005 is unusually low".toList], [],
          ["Feed rate F0.0000000001 is unusually low".toList], [],
          ["Feed rate F0.0000999999 is unusually low".toList]] := by
    decide +kernel
  rw [hr] at htold
  exact Option.some.inj htold

/-- A feed rate with eleven places is positive, but is reported as zero. -/
theorem analyze_words_low_feed_as_zero :
    Block.LowFeed (.real (Binary64.ofDecimal false [1] (-4))) "G01 F0.00000000001".toList
        (Block.decimalValue "0.00000000001".toList) ∧
      Block.feedRate? ('F' :: (Block.decimalValue "0.00000000001".toList).fixedText 10) ≠
        some (Block.decimalValue "0.00000000001".toList) ∧
      ((Machine.ofPreset Config.defaultPreset).analyze
        "G109 L1\nG01 F0.00000000001".toList).toOption.map (fun r => r.log.told .lowFeed 2) =
          some ["Feed rate F0 is unusually low".toList] := by
  refine ⟨⟨?_, ?_, ?_⟩, ?_, ?_⟩ <;> decide +kernel

end Machine
end DualTurret
