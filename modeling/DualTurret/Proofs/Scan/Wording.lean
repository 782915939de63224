import DualTurret.Proofs.Block.GCodes
import DualTurret.Proofs.Document.Quoting
import DualTurret.Proofs.Number.FixedText
import DualTurret.Proofs.WaitHistory

/-!
# Diagnostics are single lines

A message is made of fixed words, of numbers and of parts that come from elsewhere: a code or the
digits of a program line, a marker of the dialect, or a limit.  Codes and digits hold no line
feed, so a diagnostic is a single line wherever the markers and the limit are.

Main facts:
* `Finding.singleLine_message`: a message is a single line if its parts are;
* `Machine.Reaches.singleLine_text`: every diagnostic of a scan is a single line.
-/

namespace DualTurret

namespace Text

def SingleLine (t : Text) : Prop :=
  '\n' ∉ t

@[simp] theorem singleLine_nil : SingleLine [] :=
  List.not_mem_nil

theorem SingleLine.append
    {t u : Text}
    (ht : SingleLine t)
    (hu : SingleLine u) :
    SingleLine (t ++ u) := by
  simp only [SingleLine, List.mem_append, not_or]
  exact ⟨ht, hu⟩

@[simp] theorem singleLine_cons
    {c : Char}
    {t : Text} :
    SingleLine (c :: t) ↔ c ≠ '\n' ∧ SingleLine t := by
  simp [SingleLine, eq_comm]

/-- A single line is the only line of its text. -/
theorem lines_of_singleLine {t : Text} (h : SingleLine t) : lines t = [t] :=
  List.splitOn_eq_singleton h

end Text

open Text (SingleLine singleLine_cons)

theorem Turret.singleLine_name (t : Turret) : SingleLine t.name := by
  cases t <;> simp [Turret.name]

theorem Turret.singleLine_label (t : Turret) : SingleLine t.label := by
  cases t <;> simp [Turret.label]

theorem Spindle.singleLine_ordinal (spindle : Spindle) : SingleLine spindle.ordinal := by
  cases spindle <;> simp [Spindle.ordinal]

theorem WaitAddress.letter_ne (address : WaitAddress) : address.letter ≠ '\n' := by
  cases address <;> decide

/-! ## Numbers and codes -/

@[simp] theorem singleLine_natText (n : Nat) : SingleLine (natText n) :=
  (Document.plain_natText n).notMem rfl

@[simp] theorem singleLine_intText (n : Int) : SingleLine (intText n) := by
  unfold intText
  split_ifs
  · simp
  · exact singleLine_natText _

theorem Binary64.singleLine_fixedText
    (rate : Binary64)
    {places : Nat}
    (hplaces : 0 < places) :
    SingleLine (rate.fixedText places) := by
  have hsigned : ∀ negative {t : Text}, SingleLine t → SingleLine (signed negative t) :=
    fun negative _ ht => notMem_signed negative ht (by decide)
  cases rate with
  | finite negative rank =>
      refine hsigned negative ?_
      intro hmem
      rcases characters_pointText hplaces _ '\n' hmem with hdigit | hpoint
      · cases hdigit
      · exact absurd hpoint (by decide)
  | infinite negative => exact hsigned negative (by simp)
  | nan => simp [fixedText]

namespace Block

theorem Digits.singleLine {digits : Text} (h : Digits digits) : SingleLine digits := by
  intro hmem
  cases h.decimal '\n' hmem

theorem singleLine_of_speedDigits?
    {line digits : Text}
    (h : speedDigits? line = some digits) :
    SingleLine digits := by
  obtain ⟨word, hword, rfl⟩ := Option.map_eq_some_iff.mp h
  exact (digits_of_mem_wholeWords (List.mem_of_head? hword)).significant.singleLine

theorem singleLine_of_waitCode?
    {mRange pRange : ValueRange}
    {line : Text}
    {wait : WaitCode}
    (h : waitCode? mRange pRange line = some wait) :
    SingleLine wait.code := by
  obtain ⟨hdigits, _⟩ := exists_split_of_waitCode? h
  exact singleLine_cons.mpr ⟨wait.address.letter_ne, hdigits.singleLine⟩

theorem CodeNumber.singleLine
    {digits rest number : Text}
    (h : CodeNumber digits rest number)
    (hdigits : Digits digits) :
    SingleLine number := by
  cases h with
  | decimal part =>
      obtain ⟨_, _, hrun, _⟩ := part
      exact hdigits.singleLine.append (singleLine_cons.mpr ⟨by decide, hrun.digits.singleLine⟩)
  | whole => exact hdigits.singleLine

theorem singleLine_of_mem_gCodes {line code : Text} (h : code ∈ gCodes line) : SingleLine code := by
  obtain ⟨before, rest, hline, hread⟩ := mem_findAll_iff.mp h
  rw [Option.or_none] at hread
  obtain ⟨_, digits, _, number, _, hrun, hnumber, rfl⟩ := codeAt_iff.mpr ⟨rest, hline, hread⟩
  exact singleLine_cons.mpr ⟨by decide, hnumber.singleLine hrun.digits⟩

end Block

/-! ## Messages -/

namespace Finding

/-- The parts of a message that come from elsewhere. -/
def parts : Finding → List Text
  | unsupportedCode code => [code]
  | longBlock limit _ => [limit.shown.toText]
  | waitMissing _ _ marker | releaseMissing marker | turretSelected _ marker
  | spindleSelected _ marker => [marker]
  | waitMismatch master slave => [master, slave]
  | highSpeed digits | balanceSpeed digits => [digits]
  | remark _ message => [message]
  | zeroFeed | selectWithMotion | slaveWaitMissing _ | lowFeed _ | millingOn | millingOff
  | crossOn | crossOff | balanceStarts _ | balanceEnds => []

/-- No part of the message holds a line feed. -/
def Inline (f : Finding) : Prop :=
  ∀ part ∈ f.parts, SingleLine part

theorem singleLine_rangeText
    (address : WaitAddress)
    (range : ValueRange) :
    SingleLine (rangeText address range) := by
  have hletter : address.letter ≠ '\n' := address.letter_ne
  have hlow := singleLine_cons.mpr ⟨hletter, singleLine_intText range.low⟩
  have hhigh := singleLine_cons.mpr ⟨hletter, singleLine_intText range.high⟩
  exact hlow.append (singleLine_cons.mpr ⟨by decide, hhigh⟩)

/-- A message is a single line if its parts are. -/
theorem singleLine_message {f : Finding} (h : f.Inline) : SingleLine f.message := by
  cases f with
  | unsupportedCode code => exact .append (by simp) (h code List.mem_cons_self)
  | longBlock limit length =>
      have hlimit : SingleLine limit.shown.toText := h _ List.mem_cons_self
      exact (((SingleLine.append (by simp) hlimit).append (by simp)).append
        (singleLine_natText length)).append (by simp)
  | waitMissing mRange pRange marker =>
      have hmarker : SingleLine marker := h marker List.mem_cons_self
      exact ((((SingleLine.append (by simp) (singleLine_rangeText .m mRange)).append
        (by simp)).append (singleLine_rangeText .p pRange)).append (by simp)).append hmarker
  | slaveWaitMissing slave => exact .append slave.singleLine_label (by simp)
  | waitMismatch master slave =>
      have hmaster : SingleLine master := h master List.mem_cons_self
      have hslave : SingleLine slave := h slave (List.mem_cons_of_mem _ List.mem_cons_self)
      exact ((SingleLine.append (by simp) hmaster).append (by simp)).append hslave
  | releaseMissing marker =>
      exact (SingleLine.append (by simp) (h marker List.mem_cons_self)).append (by simp)
  | lowFeed rate =>
      have hrate : SingleLine (rate.fixedText feedPlaces) := rate.singleLine_fixedText (by decide)
      exact (SingleLine.append (by simp) hrate).append (by simp)
  | highSpeed digits =>
      exact (SingleLine.append (by simp) (h digits List.mem_cons_self)).append (by simp)
  | turretSelected turret marker =>
      have hmarker : SingleLine marker := h marker List.mem_cons_self
      exact ((turret.singleLine_label.append (by simp)).append hmarker).append (by simp)
  | spindleSelected spindle marker =>
      have hmarker : SingleLine marker := h marker List.mem_cons_self
      exact ((spindle.singleLine_ordinal.append (by simp)).append hmarker).append (by simp)
  | balanceStarts master =>
      exact (SingleLine.append (by simp) master.singleLine_name).append (by simp)
  | balanceSpeed digits =>
      exact (SingleLine.append (by simp) (h digits List.mem_cons_self)).append (by simp)
  | remark severity message => exact h message List.mem_cons_self
  | _ =>
      show SingleLine (String.toList _)
      simp

theorem inline_of_parts_nil {f : Finding} (h : f.parts = []) : f.Inline := by
  simp [Inline, h]

theorem inline_of_parts
    {f : Finding}
    {part : Text}
    (h : f.parts = [part])
    (hpart : SingleLine part) :
    f.Inline := by
  simpa [Inline, h] using hpart

end Finding

/-- A diagnostic is a single line if its message is. -/
theorem Diagnostic.singleLine_text
    {d : Diagnostic}
    (h : d.finding.Inline) :
    SingleLine d.text := by
  have hline : SingleLine ("Line ".toList ++ intText d.line ++ ": ".toList) :=
    (SingleLine.append (by simp) (singleLine_intText d.line)).append (by simp)
  exact hline.append (Finding.singleLine_message h)

/-! ## What a step can find -/

/-- The markers and the limit that messages show hold no line feed. -/
structure Machine.Inline (m : Machine) : Prop where
  turrets : ∀ entry ∈ m.dialect.turretSelect, SingleLine entry.2
  spindles : ∀ entry ∈ m.dialect.spindleSelect, SingleLine entry.2
  balanceStart : SingleLine m.dialect.balanceStart
  balanceEnd : SingleLine m.dialect.balanceEnd
  limit : SingleLine m.config.maxBlockLength.shown.toText

theorem Machine.inline_ofPreset (name : Text) : (Machine.ofPreset name).Inline := by
  have hlimit : (Config.preset name).config.maxBlockLength = Value.ofInt 128 := by
    unfold Config.preset
    split
    · rename_i key config hfind
      have hmem := List.mem_of_find?_eq_some hfind
      simp only [Config.presets, List.mem_cons, List.not_mem_nil, or_false] at hmem
      rcases hmem with heq | heq
      · cases heq
        rfl
      · cases heq
        rfl
    · rfl
  constructor
  · simp [Machine.ofPreset, Dialect.integrex]
  · simp [Machine.ofPreset, Dialect.integrex]
  · simp [Machine.ofPreset, Dialect.integrex]
  · simp [Machine.ofPreset, Dialect.integrex]
  · rw [Machine.ofPreset, hlimit, Value.ofInt, Value.shown, DocText.toText_ofText]
    exact singleLine_intText _

open Finding (inline_of_parts inline_of_parts_nil)

theorem Dialect.mem_spindleSelect_of_signals
    {d : Dialect}
    {text marker : Text}
    {signals : Signals}
    {spindle : Spindle}
    (h : d.signals text = .ok signals)
    (hspindle : signals.spindle = some (spindle, marker)) :
    ∃ name, (name, marker) ∈ d.spindleSelect := by
  unfold Dialect.signals Dialect.spindleSignal at h
  cases hselect : d.selectedSpindle? text with
  | none =>
      rw [hselect] at h
      cases h
      cases hspindle
  | some entry =>
      obtain ⟨name, marker'⟩ := entry
      refine ⟨name, ?_⟩
      have hmem : (name, marker') ∈ d.spindleSelect := List.mem_of_find?_eq_some hselect
      simp only [hselect] at h
      split_ifs at h
      · cases h
        cases hspindle
      · cases hname : Spindle.ofName name with
        | error e =>
            rw [hname] at h
            cases h
        | ok spindle' =>
            rw [hname] at h
            cases h
            cases hspindle
            exact hmem

namespace Machine

variable {m : Machine} {raw done : List Text} {s : Trace} {p : Progress} {t : Turret}
  {signals : Signals} {index line : Int} {text : Text} {f : Finding}

/-- The wait codes of the states are single lines. -/
def InlineWaits (states : PerTurret TurretState) : Prop :=
  ∀ t, ∀ wait ∈ (states.get t).waits, SingleLine wait.code

/-- Comparing the wait codes words no line feed. -/
theorem inline_of_mem_handshakeFindings
    {states : PerTurret TurretState}
    (hm : m.Inline)
    (hwaits : InlineWaits states)
    (h : f ∈ m.handshakeFindings states t) :
    f.Inline := by
  rcases mem_handshakeFindings_cases h with rfl | rfl | ⟨wait, hwait, wait', hwait', rfl⟩
  · exact inline_of_parts rfl hm.balanceStart
  · exact inline_of_parts_nil rfl
  · intro part hpart
    rcases List.mem_cons.mp hpart with rfl | hpart
    · exact hwaits _ wait hwait
    · rw [List.mem_singleton.mp hpart]
      exact hwaits _ wait' hwait'

/-- What each rule finds at a line of the selected turret is worded in a single line. -/
theorem inline_of_mem_found
    {rule : Rule}
    (hm : m.Inline)
    (hsignals : m.dialect.signals text = .ok signals)
    (hwaits : InlineWaits (m.routedProgress p t signals line text).states)
    (h : f ∈ m.found raw p t signals index line text rule) :
    f.Inline := by
  cases rule with
  | selection => cases h
  | mode =>
      rcases Modes.mem_follow_cases h with ⟨spindle, marker, hspindle, rfl⟩ | rfl | rfl | rfl | rfl
      · obtain ⟨name, hmem⟩ := Dialect.mem_spindleSelect_of_signals hsignals hspindle
        exact inline_of_parts rfl (hm.spindles _ hmem)
      all_goals exact inline_of_parts_nil rfl
  | balanceStart =>
      rcases mem_startFindings_cases h with h | rfl
      · exact inline_of_mem_handshakeFindings hm hwaits h
      · exact inline_of_parts_nil rfl
  | balanceEnd =>
      rcases mem_endChecks_cases h with rfl | rfl
      · exact inline_of_parts rfl hm.balanceEnd
      · exact inline_of_parts_nil rfl
  | code =>
      obtain ⟨code, hcode, rfl⟩ := mem_codeCheck_cases h
      exact inline_of_parts rfl (Block.singleLine_of_mem_gCodes hcode)
  | feed =>
      rcases mem_feedCheck_cases h with rfl | ⟨rate, rfl⟩
      · exact inline_of_parts_nil rfl
      · exact inline_of_parts_nil rfl
  | speed =>
      obtain ⟨digits, hdigits, rfl | rfl⟩ := mem_speedCheck_cases h
      · exact inline_of_parts rfl (Block.singleLine_of_speedDigits? hdigits)
      · exact inline_of_parts rfl (Block.singleLine_of_speedDigits? hdigits)
  | length =>
      rw [mem_lengthCheck_cases h]
      exact inline_of_parts rfl hm.limit
  | remark => cases h

/-- What a step finds is worded in a single line. -/
theorem Advance.inline_of_mem
    {outcome : Outcome}
    (hm : m.Inline)
    (h : Advance m raw p index line text outcome)
    (hwaits : InlineWaits outcome.progress.states)
    (hf : f ∈ outcome.findings) :
    f.Inline := by
  cases h with
  | header => cases hf
  | common => cases hf
  | select hselect =>
      rcases List.mem_append.mp hf with hf | hf
      · rw [Finding.eq_of_mem_ite hf]
        exact inline_of_parts_nil rfl
      · rw [List.mem_singleton.mp hf]
        exact inline_of_parts rfl (hm.turrets _ (List.mem_of_find?_eq_some hselect))
  | routed _ _ hsignals _ =>
      exact inline_of_mem_found hm hsignals hwaits (mem_found_iff.mpr hf)

/-! ## Diagnostics of a scan -/

/-- The recorded wait codes are single lines. -/
theorem Reaches.inlineWaits (h : Reaches m raw done s) : InlineWaits s.progress.states := by
  intro t wait hwait
  obtain ⟨entry, _, _, hissued⟩ := h.exists_entry_of_wait hwait
  obtain ⟨_, code, hcode, rfl⟩ := Dialect.waitRecord?_eq_some_iff.mp hissued
  exact Block.singleLine_of_waitCode? hcode

/-- Every diagnostic of a scan is a single line. -/
theorem Reaches.singleLine_text
    (hm : m.Inline)
    (h : Reaches m raw done s)
    {d : Diagnostic}
    (hd : d ∈ s.log) :
    SingleLine d.text := by
  obtain ⟨_, _, _, _, hread, hfinding, _⟩ := h.exists_readAt_of_log hd
  exact Diagnostic.singleLine_text (hread.step.inline_of_mem hm hread.after.inlineWaits hfinding)

end Machine
end DualTurret
