import DualTurret.Proofs.Extension
import DualTurret.Proofs.Number.Order

/-!
# Limits of a configuration

The limits of a configuration decide which diagnostics are made and nothing else: they
reach neither the streams, nor the notes, nor the states of the turrets.  Looser limits
make fewer diagnostics.  They can only take back warnings and errors about the length of a
block, so every other error stays.

The proof runs two configurations side by side over the same lines.  One step moves both to
the same progress (`Machine.readLine_spared`), since a limit is read only where a finding is
made.  What the two logs have to do with each other (`Config.Spares`) holds of two logs if it
holds of their parts, so it is enough to look at one rule at one line.
-/

namespace DualTurret

/-- The number that the first value stands for does not lie above that of the second. -/
def Value.atMost (v w : Value) : Bool :=
  match v.number?, w.number? with
  | some a, some b => a.atMost b
  | _, _ => false

theorem Value.number_atMost
    {v w : Value}
    {a b : Number}
    (h : v.atMost w = true)
    (hv : v.number? = some a)
    (hw : w.number? = some b) :
    a.atMost b = true := by
  simpa [Value.atMost, hv, hw] using h

/-- The second configuration asks for no more than the first. -/
structure Config.Looser (c c' : Config) : Prop where
  maxSpindleSpeed : c.maxSpindleSpeed.atMost c'.maxSpindleSpeed = true
  minFeedRate : c'.minFeedRate.atMost c.minFeedRate = true
  maxBlockLength : c.maxBlockLength.atMost c'.maxBlockLength = true
  releaseLookahead : c.releaseLookahead.atMost c'.releaseLookahead = true
  lookahead_nonneg : (Value.ofInt 0).atMost c.releaseLookahead = true

/-- The lines with errors about the length of a block. -/
def Log.longLines (log : Log) : List Int :=
  ((Log.errors log).filter fun d => !d.finding.beyondLength).map fun d => d.line

/-- How the logs of two configurations over the same lines compare. -/
structure Config.Spares (c c' : Config) (log log' : Log) : Prop where
  notes : Log.notes log = Log.notes log'
  otherErrors : Log.otherErrors log = Log.otherErrors log'
  warnings : c.Looser c' → (Log.warnings log').Sublist (Log.warnings log)
  longLines : c.Looser c' → (Log.longLines log').Sublist (Log.longLines log)

namespace Config.Spares

variable {c c' : Config}

theorem refl (log : Log) : c.Spares c' log log :=
  ⟨rfl, rfl, fun _ => List.Sublist.refl _, fun _ => List.Sublist.refl _⟩

/-- Sparing is kept by logs one after the other. -/
theorem append
    {a a' b b' : Log}
    (h : c.Spares c' a a')
    (h' : c.Spares c' b b') :
    c.Spares c' (a ++ b) (a' ++ b') where
  notes := by
    have hn := h.notes
    have hn' := h'.notes
    simp only [Log.notes, Log.withSeverity, List.filter_append] at hn hn' ⊢
    rw [hn, hn']
  otherErrors := by
    have he := h.otherErrors
    have he' := h'.otherErrors
    simp only [Log.otherErrors, Log.errors, Log.withSeverity, List.filter_append] at he he' ⊢
    rw [he, he']
  warnings := by
    intro hloose
    simp only [Log.warnings, Log.withSeverity, List.filter_append]
    exact (h.warnings hloose).append (h'.warnings hloose)
  longLines := by
    intro hloose
    simp only [Log.longLines, Log.errors, Log.withSeverity, List.filter_append, List.map_append]
    exact (h.longLines hloose).append (h'.longLines hloose)

theorem flatMap
    {α : Type}
    {f f' : α → Log}
    (h : ∀ x, c.Spares c' (f x) (f' x))
    (xs : List α) :
    c.Spares c' (xs.flatMap f) (xs.flatMap f') := by
  induction xs with
  | nil => exact refl []
  | cons x xs ih =>
      rw [List.flatMap_cons, List.flatMap_cons]
      exact (h x).append ih

/-- A warning that looser limits make only where the others make it. -/
theorem of_warning
    {f : Finding}
    (hf : f.severity = .warning)
    {found found' : Bool}
    (himp : c.Looser c' → found' = true → found = true)
    (line : Int) :
    c.Spares c' ((if found then [f] else []).map (Diagnostic.mk line))
      ((if found' then [f] else []).map (Diagnostic.mk line)) := by
  have hwarning : ∀ b : Bool, Log.notes ((if b then [f] else []).map (Diagnostic.mk line)) = [] ∧
      Log.errors ((if b then [f] else []).map (Diagnostic.mk line)) = [] := by
    intro b
    cases b <;> simp [Log.notes, Log.errors, Log.withSeverity, Diagnostic.severity, hf]
  constructor
  · rw [(hwarning found).1, (hwarning found').1]
  · rw [Log.otherErrors, Log.otherErrors, (hwarning found).2, (hwarning found').2]
  · intro hloose
    cases found' with
    | false => exact List.nil_sublist _
    | true =>
        rw [himp hloose rfl]
  · intro _
    rw [Log.longLines, Log.longLines, (hwarning found).2, (hwarning found').2]

/-- A block that is too long under looser limits is too long under the others. -/
theorem of_longBlock
    (limit limit' : Value)
    (length : Nat)
    {found found' : Bool}
    (himp : c.Looser c' → found' = true → found = true)
    (line : Int) :
    c.Spares c' ((if found then [.longBlock limit length] else []).map (Diagnostic.mk line))
      ((if found' then [.longBlock limit' length] else []).map (Diagnostic.mk line)) := by
  have hlong : ∀ (b : Bool) (v : Value),
      Log.notes ((if b then [.longBlock v length] else []).map (Diagnostic.mk line)) = [] ∧
      Log.warnings ((if b then [.longBlock v length] else []).map (Diagnostic.mk line)) = [] ∧
      Log.otherErrors ((if b then [.longBlock v length] else []).map (Diagnostic.mk line)) = [] ∧
      Log.longLines ((if b then [.longBlock v length] else []).map (Diagnostic.mk line)) =
        if b then [line] else [] := by
    intro b v
    cases b <;> exact ⟨rfl, rfl, rfl, rfl⟩
  constructor
  · rw [(hlong found limit).1, (hlong found' limit').1]
  · rw [(hlong found limit).2.2.1, (hlong found' limit').2.2.1]
  · intro _
    rw [(hlong found limit).2.1, (hlong found' limit').2.1]
  · intro hloose
    rw [(hlong found limit).2.2.2, (hlong found' limit').2.2.2]
    cases found' with
    | false => exact List.nil_sublist _
    | true => rw [himp hloose rfl]

end Config.Spares

/-- Two outcomes at a line that differ only in what the limits spare. -/
structure Outcome.Spared (c c' : Config) (line : Int) (o o' : Outcome) : Prop where
  progress : o.progress = o'.progress
  placed : o.placed = o'.placed
  log : c.Spares c' (o.findings.map (Diagnostic.mk line)) (o'.findings.map (Diagnostic.mk line))

theorem Outcome.Spared.refl
    {c c' : Config}
    {line : Int}
    (o : Outcome) :
    Outcome.Spared c c' line o o :=
  ⟨rfl, rfl, Config.Spares.refl _⟩

/-- Two scans that differ only in what the limits spare. -/
structure Trace.Spared (c c' : Config) (s s' : Trace) : Prop where
  progress : s.progress = s'.progress
  stream : ∀ stream, s.stream stream = s'.stream stream
  log : c.Spares c' s.log s'.log

theorem Trace.Spared.behind
    {c c' : Config}
    {s s' : Trace}
    (h : Trace.Spared c c' s s')
    {o o' : Outcome}
    {line : Int}
    (ho : Outcome.Spared c c' line o o') :
    Trace.Spared c c' (s.behind (o.reading line)) (s'.behind (o'.reading line)) where
  progress := h.progress
  stream := by
    intro stream
    have hstream := h.stream stream
    have hplaced : (o.reading line).lineIn? stream = (o'.reading line).lineIn? stream := by
      simp only [Reading.lineIn?, Outcome.reading, ho.placed]
    simp only [Trace.stream, Stream.lines, Trace.behind, List.filterMap_cons] at hstream ⊢
    rw [hplaced, hstream]
  log := ho.log.append h.log

theorem Check.not_passes_error (fault : Fault) : ¬ Check.Passes (.error fault) := by
  rintro ⟨found, h⟩
  cases h

/-- A check that was not stopped had the limit that it asks for. -/
theorem Check.Passes.exists_limit
    {α : Type}
    {check : Check}
    (h : check.Passes)
    (limit? : Option α)
    (hnone : limit? = none → check = .error .notANumber) :
    ∃ limit, limit? = some limit := by
  cases limit? with
  | some limit => exact ⟨limit, rfl⟩
  | none =>
      rw [hnone rfl] at h
      exact absurd h (Check.not_passes_error _)

namespace Machine

variable {c c' : Config} {d : Dialect} {raw : List Text} {p : Progress} {t : Turret}
  {signals : Signals} {index line : Int} {text : Text}

/-- A longer lookahead sees the wait codes that a shorter one sees. -/
theorem waitsWithin_mono
    {m : Machine}
    {n n' : Int}
    (hn : 0 ≤ n)
    (hle : n ≤ n')
    (hindex : 0 ≤ index)
    (h : m.waitsWithin raw n index = true) :
    m.waitsWithin raw n' index = true := by
  obtain ⟨found, hfound, hwait⟩ := List.any_eq_true.mp h
  refine List.any_eq_true.mpr ⟨found, ?_, hwait⟩
  rw [slice_of_nonneg raw hindex (by omega)] at hfound ⊢
  obtain ⟨later, hlater⟩ : raw.take (index + n + 1).toNat <+: raw.take (index + n' + 1).toNat :=
    List.take_prefix_take_left (by omega)
  rw [← hlater, List.drop_append]
  exact List.mem_append_left _ hfound

/-- More lookahead asks for fewer releases. -/
theorem releaseCheck_spares
    (hpass : ((mk c d).releaseCheck raw index).Passes)
    (hpass' : ((mk c' d).releaseCheck raw index).Passes)
    (hindex : 0 ≤ index) :
    c.Spares c' (((mk c d).releaseCheck raw index).findings.map (Diagnostic.mk line))
      (((mk c' d).releaseCheck raw index).findings.map (Diagnostic.mk line)) := by
  obtain ⟨n, hn⟩ := hpass.exists_limit c.releaseLookahead.int? fun hnone => by
    simp only [releaseCheck, hnone]
  obtain ⟨n', hn'⟩ := hpass'.exists_limit c'.releaseLookahead.int? fun hnone => by
    simp only [releaseCheck, hnone]
  have hmissing : ∀ (e : Config) (k : Int), e.releaseLookahead.int? = some k →
      ((mk e d).releaseCheck raw index).findings =
        if !(mk e d).waitsWithin raw k index then [.releaseMissing d.balanceEnd] else [] := by
    intro e k hk
    rw [releaseCheck_eq (m := mk e d) hk]
    cases (mk e d).waitsWithin raw k index <;> rfl
  rw [hmissing c n hn, hmissing c' n' hn']
  refine Config.Spares.of_warning rfl ?_ line
  intro hloose hwait
  have hle : n ≤ n' := Number.le_of_atMost (Value.number_atMost hloose.releaseLookahead
    (Value.number?_of_int? hn) (Value.number?_of_int? hn'))
  have hnonneg : 0 ≤ n := Number.le_of_atMost (Value.number_atMost hloose.lookahead_nonneg rfl
    (Value.number?_of_int? hn))
  cases hshort : (mk c d).waitsWithin raw n index with
  | false => rfl
  | true =>
      have hlong : (mk c' d).waitsWithin raw n' index = true :=
        waitsWithin_mono hnonneg hle hindex hshort
      rw [hlong] at hwait
      cases hwait

/-- A lower limit warns of fewer feed rates. -/
theorem feedCheck_spares
    (hpass : ((mk c d).feedCheck text).Passes)
    (hpass' : ((mk c' d).feedCheck text).Passes) :
    c.Spares c' (((mk c d).feedCheck text).findings.map (Diagnostic.mk line))
      (((mk c' d).feedCheck text).findings.map (Diagnostic.mk line)) := by
  cases hrate : Block.feedRate? text with
  | none =>
      simp only [feedCheck, hrate]
      exact Config.Spares.refl _
  | some rate =>
      by_cases hzero : rate.isZero = true
      · simp only [feedCheck, hrate, if_pos hzero]
        exact Config.Spares.refl _
      · obtain ⟨limit, hlimit⟩ := hpass.exists_limit c.minFeedRate.number? fun hnone => by
          simp only [feedCheck, hrate, if_neg hzero, hnone]
        obtain ⟨limit', hlimit'⟩ := hpass'.exists_limit c'.minFeedRate.number? fun hnone => by
          simp only [feedCheck, hrate, if_neg hzero, hnone]
        simp only [feedCheck, hrate, if_neg hzero, hlimit, hlimit']
        refine Config.Spares.of_warning rfl ?_ line
        intro hloose hlow
        exact Number.lt_of_lt_of_atMost hlow
          (Value.number_atMost hloose.minFeedRate hlimit' hlimit)

/-- A speed beyond the looser limit is beyond the stricter one. -/
theorem exceedsSpeed_mono
    {digits : Text}
    {high high' : Bool}
    (hhigh : (mk c d).exceedsSpeed digits = .ok high)
    (hhigh' : (mk c' d).exceedsSpeed digits = .ok high')
    (hloose : c.Looser c')
    (htrue : high' = true) :
    high = true := by
  unfold exceedsSpeed at hhigh hhigh'
  cases hvalue : Block.wordValue? digits with
  | none =>
      rw [hvalue] at hhigh
      cases hhigh
      rfl
  | some speed =>
      rw [hvalue] at hhigh hhigh'
      cases hlimit : c.maxSpindleSpeed.number? with
      | none => simp [hlimit] at hhigh
      | some limit =>
          cases hlimit' : c'.maxSpindleSpeed.number? with
          | none => simp [hlimit'] at hhigh'
          | some limit' =>
              simp only [hlimit, Except.ok.injEq] at hhigh
              simp only [hlimit', Except.ok.injEq] at hhigh'
              rw [← hhigh]
              rw [← hhigh'] at htrue
              exact Number.lt_of_atMost_of_lt
                (Value.number_atMost hloose.maxSpindleSpeed hlimit hlimit') htrue

/-- A higher limit warns of fewer speeds. -/
theorem speedCheck_spares
    {inBalance : Bool}
    (hpass : ((mk c d).speedCheck inBalance text).Passes)
    (hpass' : ((mk c' d).speedCheck inBalance text).Passes) :
    c.Spares c' (((mk c d).speedCheck inBalance text).findings.map (Diagnostic.mk line))
      (((mk c' d).speedCheck inBalance text).findings.map (Diagnostic.mk line)) := by
  unfold speedCheck at hpass hpass' ⊢
  cases hdigits : Block.speedDigits? text with
  | none => exact Config.Spares.refl _
  | some digits =>
      simp only [hdigits] at hpass hpass' ⊢
      cases hhigh : (mk c d).exceedsSpeed digits with
      | error fault =>
          rw [hhigh] at hpass
          exact absurd hpass (Check.not_passes_error _)
      | ok high =>
          cases hhigh' : (mk c' d).exceedsSpeed digits with
          | error fault =>
              rw [hhigh'] at hpass'
              exact absurd hpass' (Check.not_passes_error _)
          | ok high' =>
              simp only [Check.findings, List.map_append]
              exact (Config.Spares.of_warning rfl (exceedsSpeed_mono hhigh hhigh') line).append
                (Config.Spares.refl _)

/-- A longer limit rejects fewer blocks. -/
theorem lengthCheck_spares
    (hpass : ((mk c d).lengthCheck text).Passes)
    (hpass' : ((mk c' d).lengthCheck text).Passes) :
    c.Spares c' (((mk c d).lengthCheck text).findings.map (Diagnostic.mk line))
      (((mk c' d).lengthCheck text).findings.map (Diagnostic.mk line)) := by
  obtain ⟨limit, hlimit⟩ := hpass.exists_limit c.maxBlockLength.number? fun hnone => by
    simp only [lengthCheck, hnone]
  obtain ⟨limit', hlimit'⟩ := hpass'.exists_limit c'.maxBlockLength.number? fun hnone => by
    simp only [lengthCheck, hnone]
  simp only [lengthCheck, hlimit] at hpass
  simp only [lengthCheck, hlimit'] at hpass'
  simp only [lengthCheck, hlimit, hlimit', Check.findings_ofFindings hpass,
    Check.findings_ofFindings hpass']
  refine Config.Spares.of_longBlock _ _ _ ?_ line
  intro hloose hlong
  exact Number.lt_of_atMost_of_lt (Value.number_atMost hloose.maxBlockLength hlimit hlimit') hlong

theorem endChecks_spares
    (hpass : ∀ check ∈ (mk c d).endChecks raw index text, check.Passes)
    (hpass' : ∀ check ∈ (mk c' d).endChecks raw index text, check.Passes)
    (hindex : 0 ≤ index) :
    c.Spares c'
      ((((mk c d).endChecks raw index text).flatMap Check.findings).map (Diagnostic.mk line))
      ((((mk c' d).endChecks raw index text).flatMap Check.findings).map (Diagnostic.mk line)) := by
  unfold endChecks at hpass hpass' ⊢
  dsimp only at hpass hpass' ⊢
  split_ifs at hpass hpass' ⊢ with hmarker
  · simp only [List.flatMap_cons, List.flatMap_nil, List.map_append]
    exact (releaseCheck_spares (hpass _ (by simp)) (hpass' _ (by simp)) hindex).append
      (Config.Spares.refl _)
  · exact Config.Spares.refl _

theorem passes_of_routedChecks
    {m : Machine}
    (h : ∀ check ∈ m.routedChecks raw p t signals index line text, check.Passes) :
    (∀ check ∈ m.endChecks raw index text, check.Passes) ∧ (m.feedCheck text).Passes ∧
      (m.speedCheck (m.routedProgress p t signals line text).inBalance text).Passes ∧
      (m.lengthCheck text).Passes := by
  refine ⟨fun check hcheck => h check (List.mem_append_left _ hcheck), ?_, ?_, ?_⟩
  · exact h _ (List.mem_append_right _ (by simp [blockChecks]))
  · exact h _ (List.mem_append_right _ (by simp [blockChecks]))
  · exact h _ (List.mem_append_right _ (by simp [blockChecks]))

/-- Each rule spares under looser limits what it can, and else finds the same. -/
theorem found_spares
    (hpass : ∀ check ∈ (mk c d).routedChecks raw p t signals index line text, check.Passes)
    (hpass' : ∀ check ∈ (mk c' d).routedChecks raw p t signals index line text, check.Passes)
    (hindex : 0 ≤ index)
    (rule : Rule) :
    c.Spares c' (((mk c d).found raw p t signals index line text rule).map (Diagnostic.mk line))
      (((mk c' d).found raw p t signals index line text rule).map (Diagnostic.mk line)) := by
  obtain ⟨hend, hfeed, hspeed, hlength⟩ := passes_of_routedChecks hpass
  obtain ⟨hend', hfeed', hspeed', hlength'⟩ := passes_of_routedChecks hpass'
  cases rule with
  | balanceEnd => exact endChecks_spares hend hend' hindex
  | feed => exact feedCheck_spares hfeed hfeed'
  | speed => exact speedCheck_spares hspeed hspeed'
  | length => exact lengthCheck_spares hlength hlength'
  | _ => exact Config.Spares.refl _

/-- Under either configuration a line of the selected turret leads to the same progress and
the same entry. -/
theorem readRouted_spared
    (hfault : ((mk c d).readRouted raw p t index line text).fault = none)
    (hfault' : ((mk c' d).readRouted raw p t index line text).fault = none)
    (hindex : 0 ≤ index) :
    Outcome.Spared c c' line ((mk c d).readRouted raw p t index line text)
      ((mk c' d).readRouted raw p t index line text) := by
  cases hsignals : d.signals text with
  | error e =>
      simp only [readRouted, hsignals] at hfault
      cases hfault
  | ok signals =>
      rw [readRouted_fault (mk c d) raw p t index line hsignals] at hfault
      rw [readRouted_fault (mk c' d) raw p t index line hsignals] at hfault'
      obtain ⟨hstart, hpass⟩ := List.forall_mem_cons.mp (Check.passes_of_run hfault)
      obtain ⟨hstart', hpass'⟩ := List.forall_mem_cons.mp (Check.passes_of_run hfault')
      rw [readRouted_of_passes (mk c d) raw p t index line hsignals hpass hstart,
        readRouted_of_passes (mk c' d) raw p t index line hsignals hpass' hstart']
      refine ⟨rfl, rfl, ?_⟩
      rw [routedOutcome_findings, routedOutcome_findings, List.map_flatMap, List.map_flatMap]
      exact Config.Spares.flatMap (found_spares hpass hpass' hindex) Rule.order

/-- A step under looser limits differs only in what they spare. -/
theorem readLine_spared
    (hfault : ((mk c d).readLine raw p index line text).fault = none)
    (hfault' : ((mk c' d).readLine raw p index line text).fault = none)
    (hindex : 0 ≤ index) :
    Outcome.Spared c c' line ((mk c d).readLine raw p index line text)
      ((mk c' d).readLine raw p index line text) := by
  unfold readLine at hfault hfault' ⊢
  dsimp only at hfault hfault' ⊢
  cases hselect : d.selectedTurret? text with
  | some selected => exact Outcome.Spared.refl _
  | none =>
      simp only [hselect] at hfault hfault' ⊢
      split_ifs at hfault hfault' ⊢
      · cases hturret : p.turret with
        | none => exact Outcome.Spared.refl _
        | some t =>
            rw [hturret] at hfault hfault'
            exact readRouted_spared hfault hfault' hindex
      · exact Outcome.Spared.refl _

/-- A scan that goes on past a line has read it without a fault and then read the others. -/
theorem exists_rest_of_readLines
    {m : Machine}
    {s : Trace}
    {index : Nat}
    {line : Text}
    {lines : List Text}
    (hskip : isSkipped line = false)
    (h : m.readLines raw p index (line :: lines) = .ok s) :
    (m.readLine raw p index (index + 1) (Text.trim line)).fault = none ∧
      ∃ rest, m.readLines raw (m.readLine raw p index (index + 1) (Text.trim line)).progress
          (index + 1) lines = .ok rest ∧
        s = rest.behind ((m.readLine raw p index (index + 1) (Text.trim line)).reading
          (index + 1)) := by
  rw [readLines_of_read hskip rfl] at h
  split at h
  · cases h
  · rename_i hfault
    cases hrest : m.readLines raw (m.readLine raw p index (index + 1) (Text.trim line)).progress
        (index + 1) lines with
    | error fault =>
        rw [hrest] at h
        cases h
    | ok rest =>
        rw [hrest] at h
        cases h
        exact ⟨hfault, rest, rfl, rfl⟩

/-- Two configurations over the same lines keep step. -/
theorem readLines_spared
    (lines : List Text)
    (p : Progress)
    (index : Nat)
    {s s' : Trace}
    (hs : (mk c d).readLines raw p index lines = .ok s)
    (hs' : (mk c' d).readLines raw p index lines = .ok s') :
    Trace.Spared c c' s s' := by
  induction lines generalizing p index s s' with
  | nil =>
      cases hs
      cases hs'
      exact ⟨rfl, fun _ => rfl, Config.Spares.refl _⟩
  | cons line lines ih =>
      cases hskip : isSkipped line with
      | true =>
          rw [readLines, if_pos hskip] at hs hs'
          exact ih p (index + 1) hs hs'
      | false =>
          obtain ⟨hfault, rest, hrest, rfl⟩ := exists_rest_of_readLines hskip hs
          obtain ⟨hfault', rest', hrest', rfl⟩ := exists_rest_of_readLines hskip hs'
          have hstep := readLine_spared hfault hfault' (by omega)
          rw [← hstep.progress] at hrest'
          exact (ih _ (index + 1) hrest hrest').behind hstep

end Machine

/-- What the results of two configurations have in common, and what looser limits spare. -/
structure Config.Filters (c c' : Config) (r r' : Result) : Prop where
  stream : ∀ stream, r.stream stream = r'.stream stream
  notes : Log.notes r.log = Log.notes r'.log
  finalStates : r.finalStates = r'.finalStates
  otherErrors : Log.otherErrors r.log = Log.otherErrors r'.log
  warnings : c.Looser c' → (Log.warnings r'.log).Sublist (Log.warnings r.log)
  longLines : c.Looser c' → (Log.longLines r'.log).Sublist (Log.longLines r.log)

namespace Machine

/-- Limits only filter diagnostics, and looser limits leave fewer of them. -/
theorem analyze_filters_by_limits
    (c c' : Config)
    (d : Dialect)
    (program : Text) :
    (c.Numeric → c'.Numeric → (mk c d).Writable → (mk c' d).Writable → d.NamesTurrets →
        d.NamesSpindles →
        (∃ r, (mk c d).analyze program = .ok r) ∧ ∃ r', (mk c' d).analyze program = .ok r') ∧
      ∀ r r', (mk c d).analyze program = .ok r → (mk c' d).analyze program = .ok r' →
        c.Filters c' r r' := by
  constructor
  · intro hc hc' hwritable hwritable' hturrets hspindles
    exact ⟨analyze_ok (m := mk c d) hc hwritable hturrets hspindles program,
      analyze_ok (m := mk c' d) hc' hwritable' hturrets hspindles program⟩
  · intro r r' hr hr'
    obtain ⟨s, hs, rfl⟩ := exists_readLines hr
    obtain ⟨s', hs', rfl⟩ := exists_readLines hr'
    have hspared := readLines_spared _ _ _ hs hs'
    exact {
      stream := by
        intro stream
        rw [Trace.toResult_stream, Trace.toResult_stream]
        exact hspared.stream stream
      notes := hspared.log.notes
      finalStates := congrArg Progress.states hspared.progress
      otherErrors := hspared.log.otherErrors
      warnings := hspared.log.warnings
      longLines := hspared.log.longLines }

/-- Looser limits spare two warnings and a long block, and leave a speed above both limits. -/
theorem analyze_filters_by_looser_limits :
    { Config.integrex100 with
      maxSpindleSpeed := Value.ofInt 100
      maxBlockLength := Value.ofInt 12
      releaseLookahead := Value.ofInt 1 }.Looser Config.integrex100 ∧
    ∃ r r', (mk { Config.integrex100 with
          maxSpindleSpeed := Value.ofInt 100
          maxBlockLength := Value.ofInt 12
          releaseLookahead := Value.ofInt 1 } Dialect.integrex).analyze
        "G109 L1\nS500\nM563\nS9000\nG1\nP10\n(A LONG REMARK)".toList = .ok r ∧
      (mk Config.integrex100 Dialect.integrex).analyze
        "G109 L1\nS500\nM563\nS9000\nG1\nP10\n(A LONG REMARK)".toList = .ok r' ∧
      (Log.warnings r'.log).Sublist (Log.warnings r.log) ∧
      (Log.warnings r.log).map (fun d => d.line) = [2, 3, 4] ∧
      (Log.warnings r'.log).map (fun d => d.line) = [4] ∧
      Log.longLines r.log = [7] ∧ Log.longLines r'.log = [] := by
  have hloose : { Config.integrex100 with
      maxSpindleSpeed := Value.ofInt 100
      maxBlockLength := Value.ofInt 12
      releaseLookahead := Value.ofInt 1 }.Looser Config.integrex100 := by
    constructor <;> decide +kernel
  obtain ⟨hok, hfilters⟩ := analyze_filters_by_limits
    { Config.integrex100 with
      maxSpindleSpeed := Value.ofInt 100
      maxBlockLength := Value.ofInt 12
      releaseLookahead := Value.ofInt 1 } Config.integrex100 Dialect.integrex
    "G109 L1\nS500\nM563\nS9000\nG1\nP10\n(A LONG REMARK)".toList
  obtain ⟨⟨r, hr⟩, r', hr'⟩ := hok ⟨⟨_, rfl⟩, ⟨_, rfl⟩, ⟨_, rfl⟩, ⟨_, rfl⟩⟩
    ⟨⟨_, rfl⟩, ⟨_, rfl⟩, ⟨_, rfl⟩, ⟨_, rfl⟩⟩ (writable_integrex rfl (by decide +kernel))
    (writable_integrex rfl (by decide +kernel)) Dialect.integrex_namesTurrets
    Dialect.integrex_namesSpindles
  have hstrict : ((mk { Config.integrex100 with
        maxSpindleSpeed := Value.ofInt 100
        maxBlockLength := Value.ofInt 12
        releaseLookahead := Value.ofInt 1 } Dialect.integrex).analyze
      "G109 L1\nS500\nM563\nS9000\nG1\nP10\n(A LONG REMARK)".toList).toOption.map (fun r =>
        ((Log.warnings r.log).map (fun d => d.line), Log.longLines r.log)) =
      some ([2, 3, 4], [7]) := by
    decide +kernel
  have hspared : ((mk Config.integrex100 Dialect.integrex).analyze
      "G109 L1\nS500\nM563\nS9000\nG1\nP10\n(A LONG REMARK)".toList).toOption.map (fun r =>
        ((Log.warnings r.log).map (fun d => d.line), Log.longLines r.log)) =
      some ([4], []) := by
    decide +kernel
  rw [hr] at hstrict
  rw [hr'] at hspared
  obtain ⟨hwarnings, hlong⟩ := Prod.mk.inj (Option.some.inj hstrict)
  obtain ⟨hwarnings', hlong'⟩ := Prod.mk.inj (Option.some.inj hspared)
  exact ⟨hloose, r, r', hr, hr', (hfilters r r' hr hr').warnings hloose, hwarnings, hwarnings',
    hlong, hlong'⟩

end Machine
end DualTurret
