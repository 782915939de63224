import DualTurret.Proofs.Scan.Run

/-!
# Findings by rule

Every finding of a scan comes from one rule, and a line of the selected turret
asks the rules in a fixed order.  So the findings of one rule can be taken out of
what a line has found, whatever the other rules have found beside it.

Main facts:
* `Machine.mem_handshakeFindings_cases` and its like: what each check can find;
* `Machine.routedOutcome_findings`: what a line of the selected turret finds, rule by rule;
* `Machine.filter_rule_routedOutcome`: what one rule finds there;
* `Machine.Advance.rule_ne_remark`: a scan makes no remarks.
-/

namespace DualTurret

/-- The rules that make findings; a remark comes from no rule. -/
inductive Rule where
  | selection
  | mode
  | balanceStart
  | balanceEnd
  | code
  | feed
  | speed
  | length
  | remark
  deriving DecidableEq

def Finding.rule : Finding → Rule
  | selectWithMotion | turretSelected _ _ => .selection
  | spindleSelected _ _ | millingOn | millingOff | crossOn | crossOff => .mode
  | waitMissing _ _ _ | slaveWaitMissing _ | waitMismatch _ _ | balanceStarts _ => .balanceStart
  | releaseMissing _ | balanceEnds => .balanceEnd
  | unsupportedCode _ => .code
  | zeroFeed | lowFeed _ => .feed
  | highSpeed _ | balanceSpeed _ => .speed
  | longBlock _ _ => .length
  | remark _ _ => .remark

/-- The finding is not about the length of a block. -/
def Finding.beyondLength (f : Finding) : Bool :=
  f.rule ≠ .length

theorem Finding.severity_of_length
    {f : Finding}
    (h : f.beyondLength = false) :
    f.severity = .error := by
  have hrule : f.rule = .length := by simpa [Finding.beyondLength] using h
  cases f with
  | longBlock limit length => rfl
  | _ => cases hrule

/-- The errors that are not about the length of a block. -/
def Log.otherErrors (log : Log) : Log :=
  (Log.errors log).filter fun d => d.finding.beyondLength

/-- The rules in the order in which a line of the selected turret asks them. -/
def Rule.order : List Rule :=
  [.mode, .balanceStart, .balanceEnd, .code, .feed, .speed, .length]

theorem Finding.eq_of_mem_ite
    {P : Prop}
    [Decidable P]
    {f found : Finding}
    (h : f ∈ if P then [found] else []) :
    f = found := by
  split_ifs at h
  · exact List.mem_singleton.mp h
  · cases h

/-- A switch of a mode makes one note or none. -/
theorem Modes.eq_of_mem_switch
    {P : Prop}
    [Decidable P]
    {modes modes' : Modes}
    {f note : Finding}
    (h : f ∈ (if P then (modes', [note]) else (modes, [])).2) :
    f = note := by
  split_ifs at h
  · exact List.mem_singleton.mp h
  · cases h

/-- What following the mode signals can find. -/
theorem Modes.mem_follow_cases
    {modes : Modes}
    {signals : Signals}
    {f : Finding}
    (h : f ∈ (modes.follow signals).2) :
    (∃ spindle marker, signals.spindle = some (spindle, marker) ∧
      f = .spindleSelected spindle marker) ∨
    f = .millingOn ∨ f = .millingOff ∨ f = .crossOn ∨ f = .crossOff := by
  simp only [Modes.follow, List.mem_append] at h
  rcases h with (((h | h) | h) | h) | h
  · refine Or.inl ?_
    unfold Modes.selectSpindle at h
    split at h
    · cases h
    · rename_i spindle marker hsignal
      split_ifs at h
      · cases h
      · exact ⟨spindle, marker, hsignal, List.mem_singleton.mp h⟩
  · exact Or.inr (Or.inl (Modes.eq_of_mem_switch h))
  · exact Or.inr (Or.inr (Or.inl (Modes.eq_of_mem_switch h)))
  · exact Or.inr (Or.inr (Or.inr (Or.inl (Modes.eq_of_mem_switch h))))
  · exact Or.inr (Or.inr (Or.inr (Or.inr (Modes.eq_of_mem_switch h))))

theorem Modes.rule_of_mem_follow
    {modes : Modes}
    {signals : Signals}
    {f : Finding}
    (h : f ∈ (modes.follow signals).2) :
    f.rule = .mode := by
  rcases Modes.mem_follow_cases h with ⟨_, _, _, rfl⟩ | rfl | rfl | rfl | rfl <;> rfl

/-- What a sequence of checks has found was found by one of them. -/
theorem Check.exists_of_mem_run
    {checks : List Check}
    {f : Finding}
    (h : f ∈ (Check.run checks).1) :
    ∃ check ∈ checks, f ∈ check.findings := by
  induction checks with
  | nil => cases h
  | cons first checks ih =>
      cases first with
      | error fault => cases h
      | ok found =>
          rcases List.mem_append.mp h with hfirst | hrest
          · exact ⟨.ok found, List.mem_cons_self, hfirst⟩
          · obtain ⟨check, hcheck, hf⟩ := ih hrest
            exact ⟨check, List.mem_cons_of_mem _ hcheck, hf⟩

theorem Check.isWritable_of_mem_ofFindings
    {found : List Finding}
    {f : Finding}
    (h : f ∈ (Check.ofFindings found).findings) :
    f.isWritable = true := by
  unfold Check.ofFindings at h
  split_ifs at h with hall
  · exact List.all_eq_true.mp hall f h
  · cases h

/-- Only the rules about the start of balance cutting and about the length of a block show whole
numbers of a machine. -/
theorem Finding.isWritable_of_rule
    {f : Finding}
    (hstart : f.rule ≠ .balanceStart)
    (hlength : f.rule ≠ .length) :
    f.isWritable = true := by
  cases f with
  | longBlock => exact absurd rfl hlength
  | waitMissing => exact absurd rfl hstart
  | _ => rfl

namespace Machine

/-! What each check can find, and with which parts.  The rule of a finding and the wording of its
message are read off these cases. -/

/-- What comparing the wait codes can find. -/
theorem mem_handshakeFindings_cases
    {m : Machine}
    {states : PerTurret TurretState}
    {master : Turret}
    {f : Finding}
    (h : f ∈ m.handshakeFindings states master) :
    f = .waitMissing m.dialect.waitM m.dialect.waitP m.dialect.balanceStart ∨
      f = .slaveWaitMissing master.opposite ∨
      ∃ wait ∈ (states.get master).waits, ∃ wait' ∈ (states.get master.opposite).waits,
        f = .waitMismatch wait.code wait'.code := by
  unfold handshakeFindings at h
  split at h
  · exact Or.inl (List.mem_singleton.mp h)
  · rename_i wait hwait
    split at h
    · exact Or.inr (Or.inl (List.mem_singleton.mp h))
    · rename_i wait' hwait'
      split_ifs at h
      · cases h
      · exact Or.inr (Or.inr ⟨wait, List.mem_of_getLast? hwait, wait', List.mem_of_getLast? hwait',
          List.mem_singleton.mp h⟩)

/-- What the start of balance cutting can find. -/
theorem mem_startFindings_cases
    {m : Machine}
    {states : PerTurret TurretState}
    {t : Turret}
    {text : Text}
    {f : Finding}
    (h : f ∈ m.startFindings states t text) :
    f ∈ m.handshakeFindings states t ∨ f = .balanceStarts t := by
  unfold startFindings at h
  split_ifs at h
  · exact (List.mem_append.mp h).imp_right List.mem_singleton.mp
  · cases h

/-- What the end of balance cutting can find. -/
theorem mem_endChecks_cases
    {m : Machine}
    {raw : List Text}
    {index : Int}
    {text : Text}
    {f : Finding}
    (h : f ∈ (m.endChecks raw index text).flatMap Check.findings) :
    f = .releaseMissing m.dialect.balanceEnd ∨ f = .balanceEnds := by
  unfold endChecks at h
  split_ifs at h
  · rw [List.flatMap_cons, List.mem_append, List.flatMap_singleton] at h
    rcases h with h | h
    · unfold releaseCheck at h
      split at h
      · cases h
      · split_ifs at h
        · cases h
        · exact Or.inl (List.mem_singleton.mp h)
    · exact Or.inr (List.mem_singleton.mp h)
  · cases h

/-- What checking the G codes can find. -/
theorem mem_codeCheck_cases
    {m : Machine}
    {text : Text}
    {f : Finding}
    (h : f ∈ (m.codeCheck text).findings) :
    ∃ code ∈ Block.gCodes text, f = .unsupportedCode code := by
  obtain ⟨code, hcode, rfl⟩ := List.mem_map.mp h
  exact ⟨code, (List.mem_filter.mp hcode).1, rfl⟩

/-- What checking the feed rate can find. -/
theorem mem_feedCheck_cases
    {m : Machine}
    {text : Text}
    {f : Finding}
    (h : f ∈ (m.feedCheck text).findings) :
    f = .zeroFeed ∨ ∃ rate, f = .lowFeed rate := by
  unfold feedCheck at h
  split at h
  · cases h
  · rename_i rate _
    split_ifs at h
    · exact Or.inl (List.mem_singleton.mp h)
    · split at h
      · cases h
      · exact Or.inr ⟨rate, Finding.eq_of_mem_ite h⟩

/-- What checking the spindle speed can find. -/
theorem mem_speedCheck_cases
    {m : Machine}
    {inBalance : Bool}
    {text : Text}
    {f : Finding}
    (h : f ∈ (m.speedCheck inBalance text).findings) :
    ∃ digits, Block.speedDigits? text = some digits ∧
      (f = .highSpeed digits ∨ f = .balanceSpeed digits) := by
  unfold speedCheck at h
  split at h
  · cases h
  · rename_i digits hdigits
    refine ⟨digits, hdigits, ?_⟩
    split at h
    · cases h
    · exact (List.mem_append.mp h).imp Finding.eq_of_mem_ite Finding.eq_of_mem_ite

/-- What checking the length can find. -/
theorem mem_lengthCheck_cases
    {m : Machine}
    {text : Text}
    {f : Finding}
    (h : f ∈ (m.lengthCheck text).findings) :
    f = .longBlock m.config.maxBlockLength text.length := by
  unfold lengthCheck at h
  split at h
  · cases h
  · exact Finding.eq_of_mem_ite (Check.mem_of_mem_ofFindings h)

/-- What the length check finds can be written. -/
theorem isWritable_of_mem_lengthCheck
    {m : Machine}
    {text : Text}
    {f : Finding}
    (h : f ∈ (m.lengthCheck text).findings) :
    f.isWritable = true := by
  unfold lengthCheck at h
  split at h
  · cases h
  · exact Check.isWritable_of_mem_ofFindings h

theorem rule_of_mem_handshakeFindings
    {m : Machine}
    {states : PerTurret TurretState}
    {master : Turret}
    {f : Finding}
    (h : f ∈ m.handshakeFindings states master) :
    f.rule = .balanceStart := by
  rcases mem_handshakeFindings_cases h with rfl | rfl | ⟨_, _, _, _, rfl⟩ <;> rfl

theorem rule_of_mem_startFindings
    {m : Machine}
    {states : PerTurret TurretState}
    {t : Turret}
    {text : Text}
    {f : Finding}
    (h : f ∈ m.startFindings states t text) :
    f.rule = .balanceStart := by
  rcases mem_startFindings_cases h with h | rfl
  · exact rule_of_mem_handshakeFindings h
  · rfl

theorem rule_of_mem_endChecks
    {m : Machine}
    {raw : List Text}
    {index : Int}
    {text : Text}
    {f : Finding}
    (h : f ∈ (m.endChecks raw index text).flatMap Check.findings) :
    f.rule = .balanceEnd := by
  rcases mem_endChecks_cases h with rfl | rfl <;> rfl

theorem rule_of_mem_codeCheck
    {m : Machine}
    {text : Text}
    {f : Finding}
    (h : f ∈ (m.codeCheck text).findings) :
    f.rule = .code := by
  obtain ⟨code, _, rfl⟩ := mem_codeCheck_cases h
  rfl

theorem rule_of_mem_feedCheck
    {m : Machine}
    {text : Text}
    {f : Finding}
    (h : f ∈ (m.feedCheck text).findings) :
    f.rule = .feed := by
  rcases mem_feedCheck_cases h with rfl | ⟨_, rfl⟩ <;> rfl

theorem rule_of_mem_speedCheck
    {m : Machine}
    {inBalance : Bool}
    {text : Text}
    {f : Finding}
    (h : f ∈ (m.speedCheck inBalance text).findings) :
    f.rule = .speed := by
  obtain ⟨digits, _, rfl | rfl⟩ := mem_speedCheck_cases h <;> rfl

theorem rule_of_mem_lengthCheck
    {m : Machine}
    {text : Text}
    {f : Finding}
    (h : f ∈ (m.lengthCheck text).findings) :
    f.rule = .length := by
  rw [mem_lengthCheck_cases h]
  rfl

/-- What each rule finds at a line of the selected turret. -/
def found
    (m : Machine)
    (raw : List Text)
    (p : Progress)
    (t : Turret)
    (signals : Signals)
    (index line : Int)
    (text : Text) :
    Rule → List Finding
  | .mode => (m.follow (p.states.get t) signals line text).2
  | .balanceStart => m.startFindings (m.routedProgress p t signals line text).states t text
  | .balanceEnd => (m.endChecks raw index text).flatMap Check.findings
  | .code => (m.codeCheck text).findings
  | .feed => (m.feedCheck text).findings
  | .speed => (m.speedCheck (m.routedProgress p t signals line text).inBalance text).findings
  | .length => (m.lengthCheck text).findings
  | .selection => []
  | .remark => []

section Routed

variable (m : Machine) (raw : List Text) (p : Progress) (t : Turret) (signals : Signals)
  (index line : Int) (text : Text)

/-- What a line of the selected turret finds, rule by rule. -/
theorem routedOutcome_findings :
    (m.routedOutcome raw p t signals index line text).findings =
      Rule.order.flatMap (m.found raw p t signals index line text) := by
  simp [routedOutcome, routedChecks, blockChecks, Rule.order, found]

variable {m raw p t signals index line text}

/-- What is found by a rule is of that rule. -/
theorem rule_of_mem_found
    {rule : Rule}
    {f : Finding}
    (h : f ∈ m.found raw p t signals index line text rule) :
    f.rule = rule := by
  cases rule with
  | selection => cases h
  | mode => exact Modes.rule_of_mem_follow h
  | balanceStart => exact rule_of_mem_startFindings h
  | balanceEnd => exact rule_of_mem_endChecks h
  | code => exact rule_of_mem_codeCheck h
  | feed => exact rule_of_mem_feedCheck h
  | speed => exact rule_of_mem_speedCheck h
  | length => exact rule_of_mem_lengthCheck h
  | remark => cases h

theorem filter_rule_found
    (rule other : Rule) :
    (m.found raw p t signals index line text other).filter (fun f => f.rule = rule) =
      if other = rule then m.found raw p t signals index line text rule else [] := by
  split_ifs with heq
  · subst heq
    rw [List.filter_eq_self]
    intro f hf
    simp [rule_of_mem_found hf]
  · rw [List.filter_eq_nil_iff]
    intro f hf
    simp [rule_of_mem_found hf, heq]

/-- What one rule finds at a line of the selected turret. -/
theorem filter_rule_routedOutcome
    (rule : Rule) :
    (m.routedOutcome raw p t signals index line text).findings.filter (fun f => f.rule = rule) =
      m.found raw p t signals index line text rule := by
  rw [routedOutcome_findings, List.filter_flatMap]
  simp only [Rule.order, filter_rule_found]
  cases rule <;> simp [found]

/-- A finding of a line is found by its own rule. -/
theorem mem_found_iff
    {f : Finding} :
    f ∈ m.found raw p t signals index line text f.rule ↔
      f ∈ (m.routedOutcome raw p t signals index line text).findings := by
  rw [← filter_rule_routedOutcome, List.mem_filter]
  simp

end Routed

/-- Selections find what their own rule finds. -/
theorem rule_of_mem_readSelection
    {p : Progress}
    {t : Turret}
    {marker : Text}
    {line : Int}
    {text : Text}
    {f : Finding}
    (h : f ∈ (readSelection p t marker line text).findings) :
    f.rule = .selection := by
  rcases List.mem_append.mp h with h | h
  · rw [Finding.eq_of_mem_ite h]
    rfl
  · rw [List.mem_singleton.mp h]
    rfl

/-- A scan makes no remarks. -/
theorem Advance.rule_ne_remark
    {m : Machine}
    {raw : List Text}
    {p : Progress}
    {index line : Int}
    {text : Text}
    {outcome : Outcome}
    (h : Advance m raw p index line text outcome)
    {f : Finding}
    (hf : f ∈ outcome.findings) :
    f.rule ≠ .remark := by
  cases h with
  | header => cases hf
  | common => cases hf
  | select =>
      rw [rule_of_mem_readSelection hf]
      decide
  | routed =>
      intro hrule
      rw [← mem_found_iff, hrule] at hf
      cases hf

/-- What the checks of a line of the selected turret can find. -/
theorem mem_run_cases
    {m : Machine}
    {raw : List Text}
    {index : Int}
    {inBalance : Bool}
    {text : Text}
    {f : Finding}
    (h : f ∈ (Check.run (m.endChecks raw index text ++ m.blockChecks inBalance text)).1) :
    f.rule = .balanceEnd ∨ f.rule = .code ∨ f.rule = .feed ∨ f.rule = .speed ∨
      f ∈ (m.lengthCheck text).findings := by
  obtain ⟨check, hcheck, hf⟩ := Check.exists_of_mem_run h
  rcases List.mem_append.mp hcheck with hend | hblock
  · exact Or.inl (rule_of_mem_endChecks (List.mem_flatMap.mpr ⟨check, hend, hf⟩))
  · simp only [blockChecks, List.mem_cons, List.not_mem_nil, or_false] at hblock
    rcases hblock with rfl | rfl | rfl | rfl
    · exact Or.inr (Or.inl (rule_of_mem_codeCheck hf))
    · exact Or.inr (Or.inr (Or.inl (rule_of_mem_feedCheck hf)))
    · exact Or.inr (Or.inr (Or.inr (Or.inl (rule_of_mem_speedCheck hf))))
    · exact Or.inr (Or.inr (Or.inr (Or.inr hf)))

/-- Checks give only findings that can be written. -/
theorem isWritable_of_mem_run
    {m : Machine}
    {raw : List Text}
    {index : Int}
    {inBalance : Bool}
    {text : Text}
    {f : Finding}
    (h : f ∈ (Check.run (m.endChecks raw index text ++ m.blockChecks inBalance text)).1) :
    f.isWritable = true := by
  rcases mem_run_cases h with hrule | hrule | hrule | hrule | hlength
  · exact Finding.isWritable_of_rule (by rw [hrule]; decide) (by rw [hrule]; decide)
  · exact Finding.isWritable_of_rule (by rw [hrule]; decide) (by rw [hrule]; decide)
  · exact Finding.isWritable_of_rule (by rw [hrule]; decide) (by rw [hrule]; decide)
  · exact Finding.isWritable_of_rule (by rw [hrule]; decide) (by rw [hrule]; decide)
  · exact isWritable_of_mem_lengthCheck hlength

/-- Every message that a line adds to the log can be written, also where the line is stopped. -/
theorem isWritable_of_mem_readLine
    {m : Machine}
    {raw : List Text}
    {p : Progress}
    {index line : Int}
    {text : Text}
    {f : Finding}
    (hd : m.dialect.NamesTurrets)
    (hp : p.Coherent)
    (h : f ∈ (m.readLine raw p index line text).findings) :
    f.isWritable = true := by
  rcases readLine_cases hd hp raw index line text with
    ⟨t, marker, _, hread⟩ | ⟨_, _, hread⟩ | ⟨_, t, _, hread⟩
  · rw [hread] at h
    have hrule := rule_of_mem_readSelection h
    exact Finding.isWritable_of_rule (by rw [hrule]; decide) (by rw [hrule]; decide)
  · rw [hread, readCommon] at h
    split_ifs at h <;> cases h
  · rw [hread, readRouted] at h
    split at h
    · cases h
    · rename_i signals _
      have hnote : f ∈ (m.follow (p.states.get t) signals line text).2 → f.isWritable = true := by
        intro hnote
        have hrule := Modes.rule_of_mem_follow hnote
        exact Finding.isWritable_of_rule (by rw [hrule]; decide) (by rw [hrule]; decide)
      dsimp only at h
      split at h
      · exact hnote h
      · rename_i opening hopening
        rcases List.mem_append.mp h with h | h
        · rcases List.mem_append.mp h with h | h
          · exact hnote h
          · have hstart : f ∈ (Check.ofFindings (m.startFindings
                (m.routedProgress p t signals line text).states t text)).findings := by
              rw [hopening]
              exact h
            exact Check.isWritable_of_mem_ofFindings hstart
        · exact isWritable_of_mem_run h

end Machine
end DualTurret
