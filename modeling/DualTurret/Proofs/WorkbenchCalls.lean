import DualTurret.Proofs.Scan.Run
import DualTurret.Workbench
import Mathlib.Data.List.Basic

/-!
# Calls of a workbench

A workbench keeps the last value that it was asked to analyze and the last analysis that
succeeded.  After any calls the result is that of the last analysis that succeeded since the
last reset, by the machine that was in force then.  A call that raises keeps the result and the
machine, but its value still takes the place of the last text.  So text and result belong
together unless the last call to analyze has raised, and texts alone never raise on a machine
with numeric limits and known names.
-/

namespace DualTurret

namespace Workbench

/-- What can be asked of a workbench; to look is to read any of its views. -/
inductive Call where
  | process (value : Value)
  | setMachine (name : Value)
  | reset
  | look

/-- The call changes neither the last text nor the result. -/
def Call.isQuiet : Call → Bool
  | .process _ => false
  | .setMachine _ => true
  | .reset => false
  | .look => true

/-- The workbench after a call.  A machine name that is not a text is refused. -/
def call
    (w : Workbench) :
    Call → Workbench
  | .process value => (w.process value).1
  | .setMachine (.text name) => w.setMachine (DocText.toText name)
  | .setMachine _ => w
  | .reset => w.reset
  | .look => w

def after (w : Workbench) (calls : List Call) : Workbench :=
  calls.foldl call w

def opened (m : Machine) (calls : List Call) : Workbench :=
  after { machine := m } calls

/-- The call leaves another result: it resets the workbench or its analysis succeeds. -/
def Renews
    (w : Workbench) :
    Call → Prop
  | .process value => ∃ r, w.machine.analyzeValue value = .ok r
  | .setMachine _ => False
  | .reset => True
  | .look => False

/-- The last call to analyze since the last reset was about this value. -/
def LastAsked (calls : List Call) (value : Value) : Prop :=
  ∃ before later, calls = before ++ .process value :: later ∧
    ∀ call ∈ later, call.isQuiet = true

/-- The last analysis to succeed since the last reset, by the machine then in force, was that
of this value. -/
def LastAnalyzed (m : Machine) (calls : List Call) (value : Value) (r : Result) : Prop :=
  ∃ before later, calls = before ++ .process value :: later ∧
    (opened m before).machine.analyzeValue value = .ok r ∧
    ∀ first call rest, later = first ++ call :: rest →
      ¬ (opened m (before ++ .process value :: first)).Renews call

/-- There is neither a text nor a result, or the result is the last analysis, and that of the
last text. -/
def Coherent (m : Machine) (calls : List Call) : Prop :=
  ((opened m calls).lastText = Value.ofText [] ∧ (opened m calls).result = none) ∨
    ∃ r, LastAnalyzed m calls (opened m calls).lastText r ∧ (opened m calls).result = some r

/-- The last call to analyze since the last reset, if there is one, did not raise. -/
def LastSucceeds (m : Machine) (calls : List Call) : Prop :=
  (∀ value, ¬ LastAsked calls value) ∨
    ∃ before value later r, calls = before ++ .process value :: later ∧
      (∀ call ∈ later, call.isQuiet = true) ∧
      (opened m before).machine.analyzeValue value = .ok r

variable {m : Machine} {w : Workbench} {value : Value} {calls : List Call}

theorem opened_append
    (m : Machine)
    (calls later : List Call) :
    opened m (calls ++ later) = (opened m calls).after later :=
  List.foldl_append

theorem opened_concat
    (m : Machine)
    (calls : List Call)
    (call : Call) :
    opened m (calls ++ [call]) = (opened m calls).call call :=
  opened_append m calls [call]

/-- An analysis renews text and result. -/
theorem process_of_ok
    {r : Result}
    (h : w.machine.analyzeValue value = .ok r) :
    (w.process value).1 = { w with lastText := value, result := some r } := by
  simp [process, h]

/-- An analysis that fails renews the text and keeps the result. -/
theorem process_of_error
    {e : AnalysisError}
    (h : w.machine.analyzeValue value = .error e) :
    (w.process value).1 = { w with lastText := value } := by
  simp [process, h]

theorem analyzeValue_of_process_error
    {e : AnalysisError}
    (h : (w.process value).2 = .error e) :
    w.machine.analyzeValue value = .error e := by
  cases hanalyze : w.machine.analyzeValue value with
  | ok r => simp [process, hanalyze] at h
  | error e' => simpa [process, hanalyze] using h

/-- Quiet calls change neither text nor result. -/
theorem call_of_isQuiet
    {call : Call}
    (h : call.isQuiet = true) :
    (w.call call).lastText = w.lastText ∧ (w.call call).result = w.result := by
  cases call with
  | process value => cases h
  | setMachine name => cases name <;> exact ⟨rfl, rfl⟩
  | reset => cases h
  | look => exact ⟨rfl, rfl⟩

theorem result_call_of_not_renews
    {call : Call}
    (h : ¬ w.Renews call) :
    (w.call call).result = w.result := by
  cases call with
  | process value =>
      cases hanalyze : w.machine.analyzeValue value with
      | ok r => exact absurd ⟨r, hanalyze⟩ h
      | error e =>
          show (w.process value).1.result = w.result
          rw [process_of_error hanalyze]
  | setMachine name => cases name <;> rfl
  | reset => exact absurd trivial h
  | look => rfl

theorem after_of_isQuiet
    {later : List Call}
    (h : ∀ call ∈ later, call.isQuiet = true) :
    (w.after later).lastText = w.lastText ∧ (w.after later).result = w.result := by
  induction later generalizing w with
  | nil => exact ⟨rfl, rfl⟩
  | cons call later ih =>
      obtain ⟨htext, hresult⟩ := call_of_isQuiet (w := w) (h call (by simp))
      obtain ⟨htext', hresult'⟩ := ih (w := w.call call) fun other hother =>
        h other (List.mem_cons_of_mem _ hother)
      exact ⟨htext'.trans htext, hresult'.trans hresult⟩

/-- The result stays while no call renews it. -/
theorem result_after
    {later : List Call}
    (h : ∀ first call rest, later = first ++ call :: rest → ¬ (w.after first).Renews call) :
    (w.after later).result = w.result := by
  induction later generalizing w with
  | nil => rfl
  | cons call later ih =>
      have hfirst : (w.call call).result = w.result :=
        result_call_of_not_renews (h [] call later rfl)
      have hrest : ((w.call call).after later).result = (w.call call).result := by
        refine ih ?_
        rintro first other rest rfl
        exact h (call :: first) other rest rfl
      exact hrest.trans hfirst

theorem not_renews_of_isQuiet {call : Call} (h : call.isQuiet = true) : ¬ w.Renews call := by
  cases call with
  | process value => cases h
  | setMachine name => exact id
  | reset => cases h
  | look => exact id

/-- The last text is the last one asked about. -/
theorem lastAsked_text (h : LastAsked calls value) : (opened m calls).lastText = value := by
  obtain ⟨before, later, rfl, hquiet⟩ := h
  rw [opened_append]
  show (((opened m before).process value).1.after later).lastText = value
  rw [(after_of_isQuiet hquiet).1]
  cases hanalyze : (opened m before).machine.analyzeValue value with
  | ok r => rw [process_of_ok hanalyze]
  | error e => rw [process_of_error hanalyze]

/-- The result is that of the last analysis. -/
theorem LastAnalyzed.result_eq
    {r : Result}
    (h : LastAnalyzed m calls value r) :
    (opened m calls).result = some r := by
  obtain ⟨before, later, rfl, hanalyze, hkept⟩ := h
  rw [opened_append]
  show (((opened m before).process value).1.after later).result = some r
  rw [result_after, process_of_ok hanalyze]
  intro first call rest hsplit
  have hnot := hkept first call rest hsplit
  rw [opened_append] at hnot
  exact hnot

/-- A call that does not renew the result keeps the last analysis. -/
theorem LastAnalyzed.concat
    {r : Result}
    {call : Call}
    (h : LastAnalyzed m calls value r)
    (hcall : ¬ (opened m calls).Renews call) :
    LastAnalyzed m (calls ++ [call]) value r := by
  obtain ⟨before, later, rfl, hanalyze, hkept⟩ := h
  refine ⟨before, later ++ [call], by simp, hanalyze, ?_⟩
  intro first other rest hsplit
  rcases List.eq_nil_or_concat' rest with rfl | ⟨rest, last, rfl⟩
  · obtain ⟨rfl, hother⟩ := List.append_inj' hsplit rfl
    cases hother
    exact hcall
  · rw [← List.cons_append, ← List.append_assoc] at hsplit
    exact hkept first other rest (List.append_inj' hsplit rfl).1

/-- Every result is that of the last analysis. -/
theorem exists_lastAnalyzed
    (m : Machine) :
    ∀ (calls : List Call) (r : Result), (opened m calls).result = some r →
      ∃ value, LastAnalyzed m calls value r := by
  intro calls
  induction calls using List.reverseRecOn with
  | nil =>
      intro r hr
      cases hr
  | append_singleton calls call ih =>
      intro r hr
      rw [opened_concat] at hr
      by_cases hcall : (opened m calls).Renews call
      · cases call with
        | process value =>
            obtain ⟨r', hanalyze⟩ := hcall
            have hresult : ((opened m calls).process value).1.result = some r := hr
            rw [process_of_ok hanalyze] at hresult
            cases hresult
            exact ⟨value, calls, [], rfl, hanalyze, by simp⟩
        | setMachine name => exact absurd hcall id
        | reset => cases hr
        | look => exact absurd hcall id
      · rw [result_call_of_not_renews hcall] at hr
        obtain ⟨value, hvalue⟩ := ih r hr
        exact ⟨value, hvalue.concat hcall⟩

/-- Nothing was asked since the last reset, or some value was asked last. -/
theorem opened_cases
    (m : Machine)
    (calls : List Call) :
    ((opened m calls).lastText = Value.ofText [] ∧ (opened m calls).result = none) ∨
      ∃ value, LastAsked calls value := by
  induction calls using List.reverseRecOn with
  | nil => exact Or.inl ⟨rfl, rfl⟩
  | append_singleton calls call ih =>
      by_cases hquiet : call.isQuiet = true
      · rw [opened_concat, (call_of_isQuiet hquiet).1, (call_of_isQuiet hquiet).2]
        rcases ih with hnone | ⟨value, before, later, rfl, hlater⟩
        · exact Or.inl hnone
        · refine Or.inr ⟨value, before, later ++ [call], by simp, ?_⟩
          intro other hother
          rcases List.mem_append.mp hother with hother | hother
          · exact hlater other hother
          · rwa [List.mem_singleton.mp hother]
      · cases call with
        | process value => exact Or.inr ⟨value, calls, [], rfl, by simp⟩
        | setMachine name => exact absurd rfl hquiet
        | reset =>
            rw [opened_concat]
            exact Or.inl ⟨rfl, rfl⟩
        | look => exact absurd rfl hquiet

/-- Without an analysis since the last reset there is neither text nor result. -/
theorem opened_of_not_lastAsked
    (h : ∀ value, ¬ LastAsked calls value) :
    (opened m calls).lastText = Value.ofText [] ∧ (opened m calls).result = none := by
  rcases opened_cases m calls with hempty | ⟨value, hasked⟩
  · exact hempty
  · exact absurd hasked (h value)

/-- Text and result belong together unless the last call to analyze has raised. -/
theorem coherent_of_lastSucceeds (h : LastSucceeds m calls) : Coherent m calls := by
  rcases h with hnone | ⟨before, value, later, r, rfl, hquiet, hanalyze⟩
  · exact Or.inl (opened_of_not_lastAsked hnone)
  · have htext : (opened m (before ++ .process value :: later)).lastText = value :=
      lastAsked_text ⟨before, later, rfl, hquiet⟩
    have hlast : LastAnalyzed m (before ++ .process value :: later) value r := by
      refine ⟨before, later, rfl, hanalyze, ?_⟩
      rintro first call rest rfl
      exact not_renews_of_isQuiet (hquiet call (by simp))
    refine Or.inr ⟨r, ?_, hlast.result_eq⟩
    rw [htext]
    exact hlast

/-- The machine in force is the first one or a preset. -/
theorem machine_opened
    (m : Machine)
    (calls : List Call) :
    (opened m calls).machine = m ∨ ∃ name, (opened m calls).machine = Machine.ofPreset name := by
  induction calls using List.reverseRecOn with
  | nil => exact Or.inl rfl
  | append_singleton calls call ih =>
      rw [opened_concat]
      cases call with
      | process value =>
          have hsame : ((opened m calls).process value).1.machine = (opened m calls).machine := by
            cases hanalyze : (opened m calls).machine.analyzeValue value with
            | ok r => rw [process_of_ok hanalyze]
            | error e => rw [process_of_error hanalyze]
          show ((opened m calls).process value).1.machine = m ∨
            ∃ name, ((opened m calls).process value).1.machine = Machine.ofPreset name
          rw [hsame]
          exact ih
      | setMachine name =>
          cases name with
          | text name => exact Or.inr ⟨_, rfl⟩
          | _ => exact ih
      | reset => exact ih
      | look => exact ih

/-- With numeric limits, numbers that can be written and known names, the analysis of a text never
raises. -/
theorem analyzeValue_text
    (hconfig : m.config.Numeric)
    (hwritable : m.Writable)
    (hturrets : m.dialect.NamesTurrets)
    (hspindles : m.dialect.NamesSpindles)
    (calls : List Call)
    (t : DocText) :
    ∃ r, (opened m calls).machine.analyzeValue (.text t) = .ok r := by
  have hok : ∃ r, (opened m calls).machine.analyze (DocText.toText t) = .ok r := by
    rcases machine_opened m calls with hmachine | ⟨name, hmachine⟩
    · rw [hmachine]
      exact Machine.analyze_ok hconfig hwritable hturrets hspindles _
    · rw [hmachine]
      exact Machine.analyze_ok (Config.numeric_preset name) (Machine.writable_ofPreset name)
        Dialect.integrex_namesTurrets Dialect.integrex_namesSpindles _
  obtain ⟨r, hr⟩ := hok
  exact ⟨r, by rw [Machine.analyzeValue, hr]⟩

/-- What a new workbench keeps after some calls. -/
structure CallLaw (m : Machine) (calls : List Call) : Prop where
  result : ∀ r, (opened m calls).result = some r ↔ ∃ value, LastAnalyzed m calls value r
  asked : ∀ value, LastAsked calls value → (opened m calls).lastText = value
  unasked : (∀ value, ¬ LastAsked calls value) →
    (opened m calls).lastText = Value.ofText [] ∧ (opened m calls).result = none
  raised : ∀ value e, ((opened m calls).process value).2 = .error e →
    ((opened m calls).process value).1 = { opened m calls with lastText := value }
  coherent : LastSucceeds m calls → Coherent m calls
  texts : m.config.Numeric → m.Writable → m.dialect.NamesTurrets → m.dialect.NamesSpindles →
    (∀ value, .process value ∈ calls → ∃ t, value = .text t) → Coherent m calls

/-- After any calls, the result is that of the last analysis that succeeded since the last
reset, and the last text is what was asked last; they belong together unless the last
call to analyze has raised, which, where the numbers of messages can be written, only a value
that is not a text does. -/
theorem calls_keep_last_analysis (m : Machine) (calls : List Call) : CallLaw m calls := by
  constructor
  · intro r
    constructor
    · exact exists_lastAnalyzed m calls r
    · rintro ⟨value, hvalue⟩
      exact hvalue.result_eq
  · intro value hasked
    exact lastAsked_text hasked
  · exact opened_of_not_lastAsked
  · intro value e he
    exact process_of_error (analyzeValue_of_process_error he)
  · exact coherent_of_lastSucceeds
  · intro hconfig hwritable hturrets hspindles htexts
    apply coherent_of_lastSucceeds
    by_cases hasked : ∃ value, LastAsked calls value
    · obtain ⟨value, before, later, rfl, hquiet⟩ := hasked
      obtain ⟨t, rfl⟩ := htexts value (by simp)
      obtain ⟨r, hanalyze⟩ := analyzeValue_text hconfig hwritable hturrets hspindles before t
      exact Or.inr ⟨before, _, later, r, rfl, hquiet, hanalyze⟩
    · exact Or.inl (not_exists.mp hasked)

/-- A speed that is too high for the first machine is analyzed again on the faster one, after
calls that have raised. -/
theorem calls_keep_faster_analysis :
    let program := Value.ofText "G109 L1\nS6000".toList
    let calls : List Call :=
      [.process program, .process .null, .setMachine (Value.ofText "INTEGREX_I_200".toList),
        .setMachine .null, .process program, .look]
    LastSucceeds (Machine.ofPreset Config.defaultPreset) calls ∧
      Coherent (Machine.ofPreset Config.defaultPreset) calls ∧
      (opened (Machine.ofPreset Config.defaultPreset) (calls.take 2)).result.any
        (fun r => (Log.warnings r.log).length = 1) = true ∧
      (opened (Machine.ofPreset Config.defaultPreset) calls).result.any
        (fun r => (Log.warnings r.log).isEmpty) = true := by
  intro program calls
  obtain ⟨r, hanalyze⟩ := analyzeValue_text (m := Machine.ofPreset Config.defaultPreset)
    (Config.numeric_preset _) (Machine.writable_ofPreset _)
    Dialect.integrex_namesTurrets Dialect.integrex_namesSpindles
    (calls.take 4) (DocText.ofText "G109 L1\nS6000".toList)
  have hsucceeds : LastSucceeds (Machine.ofPreset Config.defaultPreset) calls :=
    Or.inr ⟨calls.take 4, program, [.look], r, rfl, by simp [Call.isQuiet], hanalyze⟩
  have hlaw := calls_keep_last_analysis (Machine.ofPreset Config.defaultPreset) calls
  exact ⟨hsucceeds, hlaw.coherent hsucceeds, by decide +kernel, by decide +kernel⟩

/-- A value that is not a text takes the place of the last text, while the result stays that of
the text before. -/
theorem calls_part_text_and_result :
    ¬ Coherent (Machine.ofPreset Config.defaultPreset)
      [.process (Value.ofText "G109 L1".toList), .process (Value.ofInt 5)] := by
  have htext : (opened (Machine.ofPreset Config.defaultPreset)
      [.process (Value.ofText "G109 L1".toList), .process (Value.ofInt 5)]).lastText =
        Value.ofInt 5 :=
    lastAsked_text ⟨[.process (Value.ofText "G109 L1".toList)], [], rfl, by simp⟩
  rintro (⟨hempty, _⟩ | ⟨r, ⟨before, later, _, hanalyze, _⟩, _⟩)
  · rw [htext] at hempty
    cases hempty
  · rw [htext] at hanalyze
    cases hanalyze

end Workbench
end DualTurret
