import DualTurret.Proofs.Scan.Moment

/-!
# Wait codes of a run

A turret issues a wait code at each line that it works on and that has one.  Lines that
select a turret issue none, nor do lines of the common section.  The wait history that a
scan keeps for a turret is what the lines of its stream have issued, in their order.
-/

namespace DualTurret

namespace Dialect

/-- The wait code that a turret issues at a line of its stream. -/
def issuedWait? (d : Dialect) (entry : ClassifiedLine) : Option WaitCode :=
  if (d.selectedTurret? entry.text).isNone then d.waitCode? entry.text else none

/-- The wait code that a turret issues at a line, as its history records it. -/
def waitRecord? (d : Dialect) (entry : ClassifiedLine) : Option WaitEntry :=
  (d.issuedWait? entry).map fun wait => ⟨wait.code, entry.line, wait.value⟩

/-- The latest wait code, as written, that a turret has issued at the lines up to a number. -/
def latestCode?
    (d : Dialect)
    (streams : Stream → List ClassifiedLine)
    (t : Turret)
    (number : Int) :
    Option Text :=
  ((ClassifiedLine.upTo (streams (.turret t)) number).filterMap d.issuedWait?).getLast?.map
    WaitCode.code

theorem waitRecord?_of_select
    {d : Dialect}
    {entry : ClassifiedLine}
    {held : Text × Text}
    (h : d.selectedTurret? entry.text = some held) :
    d.waitRecord? entry = none := by
  simp [waitRecord?, issuedWait?, h]

theorem waitRecord?_of_work
    {d : Dialect}
    {entry : ClassifiedLine}
    (h : d.selectedTurret? entry.text = none) :
    d.waitRecord? entry =
      (d.waitCode? entry.text).map fun wait => ⟨wait.code, entry.line, wait.value⟩ := by
  simp [waitRecord?, issuedWait?, h]

end Dialect

namespace Machine

variable {m : Machine} {raw done : List Text} {s : Trace}

/-- A step adds to a turret's wait history what the line that it places there issues. -/
theorem Advance.waits_eq
    {p : Progress}
    {index line : Int}
    {text : Text}
    {outcome : Outcome}
    (h : Advance m raw p index line text outcome)
    (t : Turret) :
    (outcome.progress.states.get t).waits =
      (p.states.get t).waits ++
        ((outcome.reading line).lineIn? (.turret t)).toList.filterMap m.dialect.waitRecord? := by
  cases hentry : (outcome.reading line).lineIn? (.turret t) with
  | none =>
      rw [h.state_eq_of_entry_none hentry]
      simp
  | some entry =>
      have hplaced := Reading.lineIn?_eq_some.mp hentry
      cases h with
      | header => cases hplaced
      | common => cases hplaced
      | select hselect =>
          cases hplaced
          have hissued : m.dialect.waitRecord?
              ((p.states.get t).snapshot text line .turretSelect false) = none :=
            Dialect.waitRecord?_of_select hselect
          simp [hissued, readSelection]
      | @routed t signals hselect =>
          cases hplaced
          have hissued : m.dialect.waitRecord? (m.routedEntry p t signals line text) =
              (m.dialect.waitCode? text).map fun wait => ⟨wait.code, line, wait.value⟩ :=
            Dialect.waitRecord?_of_work hselect
          show ((m.routedProgress p t signals line text).states.get t).waits =
            _ ++ [m.routedEntry p t signals line text].filterMap _
          rw [routedProgress_state, follow]
          cases hwait : m.dialect.waitCode? text with
          | none =>
              rw [hwait] at hissued
              simp [hissued]
          | some wait =>
              rw [hwait] at hissued
              simp [hissued]

/-- The wait history of a turret is what the lines of its stream have issued. -/
theorem Reaches.waits_eq
    (h : Reaches m raw done s)
    (t : Turret) :
    (s.progress.states.get t).waits =
      (s.stream (.turret t)).filterMap m.dialect.waitRecord? := by
  induction h with
  | start => cases t <;> rfl
  | skip _ _ ih => exact ih
  | advance _ _ step ih =>
      rw [Trace.stream_after, List.filterMap_append, ← ih]
      exact step.waits_eq t

/-- The code that a turret has issued last is that of the last line that issues one. -/
theorem Reaches.lastWait?_code
    (h : Reaches m raw done s)
    (t : Turret) :
    (s.progress.states.get t).lastWait?.map WaitEntry.code =
      ((s.stream (.turret t)).filterMap m.dialect.issuedWait?).getLast?.map WaitCode.code := by
  have hcodes : ((s.stream (.turret t)).filterMap m.dialect.waitRecord?).map WaitEntry.code =
      ((s.stream (.turret t)).filterMap m.dialect.issuedWait?).map WaitCode.code := by
    simp only [List.map_filterMap, Dialect.waitRecord?, Option.map_map]
    rfl
  rw [TurretState.lastWait?, h.waits_eq, ← List.getLast?_map, hcodes, List.getLast?_map]

end Machine
end DualTurret
