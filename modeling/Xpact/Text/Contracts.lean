import Xpact.Library.Contracts
import Xpact.Text.Suffixes

/-!
# Contracts of strings

Accesses to a string at an index, which stop the program outside of the string, and calls of the
scanners with their preconditions.
-/

namespace Xpact

open Library Checked

/-- `item`, at a valid index. -/
def itemAt (s : String8) (i : Nat) : Checked Character8 :=
  if 1 ≤ i ∧ i ≤ s.length then .ok (s.item i) else .error .access

/-- `substring`, between valid indices. -/
def substringAt (s : String8) (i j : Nat) : Checked String8 :=
  if 1 ≤ i ∧ i ≤ j + 1 ∧ j ≤ s.length then .ok (s.substring i j) else .error .access

/-- A call of `skip_spaces`. -/
def callSkipSpaces (s : String8) (i : Nat) : Checked Nat := do
  require (1 ≤ i ∧ i ≤ s.length + 1)
  return skipSpaces s i

/-- A call of `has_at`. -/
def callHasAt (s : String8) (i : Nat) (marker : String8) : Checked Bool := do
  require (1 ≤ i ∧ i ≤ s.length + 1)
  return hasAt s i marker

section

variable {buffer u v : String8} {i : Nat} {c : Character8}

theorem itemAt_eq (hi : 1 ≤ i) (hin : i ≤ buffer.length) : itemAt buffer i = .ok (buffer.item i) :=
  if_pos ⟨hi, hin⟩

theorem itemAt_of_restAt (h : RestAt buffer i (c :: v)) : itemAt buffer i = .ok c := by
  have hindex := h.index
  rw [List.length_cons] at hindex
  unfold itemAt
  rw [if_pos ⟨h.pos, by omega⟩, h.item]

theorem substringAt_of_restAt (h : RestAt buffer i (u ++ v)) :
    substringAt buffer i (i + u.length - 1) = .ok u := by
  have hindex := h.index
  have hpos := h.pos
  rw [List.length_append] at hindex
  unfold substringAt
  rw [if_pos ⟨hpos, by omega, by omega⟩, h.substring]

theorem callSkipSpaces_eq (hi : 1 ≤ i) (hin : i ≤ buffer.length + 1) :
    callSkipSpaces buffer i = .ok (skipSpaces buffer i) := by
  unfold callSkipSpaces
  rw [require_of ⟨hi, hin⟩]
  rfl

theorem callHasAt_eq (hi : 1 ≤ i) (hin : i ≤ buffer.length + 1) (marker : String8) :
    callHasAt buffer i marker = .ok (hasAt buffer i marker) := by
  unfold callHasAt
  rw [require_of ⟨hi, hin⟩]
  rfl

end

end Xpact
