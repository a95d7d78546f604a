import Mathlib.Data.List.Basic

/-!
# Programs that check their contracts

A checked program stops where a precondition, a postcondition or the invariant of a loop does not
hold, where an index is outside of its text, or where the variant of a loop is negative or has not
decreased.  A loop needs no other bound on its rounds: its variant is one.
-/

namespace Xpact.Library

inductive Violation where
  | precondition | postcondition | invariant | access | variant
  deriving DecidableEq, Repr

abbrev Checked (α : Type) : Type := Except Violation α

namespace Checked

variable {α β σ : Type}

theorem ok_bind (a : α) (f : α → Checked β) : ((.ok a : Checked α) >>= f) = f a := rfl

/-- A precondition. -/
def require (c : Prop) [Decidable c] : Checked Unit := if c then .ok () else .error .precondition

theorem require_of {c : Prop} [Decidable c] (h : c) : require c = .ok () := if_pos h

theorem require_of_not {c : Prop} [Decidable c] (h : ¬ c) : require c = .error .precondition :=
  if_neg h

/-- A postcondition. -/
def ensure (c : Prop) [Decidable c] : Checked Unit := if c then .ok () else .error .postcondition

/-- The invariant of a loop. -/
def maintain (c : Prop) [Decidable c] : Checked Unit := if c then .ok () else .error .invariant

theorem ensure_of {c : Prop} [Decidable c] (h : c) : ensure c = .ok () := if_pos h

theorem maintain_of {c : Prop} [Decidable c] (h : c) : maintain c = .ok () := if_pos h

/-! ## Loops -/

section

variable (variant : σ → Int) (finished : σ → Checked Bool) (body : σ → Checked σ)

/-- The variant after a round, against the one before it. -/
def Decreases (s t : σ) : Prop := 0 ≤ variant t ∧ variant t < variant s

instance (s t : σ) : Decidable (Decreases variant s t) := inferInstanceAs (Decidable (_ ∧ _))

/-- The rounds of a loop whose variant is at most `n`. -/
def loopFrom : Nat → σ → Checked σ
  | 0, s => do
    if ← finished s then
      return s
    else
      let _ ← body s
      .error .variant
  | n + 1, s => do
    if ← finished s then
      return s
    else
      let t ← body s
      if Decreases variant s t then loopFrom n t else .error .variant

/-- `from s until finished loop body variant end`. -/
def loop (s : σ) : Checked σ :=
  if 0 ≤ variant s then loopFrom variant finished body (variant s).toNat s else .error .variant

end

section

variable {variant : σ → Int} {finished : σ → Checked Bool} {body : σ → Checked σ} {s t : σ}

theorem loop_of_finished (hs : 0 ≤ variant s) (hfinished : finished s = .ok true) :
    loop variant finished body s = .ok s := by
  unfold loop
  rw [if_pos hs]
  cases (variant s).toNat with
  | zero =>
    rw [loopFrom, hfinished]
    rfl
  | succ n =>
    rw [loopFrom, hfinished]
    rfl

/-- More rounds than the variant allows make no difference. -/
theorem loopFrom_eq {n m : Nat} (hn : variant s ≤ n) (hm : variant s ≤ m) :
    loopFrom variant finished body n s = loopFrom variant finished body m s := by
  induction n generalizing m s with
  | zero =>
    cases m with
    | zero => rfl
    | succ m =>
      rw [loopFrom, loopFrom]
      congr 1
      funext done
      split
      · rfl
      · congr 1
        funext t
        rw [if_neg]
        rintro ⟨hzero, hless⟩
        omega
  | succ n ih =>
    cases m with
    | zero =>
      rw [loopFrom, loopFrom]
      congr 1
      funext done
      split
      · rfl
      · congr 1
        funext t
        rw [if_neg]
        rintro ⟨hzero, hless⟩
        omega
    | succ m =>
      rw [loopFrom, loopFrom]
      congr 1
      funext done
      split
      · rfl
      · congr 1
        funext t
        split
        · rename_i hless
          exact ih (by have := hless.2; omega) (by have := hless.2; omega)
        · rfl

/-- One round. -/
theorem loop_eq (hs : 0 ≤ variant s) (hfinished : finished s = .ok false) (hbody : body s = .ok t) :
    loop variant finished body s =
      if Decreases variant s t then loop variant finished body t else .error .variant := by
  unfold loop
  rw [if_pos hs]
  by_cases hless : Decreases variant s t
  · obtain ⟨hzero, hlt⟩ := hless
    obtain ⟨n, hn⟩ : ∃ n, (variant s).toNat = n + 1 := ⟨(variant s).toNat - 1, by omega⟩
    rw [hn, loopFrom, hfinished, ok_bind, if_neg Bool.false_ne_true, hbody, ok_bind,
      if_pos ⟨hzero, hlt⟩, if_pos ⟨hzero, hlt⟩, if_pos hzero]
    exact loopFrom_eq (by omega) (by omega)
  · rw [if_neg hless]
    cases (variant s).toNat with
    | zero =>
      rw [loopFrom, hfinished, ok_bind, if_neg Bool.false_ne_true, hbody]
      rfl
    | succ n =>
      rw [loopFrom, hfinished, ok_bind, if_neg Bool.false_ne_true, hbody, ok_bind, if_neg hless]

theorem loop_next (hs : 0 ≤ variant s) (hfinished : finished s = .ok false) (hbody : body s = .ok t)
    (hzero : 0 ≤ variant t) (hless : variant t < variant s) :
    loop variant finished body s = loop variant finished body t := by
  rw [loop_eq hs hfinished hbody, if_pos ⟨hzero, hless⟩]

/-- A round that leaves the variant as it is. -/
theorem loop_stuck (hs : 0 ≤ variant s) (hfinished : finished s = .ok false)
    (hbody : body s = .ok t) (hless : variant s ≤ variant t) :
    loop variant finished body s = .error .variant := by
  rw [loop_eq hs hfinished hbody, if_neg]
  rintro ⟨-, hlt⟩
  omega

end

/-! ## Programs that come to a value -/

/-- `m` comes to `a`, unless `broken` holds: then it stops at a violation. -/
structure ComesTo (m : Checked α) (a : α) (broken : Prop) : Prop where
  ok : ¬ broken → m = .ok a
  error : broken → ∃ v, m = .error v

theorem ComesTo.of_ok {m : Checked α} {a : α} {broken : Prop} (hm : m = .ok a) (h : ¬ broken) :
    ComesTo m a broken := ⟨fun _ ↦ hm, fun hbroken ↦ absurd hbroken h⟩

theorem ComesTo.of_error {m : Checked α} {a : α} {broken : Prop} {v : Violation}
    (hm : m = .error v) (h : broken) : ComesTo m a broken :=
  ⟨fun hnot ↦ absurd h hnot, fun _ ↦ ⟨v, hm⟩⟩

theorem ComesTo.eq_ok_iff {m : Checked α} {a : α} {broken : Prop} (h : ComesTo m a broken) :
    m = .ok a ↔ ¬ broken := by
  constructor
  · intro hm hbroken
    obtain ⟨v, hv⟩ := h.error hbroken
    rw [hm] at hv
    cases hv
  · exact h.ok

theorem ComesTo.bind {m : Checked α} {f : α → Checked β} {a : α} {b : β} {first rest broken : Prop}
    (hm : ComesTo m a first) (hf : ¬ first → ComesTo (f a) b rest)
    (hbroken : broken ↔ first ∨ ¬ first ∧ rest) : ComesTo (m >>= f) b broken := by
  by_cases hfirst : first
  · obtain ⟨v, hv⟩ := hm.error hfirst
    rw [hv]
    exact .of_error rfl (hbroken.2 (.inl hfirst))
  · rw [hm.ok hfirst, ok_bind]
    have hrest := hf hfirst
    constructor
    · intro hnot
      exact hrest.ok fun h ↦ hnot (hbroken.2 (.inr ⟨hfirst, h⟩))
    · intro h
      rcases hbroken.1 h with h | h
      · exact absurd h hfirst
      · exact hrest.error h.2

theorem ComesTo.bind_ok {m : Checked α} {f : α → Checked β} {a : α} {b : β} {broken : Prop}
    (hm : ComesTo m a broken) (hf : f a = .ok b) : ComesTo (m >>= f) b broken := by
  apply hm.bind (fun _ ↦ .of_ok hf not_false)
  rw [and_false, or_false]

end Checked

end Xpact.Library
