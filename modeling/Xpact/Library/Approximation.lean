import Mathlib.Logic.Basic
import Xpact.Library.Program

/-!
# Approximations

A program that limits its nested calls is stuck where they exceed the limit.  With a larger limit it
is the same tree with something else in those places: the first one approximates the second.  The
order is one of trees, so it is kept by whatever is built from them, and a run that finishes comes
to the same end in all that a program approximates (`Approximates.run_eq`).  What is computed so
within a bound has one result (`HasOneResult`).
-/

namespace Xpact.Library.Program

variable {ι κ ω ν σ α β γ : Type}

/-- `n` is `m` with other programs in the places where `m` is stuck. -/
class inductive Approximates : Program ι ω α → Program ι ω α → Prop
  | stuck (n : Program ι ω α) : Approximates .stuck n
  | done (a : α) : Approximates (.done a) (.done a)
  | look {k l : ω → Program ι ω α} : (∀ w, Approximates (k w) (l w)) →
      Approximates (.look k) (.look l)
  | exec (c : ι) {m n : Program ι ω α} : Approximates m n → Approximates (.exec c m) (.exec c n)

namespace Approximates

theorem refl (m : Program ι ω α) : Approximates m m := by
  induction m with
  | done a => exact done a
  | look k ih => exact look ih
  | exec c k ih => exact exec c ih
  | stuck => exact stuck _

/-- A run that finishes is a run of all that the program approximates. -/
theorem run_eq {M : Machine ι ω σ} {m n : Program ι ω α} (h : Approximates m n) {s : σ} {r : α × σ}
    (hrun : m.run M s = some r) : n.run M s = some r := by
  induction h generalizing s with
  | stuck n => cases hrun
  | done a => exact hrun
  | look _ ih => exact ih (M.see s) hrun
  | exec c _ ih => exact ih hrun

theorem bind {m n : Program ι ω α} {f g : α → Program ι ω β} (hmn : Approximates m n)
    (hfg : ∀ a, Approximates (f a) (g a)) : Approximates (m >>= f) (n >>= g) := by
  induction hmn with
  | stuck n => exact stuck _
  | done a => exact hfg a
  | look _ ih => exact look ih
  | exec c _ ih => exact exec c ih

theorem ite {c : Prop} [Decidable c] {m n m' n' : Program ι ω α} (hm : Approximates m m')
    (hn : Approximates n n') : Approximates (if c then m else n) (if c then m' else n') := by
  split
  · exact hm
  · exact hn

/-- Loops with more rounds do no other ones. -/
theorem loop {finished finished' : γ → Program ι ω Bool} {body body' : γ → Program ι ω γ}
    (hfinished : ∀ c, Approximates (finished c) (finished' c))
    (hbody : ∀ c, Approximates (body c) (body' c)) {k l : Nat} (hkl : k ≤ l) (c : γ) :
    Approximates (Program.loop finished body k c) (Program.loop finished' body' l c) := by
  induction k generalizing l c with
  | zero => exact stuck _
  | succ k ih =>
    cases l with
    | zero => cases hkl
    | succ l =>
      refine bind (hfinished c) fun b ↦ ite (refl _) ?_
      exact bind (hbody c) fun c' ↦ ih (Nat.le_of_succ_le_succ hkl) c'

theorem lift (f : ι → κ) (g : ν → ω) {m n : Program ι ω α} (h : Approximates m n) :
    Approximates (m.lift f g : Program κ ν α) (n.lift f g) := by
  induction h with
  | stuck n => exact stuck _
  | done a => exact done a
  | look _ ih => exact look fun w ↦ ih (g w)
  | exec c _ ih => exact exec (f c) ih

end Approximates

instance (priority := high) approximates_refl (m : Program ι ω α) : Approximates m m := .refl m

instance approximates_bind (m n : Program ι ω α) (f g : α → Program ι ω β)
    [hmn : Approximates m n] [hfg : ∀ a, Approximates (f a) (g a)] :
    Approximates (m >>= f) (n >>= g) := hmn.bind hfg

instance approximates_ite (c : Prop) [Decidable c] (m n m' n' : Program ι ω α)
    [hm : Approximates m m'] [hn : Approximates n n'] :
    Approximates (if c then m else n) (if c then m' else n') := hm.ite hn

instance approximates_loop (finished finished' : γ → Program ι ω Bool)
    (body body' : γ → Program ι ω γ) [hfinished : ∀ c, Approximates (finished c) (finished' c)]
    [hbody : ∀ c, Approximates (body c) (body' c)] (n : Nat) (c : γ) :
    Approximates (Program.loop finished body n c) (Program.loop finished' body' n c) :=
  .loop hfinished hbody (Nat.le_refl n) c

/-! ## Results within a bound -/

/-- A result with some bound is the result with every larger bound, and the only one with any. -/
def HasOneResult (f : Nat → Option α) : Prop :=
  ∀ ⦃b r⦄, f b = some r → ∀ c, (b ≤ c → f c = some r) ∧ ∀ r', f c = some r' → r' = r

theorem hasOneResult_of_le {f : Nat → Option α}
    (hf : ∀ {b c r}, b ≤ c → f b = some r → f c = some r) : HasOneResult f := by
  refine fun b r hb c ↦ ⟨fun hle ↦ hf hle hb, fun r' hc ↦ ?_⟩
  rcases Nat.le_total b c with hle | hle
  · exact Option.some.inj (hc.symm.trans (hf hle hb))
  · exact Option.some.inj ((hf hle hc).symm.trans hb)

end Xpact.Library.Program
