import Xpact.Library.Judge
import Xpact.Parser.Log
import Xpact.Parser.Names

/-!
# Recognizers

The scanners and the parsers of declarations read the subset and report nothing but the first error,
up to the event at their end.
-/

namespace Xpact

open Library Program Routine

/-- The first error stays. -/
theorem Parser.setError_of_hasError {p : Parser} (h : p.core.hasError = true) (message : String) :
    p.setError message = p := by
  unfold Parser.setError
  rw [if_pos h]

/-- The only failure of a recognizer is an error of the parser. -/
def Parser.verdict (cfg : Config) : Verdict Parser where
  Inv p := p.config = cfg
  Failed p := p.core.hasError = true
  Fails p q := ∃ message, q = p.setError message
  inv {p q} h hp := by
    obtain ⟨message, rfl⟩ := h
    unfold Parser.setError
    split
    · exact hp
    · exact hp
  failed {p q} h := by
    obtain ⟨message, rfl⟩ := h
    exact Parser.setError_hasError p message
  trans {p q r} h h' := by
    obtain ⟨message, rfl⟩ := h
    obtain ⟨message', rfl⟩ := h'
    exact ⟨message, Parser.setError_of_hasError (Parser.setError_hasError p message) message'⟩

/-- `m` recognizes what satisfies `P`. -/
abbrev Recognizes (cfg : Config) (m : Routine α) (P : α → Prop) : Prop :=
  m.Judges Parser.routineMachine (Parser.verdict cfg) P

namespace Recognizes

variable {cfg : Config} {α β : Type} {P : α → Prop}

theorem failAt (message : String) (a : α) : Recognizes cfg (failAt message a) P := by
  intro p _
  refine ⟨a, p.setError message, rfl, Or.inr ⟨message, rfl⟩, fun h ↦ ?_⟩
  exact absurd (Parser.setError_hasError p message) h

theorem setError (message : String) {P : Unit → Prop} :
    Recognizes cfg (setError message) P := by
  intro p _
  refine ⟨(), p.setError message, rfl, Or.inr ⟨message, rfl⟩, fun h ↦ ?_⟩
  exact absurd (Parser.setError_hasError p message) h

theorem scanName (input : String8) (start : Nat) :
    Recognizes cfg (scanName input start)
      fun stop ↦ scanNameFrom cfg input start (input.length + 1) start = (stop, false) := by
  intro p hp
  have hcfg : p.config = cfg := hp
  rw [run_scanName, hcfg]
  generalize scanNameFrom cfg input start (input.length + 1) start = scan
  obtain ⟨stop, failed⟩ := scan
  cases failed with
  | false => exact ⟨stop, p, rfl, Or.inl rfl, fun _ ↦ rfl⟩
  | true =>
    refine ⟨stop, _, rfl, Or.inr ⟨_, rfl⟩, fun h ↦ ?_⟩
    exact absurd (Parser.setError_hasError p _) h

end Recognizes

/-! ## Runs without an error -/

section

variable {p : Parser} {α : Type}

theorem run_hasError : Routine.hasError.run Parser.routineMachine p = some (p.core.hasError, p) := rfl

theorem run_failAt (message : String) (a : α) :
    (failAt message a).run Parser.routineMachine p = some (a, p.setError message) := rfl

theorem run_scanName_of_scan {input : String8} {start stop : Nat}
    (h : scanNameFrom p.config input start (input.length + 1) start = (stop, false)) :
    (scanName input start).run Parser.routineMachine p = some (stop, p) := by
  rw [run_scanName, h]
  rfl

end

end Xpact
