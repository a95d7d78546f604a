import Xpact.Library.Contracts
import Xpact.Library.Judge

/-!
# Loops that an error ends

A round takes the variables of the loop and returns them with the error it has met, if any.  The
loop ends when its test holds or a round has failed.  One such loop may be written as a program and
once more as a program that checks its contracts: both come to what the rounds lead to.
-/

namespace Xpact.Library

variable {τ ε : Type}

/-- What the rounds lead to from `s`, with the error of the last of them. -/
inductive Leads (done : τ → Bool) (round : τ → τ × Option ε) : τ → τ → Option ε → Prop where
  | here (s : τ) : Leads done round s s none
  | next {s t u : τ} {e : Option ε} : done s = false → round s = (t, none) →
      Leads done round t u e → Leads done round s u e
  | fails {s t : τ} {e : ε} : done s = false → round s = (t, some e) →
      Leads done round s t (some e)

/-- Nothing follows on these variables. -/
def Ended (done : τ → Bool) (s : τ) (e : Option ε) : Prop := done s = true ∨ e.isSome = true

/-- The rounds keep `I`, and one that does not fail decreases `μ`. -/
structure Progresses (done : τ → Bool) (round : τ → τ × Option ε) (I : τ → Prop) (μ : τ → Nat) :
    Prop where
  keeps : ∀ s, I s → done s = false → I (round s).1
  decreases : ∀ s, I s → done s = false → (round s).2 = none → μ (round s).1 < μ s

section

variable {done : τ → Bool} {round : τ → τ × Option ε} {I : τ → Prop} {μ : τ → Nat} {s t u : τ}
  {e e' : Option ε}

namespace Leads

theorem trans (hst : Leads done round s t none) (htu : Leads done round t u e) :
    Leads done round s u e := by
  generalize hnone : (none : Option ε) = f at hst
  induction hst with
  | here s => exact htu
  | next hdone hround _ ih => exact .next hdone hround (ih htu hnone)
  | fails hdone hround => cases hnone

theorem of_done (hs : done s = true) (h : Leads done round s t e) : t = s ∧ e = none := by
  cases h with
  | here => exact ⟨rfl, rfl⟩
  | next hdone => exact absurd (hdone.symm.trans hs) Bool.false_ne_true
  | fails hdone => exact absurd (hdone.symm.trans hs) Bool.false_ne_true

/-- What lies behind the first round. -/
theorem of_round (hround : round s = (t, none)) (h : Leads done round s u e) :
    u = s ∧ e = none ∨ Leads done round t u e := by
  cases h with
  | here => exact .inl ⟨rfl, rfl⟩
  | next hdone hround' hrest =>
    rw [hround] at hround'
    cases hround'
    exact .inr hrest
  | fails hdone hround' =>
    rw [hround] at hround'
    cases hround'

/-- The rounds are determined: all lead to one end. -/
theorem to_end (hst : Leads done round s t none) (hsu : Leads done round s u e)
    (hu : Ended done u e) : Leads done round t u e := by
  generalize hnone : (none : Option ε) = f at hst
  induction hst with
  | here s => exact hsu
  | @next s r t f hdone hround _ ih =>
    rcases hsu.of_round hround with ⟨rfl, rfl⟩ | hrest
    · rcases hu with hu | hu
      · rw [hdone] at hu
        cases hu
      · cases hu
    · exact ih hrest hnone
  | fails hdone hround => cases hnone

theorem end_unique (hst : Leads done round s t e) (ht : Ended done t e)
    (hsu : Leads done round s u e') (hu : Ended done u e') : u = t ∧ e' = e := by
  induction hst with
  | here s =>
    rcases ht with ht | ht
    · exact of_done ht hsu
    · cases ht
  | next hdone hround _ ih =>
    rcases hsu.of_round hround with ⟨rfl, rfl⟩ | hrest
    · rcases hu with hu | hu
      · rw [hdone] at hu
        cases hu
      · cases hu
    · exact ih ht hrest
  | fails hdone hround =>
    cases hsu with
    | here =>
      rcases hu with hu | hu
      · rw [hdone] at hu
        cases hu
      · cases hu
    | next _ hround' _ =>
      rw [hround] at hround'
      cases hround'
    | fails _ hround' =>
      rw [hround] at hround'
      cases hround'
      exact ⟨rfl, rfl⟩

theorem keeps (hI : ∀ s, I s → done s = false → I (round s).1) (h : Leads done round s t e)
    (hs : I s) : I t := by
  induction h with
  | here s => exact hs
  | next hdone hround _ ih =>
    apply ih
    have hnext := hI _ hs hdone
    rwa [hround] at hnext
  | fails hdone hround =>
    have hnext := hI _ hs hdone
    rwa [hround] at hnext

end Leads

theorem Progresses.exists_end (h : Progresses done round I μ) (hs : I s) :
    ∃ t e, Leads done round s t e ∧ Ended done t e := by
  generalize hn : μ s = n
  induction n using Nat.strongRecOn generalizing s with
  | ind n ih =>
    by_cases hdone : done s = true
    · exact ⟨s, none, .here s, .inl hdone⟩
    have hdone : done s = false := Bool.eq_false_iff.2 hdone
    have hkeeps := h.keeps s hs hdone
    have hless := h.decreases s hs hdone
    rcases hround : round s with ⟨t, _ | e⟩
    · rw [hround] at hkeeps hless
      have hlt : μ t < μ s := hless rfl
      obtain ⟨u, e, hleads, hend⟩ := ih (μ t) (by omega) hkeeps rfl
      exact ⟨u, e, .next hdone hround hleads, hend⟩
    · exact ⟨t, some e, .fails hdone hround, .inr rfl⟩

/-! ## As a program -/

section

open Program

variable {ι ω σ : Type} {M : Machine ι ω σ} {finished : τ → Program ι ω Bool}
  {body : τ → Program ι ω τ} {raise : Option ε → σ} {n : Nat}

/-- A program whose state holds no more than the error. -/
theorem Progresses.run_loop (h : Progresses done round I μ)
    (hfinished : ∀ s e, (finished s).run M (raise e) = some (done s || e.isSome, raise e))
    (hbody : ∀ s, I s → done s = false →
      (body s).run M (raise none) = some ((round s).1, raise (round s).2))
    (hs : I s) (hn : μ s + 1 < n) (hend : Leads done round s t e) (ht : Ended done t e) :
    (loop finished body n s).run M (raise none) = some (t, raise e) := by
  induction n generalizing s with
  | zero => omega
  | succ n ih =>
    rw [loop, run_bind, hfinished, Option.bind_some]
    cases hdone : done s with
    | true =>
      obtain ⟨rfl, rfl⟩ := Leads.of_done hdone hend
      rfl
    | false =>
      have hkeeps := h.keeps s hs hdone
      have hless := h.decreases s hs hdone
      rw [Option.isSome_none, Bool.or_false, if_neg Bool.false_ne_true, run_bind,
        hbody s hs hdone, Option.bind_some]
      rcases hround : round s with ⟨u, _ | e'⟩
      · rw [hround] at hkeeps hless
        have hlt : μ u < μ s := hless rfl
        have hfuel : μ u + 1 < n := by omega
        exact ih hkeeps hfuel
          (Leads.to_end (.next hdone hround (.here u)) hend ht)
      · obtain ⟨rfl, rfl⟩ := Leads.end_unique (.fails hdone hround) (.inr rfl) hend ht
        obtain ⟨n, rfl⟩ : ∃ k, n = k + 1 := ⟨n - 1, by omega⟩
        rw [loop, run_bind, hfinished, Option.bind_some, Option.isSome_some, Bool.or_true]
        rfl

end

/-! ## With its contracts -/

namespace Checked

variable {variant : τ × Option ε → Int} {finished : τ × Option ε → Checked Bool}
  {body : τ × Option ε → Checked (τ × Option ε)} {stuck : τ → Prop}

/-- What a loop with contracts does on the rounds; its variant stays the same where `stuck` holds. -/
structure Monitors (done : τ → Bool) (round : τ → τ × Option ε) (I stuck : τ → Prop)
    (variant : τ × Option ε → Int) (finished : τ × Option ε → Checked Bool)
    (body : τ × Option ε → Checked (τ × Option ε)) : Prop where
  finished : ∀ s e, I s → finished (s, e) = .ok (done s || e.isSome)
  body : ∀ s, I s → done s = false → body (s, none) = .ok (round s)
  keeps : ∀ s, I s → done s = false → I (round s).1
  nonneg : ∀ s e, I s → 0 ≤ variant (s, e)
  decreases : ∀ s, I s → done s = false → ¬ stuck s → variant (round s) < variant (s, none)
  stays : ∀ s, I s → done s = false → stuck s → variant (s, none) ≤ variant (round s)

namespace Monitors

/-- A loop that comes to no state where its variant is stuck ends as the rounds do. -/
theorem loop_ok (h : Monitors done round I stuck variant finished body) (hs : I s)
    (hfree : ∀ t, Leads done round s t none → done t = false → ¬ stuck t) :
    ∃ t e, Leads done round s t e ∧ Ended done t e ∧
      loop variant finished body (s, none) = .ok (t, e) := by
  generalize hn : (variant (s, none)).toNat = n
  have hzero := h.nonneg s none hs
  induction n using Nat.strongRecOn generalizing s with
  | ind n ih =>
    have hfinished := h.finished s none hs
    rw [Option.isSome_none, Bool.or_false] at hfinished
    cases hdone : done s with
    | true =>
      rw [hdone] at hfinished
      exact ⟨s, none, .here s, .inl hdone, loop_of_finished hzero hfinished⟩
    | false =>
      rw [hdone] at hfinished
      have hkeeps := h.keeps s hs hdone
      have hbody := h.body s hs hdone
      have hless := h.decreases s hs hdone (hfree s (.here s) hdone)
      rcases hround : round s with ⟨t, _ | e⟩
      · rw [hround] at hkeeps hbody hless
        have hnext := h.nonneg t none hkeeps
        obtain ⟨u, e, hleads, hend, hloop⟩ := ih (variant (t, none)).toNat (by omega) hkeeps
          (fun u hu ↦ hfree u (.next hdone hround hu)) rfl hnext
        refine ⟨u, e, .next hdone hround hleads, hend, ?_⟩
        rw [loop_next hzero hfinished hbody hnext hless]
        exact hloop
      · rw [hround] at hkeeps hbody hless
        have hnext := h.nonneg t (some e) hkeeps
        have hends := h.finished t (some e) hkeeps
        rw [Option.isSome_some, Bool.or_true] at hends
        refine ⟨t, some e, .fails hdone hround, .inr rfl, ?_⟩
        rw [loop_next hzero hfinished hbody hnext hless]
        exact loop_of_finished hnext hends

/-- A loop that comes to a state where its variant is stuck breaks off. -/
theorem loop_error (h : Monitors done round I stuck variant finished body) (hs : I s)
    (hst : Leads done round s t none) (hdone : done t = false) (hstuck : stuck t) :
    loop variant finished body (s, none) = .error .variant := by
  obtain ⟨f, hnone⟩ : ∃ f : Option ε, f = none := ⟨none, rfl⟩
  rw [← hnone] at hst
  have hbreaks {s : τ} (hs : I s) (hdone : done s = false) (hstuck : stuck s) :
      loop variant finished body (s, none) = .error .variant := by
    apply loop_stuck (h.nonneg s none hs) _ (h.body s hs hdone) (h.stays s hs hdone hstuck)
    rw [h.finished s none hs, hdone]
    rfl
  induction hst with
  | here s => exact hbreaks hs hdone hstuck
  | @next s r t f hdoneHere hround _ ih =>
    by_cases hstuckHere : stuck s
    · exact hbreaks hs hdoneHere hstuckHere
    · have hkeeps := h.keeps s hs hdoneHere
      have hbody := h.body s hs hdoneHere
      have hless := h.decreases s hs hdoneHere hstuckHere
      have hfinished := h.finished s none hs
      rw [hround] at hkeeps hbody hless
      rw [hdoneHere] at hfinished
      rw [loop_next (h.nonneg s none hs) hfinished hbody (h.nonneg r none hkeeps) hless]
      exact ih hkeeps hdone hstuck hnone
  | fails _ _ => cases hnone

end Monitors

end Checked

end

end Xpact.Library
