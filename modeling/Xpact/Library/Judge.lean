import Xpact.Library.Program

/-!
# Programs that judge

A recognizer reads its input and changes nothing but the record of a failure.  Its runs end, in the
state in which they began or in one where a failure has been recorded; what they return is worth
something in the first case only.
-/

namespace Xpact.Library.Program

variable {ι ω σ τ α β : Type}

/-- How failures are recorded in a state. -/
structure Verdict (σ : Type) where
  /-- What recognizers rely on and failures keep. -/
  Inv : σ → Prop
  Failed : σ → Prop
  Fails : σ → σ → Prop
  inv : ∀ {s t}, Fails s t → Inv s → Inv t
  failed : ∀ {s t}, Fails s t → Failed t
  trans : ∀ {s t u}, Fails s t → Fails t u → Fails s u

/-- Every run of `m` ends; unless it has recorded a failure its value satisfies `P`. -/
def Judges (M : Machine ι ω σ) (V : Verdict σ) (m : Program ι ω α) (P : α → Prop) : Prop :=
  ∀ s, V.Inv s → ∃ a t, m.run M s = some (a, t) ∧ (t = s ∨ V.Fails s t) ∧ (¬ V.Failed t → P a)

namespace Judges

variable {M : Machine ι ω σ} {V : Verdict σ} {P Q : α → Prop}

theorem pure {a : α} (h : P a) : Judges M V (Pure.pure a : Program ι ω α) P :=
  fun s _ ↦ ⟨a, s, rfl, Or.inl rfl, fun _ ↦ h⟩

theorem mono {m : Program ι ω α} (h : Judges M V m P) (hPQ : ∀ a, P a → Q a) : Judges M V m Q := by
  intro s hs
  obtain ⟨a, t, hrun, hend, hP⟩ := h s hs
  exact ⟨a, t, hrun, hend, fun ht ↦ hPQ a (hP ht)⟩

theorem bind {Q : β → Prop} {m : Program ι ω α} {f : α → Program ι ω β} (hm : Judges M V m P)
    (hf : ∀ a, Judges M V (f a) fun b ↦ P a → Q b) : Judges M V (m >>= f) Q := by
  intro s hs
  obtain ⟨a, t, hrun, hend, hP⟩ := hm s hs
  have ht : V.Inv t := by
    rcases hend with rfl | hfails
    · exact hs
    · exact V.inv hfails hs
  obtain ⟨b, u, hrest, hend', hQ⟩ := hf a t ht
  refine ⟨b, u, ?_, ?_, ?_⟩
  · rw [run_bind, hrun]
    exact hrest
  · rcases hend with rfl | hfails
    · exact hend'
    · rcases hend' with rfl | hfails'
      · exact Or.inr hfails
      · exact Or.inr (V.trans hfails hfails')
  · intro hu
    apply hQ hu
    apply hP
    -- A failure of the first part would still be recorded.
    intro hfailed
    rcases hend' with rfl | hfails'
    · exact hu hfailed
    · exact hu (V.failed hfails')

theorem ite {c : Prop} [Decidable c] {m n : Program ι ω α} (hm : c → Judges M V m P)
    (hn : ¬c → Judges M V n P) : Judges M V (if c then m else n) P := by
  split
  · exact hm ‹_›
  · exact hn ‹_›

/-- A loop with an invariant and a variant, which ends when its test holds or a failure has been
recorded. -/
theorem loop (I : τ → Prop) (μ : τ → Nat) (test : τ → Bool) {finished : τ → Program ι ω Bool}
    {body : τ → Program ι ω τ}
    (hfinished : ∀ t s, V.Inv s → ∃ b, (finished t).run M s = some (b, s) ∧
      (b = true ↔ test t = true ∨ V.Failed s))
    (hbody : ∀ t, I t → test t = false → Judges M V (body t) fun u ↦ I u ∧ μ u < μ t)
    {n : Nat} {t : τ} (ht : I t) (hn : μ t + 1 < n) :
    Judges M V (Program.loop finished body n t) fun u ↦ I u ∧ test u = true := by
  intro s hs
  induction n generalizing t s with
  | zero => omega
  | succ n ih =>
    obtain ⟨b, hrun, hb⟩ := hfinished t s hs
    rw [Program.loop, run_bind, hrun, Option.bind_some]
    cases b with
    | true =>
      refine ⟨t, s, rfl, Or.inl rfl, fun hs ↦ ⟨ht, ?_⟩⟩
      exact (hb.1 rfl).resolve_right hs
    | false =>
      have htest : test t = false := by
        rw [← Bool.not_eq_true]
        exact fun h ↦ Bool.false_ne_true (hb.2 (Or.inl h))
      obtain ⟨u, s', hstep, hend, hu⟩ := hbody t ht htest s hs
      rw [if_neg Bool.false_ne_true, run_bind, hstep, Option.bind_some]
      by_cases hfailed : V.Failed s'
      · -- The next test ends the loop, whatever the body has returned.
        have hs' : V.Inv s' := by
          rcases hend with rfl | hfails
          · exact hs
          · exact V.inv hfails hs
        obtain ⟨b', hrun', hb'⟩ := hfinished u s' hs'
        obtain ⟨n, rfl⟩ : ∃ k, n = k + 1 := ⟨n - 1, by omega⟩
        rw [Program.loop, run_bind, hrun', Option.bind_some, hb'.2 (Or.inr hfailed)]
        exact ⟨u, s', rfl, hend, fun h ↦ absurd hfailed h⟩
      · obtain ⟨hI, hless⟩ := hu hfailed
        rcases hend with rfl | hfails
        · exact ih hI (by omega) s' hs
        · exact absurd (V.failed hfails) hfailed

end Judges

/-! ## Runs that only read -/

section

variable {M : Machine ι ω σ} {s : σ} {m : Program ι ω α} {a : α} {finished : τ → Program ι ω Bool}
  {body : τ → Program ι ω τ} {t u : τ} {n : Nat}

/-- A part that leaves the state alone hands its value on. -/
theorem run_bind_of_read (hm : m.run M s = some (a, s)) (f : α → Program ι ω β) :
    (m >>= f).run M s = (f a).run M s := by
  rw [run_bind, hm, Option.bind_some]

theorem run_loop_of_finished (h : (finished t).run M s = some (true, s)) :
    (loop finished body (n + 1) t).run M s = some (t, s) := by
  rw [loop, run_bind_of_read h]
  rfl

theorem run_loop_of_read (h : (finished t).run M s = some (false, s))
    (hbody : (body t).run M s = some (u, s)) :
    (loop finished body (n + 1) t).run M s = (loop finished body n u).run M s := by
  rw [loop, run_bind_of_read h, if_neg Bool.false_ne_true, run_bind_of_read hbody]

end

/-! ## Rounds of a loop -/

/-- What a loop that begins with `c` in the state `s` comes to before its tests. -/
inductive Rounds (M : Machine ι ω σ) (finished : τ → Program ι ω Bool) (body : τ → Program ι ω τ)
    (c : τ) (s : σ) : τ → σ → Prop
  | start : Rounds M finished body c s c s
  | next {d e : τ} {t u v : σ} : Rounds M finished body c s d t →
      (finished d).run M t = some (false, u) → (body d).run M u = some (e, v) →
        Rounds M finished body c s e v

/-- A loop ends with what it has come to. -/
theorem Rounds.of_run_loop {M : Machine ι ω σ} {finished : τ → Program ι ω Bool}
    {body : τ → Program ι ω τ} {c d e : τ} {s t v : σ} {n : Nat}
    (hd : Rounds M finished body c s d t)
    (hrun : (loop finished body n d).run M t = some (e, v)) :
    ∃ u, Rounds M finished body c s e u ∧ (finished e).run M u = some (true, v) := by
  induction n generalizing d t with
  | zero => cases hrun
  | succ n ih =>
    rw [loop, run_bind_eq_some] at hrun
    obtain ⟨⟨done, u⟩, htest, hrest⟩ := hrun
    cases done with
    | true =>
      cases hrest
      exact ⟨t, hd, htest⟩
    | false =>
      rw [if_neg Bool.false_ne_true, run_bind_eq_some] at hrest
      obtain ⟨⟨f, w⟩, hbody, hrest⟩ := hrest
      exact ih (.next hd htest hbody) hrest

end Xpact.Library.Program
