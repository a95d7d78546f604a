import Xpact.Library.Program

/-!
# Coupled runs

Two programs on two machines are coupled when finished runs of both end in states that settle the
comparison, or with values and states that are related.  What settles it lasts, a failure of both
say, so the programs need not agree any further from there on (`Coupled.bind`).

The two programs may differ.  One may take steps that the other does not take (`Coupled.left`,
`Coupled.right`), and the loop of one may leave off where the loop of the other goes on
(`Coupled.loop_until`).
-/

namespace Xpact.Library.Program

variable {ι κ ω ν σ τ α β γ δ ε : Type}

/-- What settles a comparison of two machines: no step of either takes it back. -/
structure Settled (M : Machine ι ω σ) (N : Machine κ ν τ) where
  Holds : σ → τ → Prop
  left : ∀ c s t, Holds s t → Holds (M.step c s) t
  right : ∀ c s t, Holds s t → Holds s (N.step c t)

namespace Settled

variable {M : Machine ι ω σ} {N : Machine κ ν τ} (S : Settled M N) {s s' : σ} {t t' : τ}

/-- The comparison seen from the other side. -/
def swap : Settled N M where
  Holds t s := S.Holds s t
  left c t s := S.right c s t
  right c t s := S.left c s t

theorem of_left {m : Program ι ω α} {a : α} (h : S.Holds s t) (hm : m.run M s = some (a, s')) :
    S.Holds s' t :=
  run_invariant (I := fun s ↦ S.Holds s t) (fun c s ↦ S.left c s t) h hm

theorem of_right {n : Program κ ν β} {b : β} (h : S.Holds s t) (hn : n.run N t = some (b, t')) :
    S.Holds s t' :=
  run_invariant (I := S.Holds s) (fun c t ↦ S.right c s t) h hn

end Settled

/-- Finished runs of the two programs settle the comparison, or end in a related way. -/
def Coupled {M : Machine ι ω σ} {N : Machine κ ν τ} (S : Settled M N) (m : Program ι ω α)
    (n : Program κ ν β) (s : σ) (t : τ) (Q : α → σ → β → τ → Prop) : Prop :=
  ∀ ⦃a s' b t'⦄, m.run M s = some (a, s') → n.run N t = some (b, t') →
    S.Holds s' t' ∨ Q a s' b t'

namespace Coupled

variable {M : Machine ι ω σ} {N : Machine κ ν τ} {S : Settled M N} {s : σ} {t : τ}

section

variable {m : Program ι ω α} {n : Program κ ν β} {Q : α → σ → β → τ → Prop}

theorem mono {R : α → σ → β → τ → Prop} (h : Coupled S m n s t Q)
    (hQR : ∀ a s' b t', Q a s' b t' → R a s' b t') : Coupled S m n s t R :=
  fun _ _ _ _ hm hn ↦ (h hm hn).imp_right (hQR _ _ _ _)

/-- Only the runs of the programs matter. -/
theorem of_run_eq {m' : Program ι ω α} {n' : Program κ ν β} {s₀ : σ} {t₀ : τ}
    (hm : m'.run M s₀ = m.run M s) (hn : n'.run N t₀ = n.run N t) (h : Coupled S m n s t Q) :
    Coupled S m' n' s₀ t₀ Q :=
  fun _ _ _ _ hm' hn' ↦ h (hm.symm.trans hm') (hn.symm.trans hn')

theorem symm (h : Coupled S m n s t Q) : Coupled S.swap n m t s fun b t' a s' ↦ Q a s' b t' :=
  fun _ _ _ _ hn hm ↦ h hm hn

theorem settled (h : S.Holds s t) : Coupled S m n s t Q :=
  fun _ _ _ _ hm hn ↦ .inl (S.of_right (S.of_left h hm) hn)

theorem done {a : α} {b : β} (h : Q a s b t) : Coupled S (.done a) (.done b) s t Q := by
  intro a' s' b' t' hm hn
  obtain ⟨rfl, rfl⟩ := Prod.mk.inj (Option.some.inj hm)
  obtain ⟨rfl, rfl⟩ := Prod.mk.inj (Option.some.inj hn)
  exact .inr h

theorem stuck_left : Coupled S (.stuck : Program ι ω α) n s t Q :=
  fun _ _ _ _ hm _ ↦ nomatch hm

theorem stuck_right : Coupled S m (.stuck : Program κ ν β) s t Q :=
  fun _ _ _ _ _ hn ↦ nomatch hn

end

section

variable {Q : γ → σ → δ → τ → Prop}

/-- Programs in sequence: the parts behind are coupled where the parts before are related. -/
theorem bind {m : Program ι ω α} {n : Program κ ν β} {f : α → Program ι ω γ}
    {g : β → Program κ ν δ}
    (h : Coupled S m n s t fun a s' b t' ↦ Coupled S (f a) (g b) s' t' Q) :
    Coupled S (m >>= f) (n >>= g) s t Q := by
  intro c u d v hmf hng
  obtain ⟨⟨a, s'⟩, hm, hf⟩ := (run_bind_eq_some M s).1 hmf
  obtain ⟨⟨b, t'⟩, hn, hg⟩ := (run_bind_eq_some N t).1 hng
  cases h hm hn with
  | inl hsettled => exact .inl (S.of_right (S.of_left hsettled hf) hg)
  | inr hrest => exact hrest hf hg

/-- The first program goes ahead alone. -/
theorem left {m : Program ι ω α} {f : α → Program ι ω γ} {n : Program κ ν δ}
    (h : ∀ a s', m.run M s = some (a, s') → Coupled S (f a) n s' t Q) :
    Coupled S (m >>= f) n s t Q := by
  intro c u d v hmf hn
  obtain ⟨⟨a, s'⟩, hm, hf⟩ := (run_bind_eq_some M s).1 hmf
  exact h a s' hm hf hn

/-- The second program goes ahead alone. -/
theorem right {m : Program ι ω γ} {n : Program κ ν β} {g : β → Program κ ν δ}
    (h : ∀ b t', n.run N t = some (b, t') → Coupled S m (g b) s t' Q) :
    Coupled S m (n >>= g) s t Q :=
  symm (left fun b t' hn ↦ symm (h b t' hn))

/-- Programs in sequence, where the first one may find that it has to begin again. -/
theorem bind_again {m : Program ι ω α} {n : Program κ ν β} {f : α → Program ι ω γ}
    {g : β → Program κ ν δ}
    (h : Coupled S m n s t fun a s' b t' ↦
      Coupled S (f a) (g b) s' t' Q ∨ s' = s ∧ Coupled S (f a) (n >>= g) s t Q) :
    Coupled S (m >>= f) (n >>= g) s t Q := by
  intro c u d v hmf hng
  obtain ⟨⟨a, s'⟩, hm, hf⟩ := (run_bind_eq_some M s).1 hmf
  obtain ⟨⟨b, t'⟩, hn, hg⟩ := (run_bind_eq_some N t).1 hng
  obtain hsettled | hrest | ⟨rfl, hagain⟩ := h hm hn
  · exact .inl (S.of_right (S.of_left hsettled hf) hg)
  · exact hrest hf hg
  · exact hagain hf hng

/-- The first program goes ahead alone, in one way or another. -/
theorem left_ite {c : Prop} [Decidable c] {m m' : Program ι ω α} {f : α → Program ι ω γ}
    {n : Program κ ν δ}
    (h : ∀ a s', (if c then m else m').run M s = some (a, s') → Coupled S (f a) n s' t Q) :
    Coupled S (if c then m >>= f else m' >>= f) n s t Q := by
  by_cases hc : c
  · rw [if_pos hc] at h ⊢
    exact left h
  · rw [if_neg hc] at h ⊢
    exact left h

/-- The second program goes ahead alone, in one way or another. -/
theorem right_ite {c : Prop} [Decidable c] {m : Program ι ω γ} {n n' : Program κ ν β}
    {g : β → Program κ ν δ}
    (h : ∀ b t', (if c then n else n').run N t = some (b, t') → Coupled S m (g b) s t' Q) :
    Coupled S m (if c then n >>= g else n' >>= g) s t Q :=
  symm (left_ite fun b t' hn ↦ symm (h b t' hn))

theorem ite {c d : Prop} [Decidable c] [Decidable d] {m m' : Program ι ω γ} {n n' : Program κ ν δ}
    (hcd : c ↔ d) (hthen : c → Coupled S m n s t Q) (helse : ¬c → Coupled S m' n' s t Q) :
    Coupled S (if c then m else m') (if d then n else n') s t Q := by
  by_cases hc : c
  · rw [if_pos hc, if_pos (hcd.1 hc)]
    exact hthen hc
  · rw [if_neg hc, if_neg (mt hcd.2 hc)]
    exact helse hc

end

/-! ## Loops -/

section

variable {finished : α → Program ι ω Bool} {body : α → Program ι ω α}
  {finished' : β → Program κ ν Bool} {body' : β → Program κ ν β} {I E : α → σ → β → τ → Prop}
  {J : α → β → Prop}

/-- Loops whose rounds keep `I` until the first one leaves off; it may do so with `E`, which the rest
of the loops keeps.  A round begins with what the tests have found out. -/
theorem loop_until
    (hexit : ∀ {a s b t}, E a s b t → ∀ k l,
      Coupled S (Program.loop finished body k a) (Program.loop finished' body' l b) s t E)
    (hfinished : ∀ a s b t, I a s b t → Coupled S (finished a) (finished' b) s t
      fun x s' y t' ↦ x = y ∧ I a s' b t' ∧ (x = false → J a b))
    (hbody : ∀ a s b t, I a s b t → J a b → Coupled S (body a) (body' b) s t
      fun a' s' b' t' ↦ E a' s' b' t' ∨ I a' s' b' t')
    (k l : Nat) {a : α} {b : β} (h : I a s b t) :
    Coupled S (Program.loop finished body k a) (Program.loop finished' body' l b) s t
      fun a' s' b' t' ↦ E a' s' b' t' ∨ I a' s' b' t' := by
  -- Each loop has its own rounds; a run that is short of them does not finish.
  induction k generalizing l a b s t with
  | zero => exact stuck_left
  | succ k ih =>
    cases l with
    | zero => exact stuck_right
    | succ l =>
      refine bind ((hfinished a s b t h).mono ?_)
      rintro x s₁ y t₁ ⟨rfl, h₁, hopen⟩
      cases x with
      | true => exact done (.inr h₁)
      | false =>
        refine bind ((hbody a s₁ b t₁ h₁ (hopen rfl)).mono fun a₂ s₂ b₂ t₂ h₂ ↦ ?_)
        cases h₂ with
        | inl hE => exact (hexit hE k l).mono fun _ _ _ _ ↦ .inl
        | inr hI => exact ih l hI

/-- Loops whose rounds keep `I`. -/
theorem loop
    (hfinished : ∀ a s b t, I a s b t → Coupled S (finished a) (finished' b) s t
      fun x s' y t' ↦ x = y ∧ I a s' b t')
    (hbody : ∀ a s b t, I a s b t → Coupled S (body a) (body' b) s t I)
    (k l : Nat) {a : α} {b : β} (h : I a s b t) :
    Coupled S (Program.loop finished body k a) (Program.loop finished' body' l b) s t I :=
  (loop_until (E := fun _ _ _ _ ↦ False) (J := fun _ _ ↦ True) (fun h ↦ h.elim)
    (fun a s b t h ↦ (hfinished a s b t h).mono fun _ _ _ _ h' ↦ ⟨h'.1, h'.2, fun _ ↦ trivial⟩)
    (fun a s b t h _ ↦ (hbody a s b t h).mono fun _ _ _ _ ↦ .inr) k l h).mono
      fun _ _ _ _ h ↦ h.resolve_left id

end

end Coupled

/-- A loop whose test only reads has ended, or goes on with its body. -/
theorem run_loop_of_test {M : Machine ι ω σ} {finished : τ → Program ι ω Bool}
    {body : τ → Program ι ω τ} {k : Nat} {t : τ} {s : σ} {done : Bool} {r : τ × σ}
    (hrun : (Program.loop finished body k t).run M s = some r)
    (htest : (finished t).run M s = some (done, s)) :
    done = true ∧ r = (t, s) ∨ done = false ∧ ∃ l u, k = l + 1 ∧ (body t).run M s = some u ∧
      (Program.loop finished body l u.1).run M u.2 = some r := by
  cases k with
  | zero => cases hrun
  | succ k =>
    rw [Program.loop, run_bind, htest, Option.bind_some] at hrun
    cases done with
    | true => exact .inl ⟨rfl, (Option.some.inj hrun).symm⟩
    | false =>
      obtain ⟨u, hu⟩ := (run_bind_eq_some M s).1 hrun
      exact .inr ⟨rfl, k, u, rfl, hu⟩

end Xpact.Library.Program
