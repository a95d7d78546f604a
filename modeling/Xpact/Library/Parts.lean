import Xpact.Library.Law

/-!
# Parts of a program

Some commands belong to certain parts of a program only, and a part begins where its guard allows it.
The law of the parts is established piece by piece like every law: a program without such commands
obeys it, and so does a part where it may begin.
-/

namespace Xpact.Library.Program

variable {ι κ ω ν σ α β γ : Type}

section Points

variable {M : Machine ι ω σ}

theorem Reaches.trans {m : Program ι ω α} {n : Program ι ω α} {l : Program ι ω α} {s t u : σ}
    (hmn : Reaches M m s n t) (hnl : Reaches M n t l u) : Reaches M m s l u := by
  induction hmn with
  | refl m s => exact hnl
  | look _ ih => exact look (ih hnl)
  | exec _ ih => exact exec (ih hnl)

/-- A command of a sequence is one of its first part, or of the second when the first has ended. -/
theorem Reaches.exec_bind_cases {m : Program ι ω α} {f : α → Program ι ω β} {c : ι}
    {n : Program ι ω β} {s t : σ} (h : Reaches M (m >>= f) s (.exec c n) t) :
    (∃ k, n = k >>= f ∧ Reaches M m s (.exec c k) t) ∨
      ∃ a u, m.run M s = some (a, u) ∧ Reaches M (f a) u (.exec c n) t := by
  induction m generalizing s with
  | done a => exact .inr ⟨a, s, rfl, h⟩
  | look k ih =>
    cases h with
    | look h =>
      rcases ih _ h with ⟨k', hn, hk'⟩ | ⟨a, u, hrun, hf⟩
      · exact .inl ⟨k', hn, .look hk'⟩
      · exact .inr ⟨a, u, hrun, hf⟩
  | exec d k ih =>
    cases h with
    | refl => exact .inl ⟨k, rfl, .refl _ _⟩
    | exec h =>
      rcases ih h with ⟨k', hn, hk'⟩ | ⟨a, u, hrun, hf⟩
      · exact .inl ⟨k', hn, .exec hk'⟩
      · exact .inr ⟨a, u, hrun, hf⟩
  | stuck => cases h

/-- What is left of a run avoids what the run avoids. -/
theorem Avoids.of_reaches {S : Site ι ω σ} {m n : Program ι ω α} {s t : σ} (h : Avoids M S m s)
    (hreach : Reaches M m s n t) : Avoids M S n t :=
  fun l u hl ↦ h l u (hreach.trans hl)

/-- What the commands of a run keep holds at every point. -/
theorem Reaches.invariant {J : σ → Prop} {m n : Program ι ω α} {s t : σ}
    (hstep : ∀ c k u, Reaches M m s (.exec c k) u → J u → J (M.step c u)) (hs : J s)
    (hreach : Reaches M m s n t) : J t := by
  induction hreach with
  | refl m s => exact hs
  | look h ih => exact ih (fun c k u hu ↦ hstep c k u (.look hu)) hs
  | exec h ih =>
    exact ih (fun c k u hu ↦ hstep c k u (.exec hu)) (hstep _ _ _ (.refl _ _) hs)

theorem Reaches.of_run_done {m : Program ι ω α} {s t : σ} {a : α} (h : m.run M s = some (a, t)) :
    Reaches M m s (.done a) t := by
  induction m generalizing s with
  | done b =>
    obtain ⟨rfl, rfl⟩ := Prod.mk.inj (Option.some.inj h)
    exact .refl _ _
  | look k ih => exact .look (ih _ h)
  | exec c k ih => exact .exec (ih h)
  | stuck => cases h

theorem Reaches.mem_trace {m : Program ι ω α} {c : ι} {n : Program ι ω α} {s t : σ}
    (h : Reaches M m s (.exec c n) t) : c ∈ m.trace M s := by
  obtain ⟨i, -, hrest⟩ := h.exists_take
  apply List.mem_of_mem_drop (i := i)
  rw [hrest]
  exact List.mem_cons_self

end Points

/-! ## The law of the parts -/

/-- A kind of part: the programs, and the states in which they may begin. -/
abbrev Part (ι ω σ β : Type) : Type := Program ι ω β → σ → Prop

/-- At `t` with `n` to run the run of `m` from `s` is inside a part that may begin where it began. -/
def IsInside (M : Machine ι ω σ) (D : Part ι ω σ β) (m : Program ι ω α) (s : σ)
    (n : Program ι ω α) (t : σ) : Prop :=
  ∃ d k r l, D d r ∧ Reaches M m s (d >>= k) r ∧ Reaches M d r l t ∧ n = l >>= k

section Inside

variable {M : Machine ι ω σ} {D : Part ι ω σ β} {m n : Program ι ω α} {s t u : σ}

theorem IsInside.of_reaches {m' : Program ι ω α} (h : IsInside M D m' t n u)
    (hreach : Reaches M m s m' t) : IsInside M D m s n u := by
  obtain ⟨d, k, r, l, hd, hpart, hl, hn⟩ := h
  exact ⟨d, k, r, l, hd, hreach.trans hpart, hl, hn⟩

theorem IsInside.bind (h : IsInside M D m s n t) (f : α → Program ι ω γ) :
    IsInside M D (m >>= f) s (n >>= f) t := by
  obtain ⟨d, k, r, l, hd, hpart, hl, rfl⟩ := h
  refine ⟨d, fun b ↦ k b >>= f, r, l, hd, ?_, hl, ?_⟩
  · rw [← bind_assoc']
    exact hpart.bind f
  · exact bind_assoc' l k f

theorem IsInside.of_run {f : α → Program ι ω γ} {a : α} {n : Program ι ω γ}
    (h : IsInside M D (f a) t n u) (hrun : m.run M s = some (a, t)) :
    IsInside M D (m >>= f) s n u := by
  obtain ⟨d, k, r, l, hd, hpart, hl, hn⟩ := h
  exact ⟨d, k, r, l, hd, .of_run hrun hpart, hl, hn⟩

variable (M D) in
/-- The commands that pass the test are issued inside the parts. -/
def Law.inside (T : ι → Bool) : Law M where
  Holds m s := ∀ c n t, Reaches M m s (.exec c n) t → T c = true → IsInside M D m s (.exec c n) t
  done a s c n t h := by cases h
  stuck s c n t h := by cases h
  look h c n t hreach hc := by
    cases hreach with
    | look hreach => exact (h c n t hreach hc).of_reaches (.look (.refl _ _))
  bind {α β m f s} hm hf c n t hreach hc := by
    rcases hreach.exec_bind_cases with ⟨k, rfl, hk⟩ | ⟨a, u, hrun, ha⟩
    · exact (hm c k t hk hc).bind f
    · exact (hf a u hrun c n t ha hc).of_run hrun

variable {T : ι → Bool}

/-- A program without such commands. -/
theorem Law.inside_of_issuesOnly {test : ι → Bool} (htest : ∀ c, test c = true → T c = false)
    (hm : m.IssuesOnly test) (s : σ) : (Law.inside M D T).Holds m s := by
  apply Law.of_issuesOnly _ _ hm
  intro c s hc d n t hreach hd
  cases hreach with
  | refl => exact absurd hd (by rw [htest c hc]; exact Bool.false_ne_true)
  | exec hreach => cases hreach

/-- A part that may begin here. -/
theorem Law.inside_of_part {d : Program ι ω β} (hd : D d s) : (Law.inside M D T).Holds d s := by
  intro c n t hreach _
  refine ⟨d, .done, s, .exec c n, hd, ?_, hreach, (bind_done _).symm⟩
  rw [bind_done]
  exact .refl d s

/-- A program that issues no such command here. -/
theorem Law.inside_of_always (h : m.Always M (fun c _ ↦ T c = false) s) :
    (Law.inside M D T).Holds m s := by
  induction m generalizing s with
  | done a => exact (Law.inside M D T).done a s
  | look k ih => exact (Law.inside M D T).look (ih _ h)
  | exec c k ih =>
    show (Law.inside M D T).Holds (Program.command c >>= fun _ ↦ k) s
    apply (Law.inside M D T).bind
    · intro d n t hreach hd
      cases hreach with
      | refl => exact absurd hd (by rw [h.1]; exact Bool.false_ne_true)
      | exec hreach => cases hreach
    · intro _ t hrun
      obtain ⟨-, rfl⟩ := Prod.mk.inj (Option.some.inj hrun)
      exact ih h.2
  | stuck => exact (Law.inside M D T).stuck s

variable {S : Site ι ω σ} {L : Law M}

variable (S L) in
/-- The law, for the runs that avoid a site. -/
def Law.avoiding : Law M where
  Holds m s := Avoids M S m s → L.Holds m s
  done a s _ := L.done a s
  stuck s _ := L.stuck s
  look h havoids := L.look (h havoids.look)
  bind hm hf havoids :=
    L.bind (hm havoids.bind_left) fun a t hrun ↦ hf a t hrun (havoids.bind_right hrun)

end Inside

end Xpact.Library.Program
