import Xpact.Library.Parts

/-!
# Monitors

A monitor watches the commands of a machine, and raises a flag at some of them.  The watched machine
runs the same programs on states that carry the flag.  A program is silenced when nothing of what is
observed changes once the flag is raised; this is a law, so it is established piece by piece.
-/

namespace Xpact.Library.Program

variable {ι ω σ τ α β : Type}

/-- What raises the flag, and what then holds of the machine for good. -/
structure Monitor (M : Machine ι ω σ) where
  raises : ι → σ → Bool
  Halted : σ → Prop
  halted_of_raises : ∀ {c s}, raises c s = true → Halted (M.step c s)
  halted_step : ∀ (c) {s}, Halted s → Halted (M.step c s)

namespace Monitor

variable {M : Machine ι ω σ} (W : Monitor M)

/-- A state with the flag. -/
structure Watched where
  state : σ
  raised : Bool
  halted : raised = true → W.Halted state

/-- A state in which nothing has raised the flag. -/
def fresh (s : σ) : W.Watched := ⟨s, false, fun h ↦ absurd h Bool.false_ne_true⟩

theorem halted_next (w : W.Watched) (c : ι) (h : (w.raised || W.raises c w.state) = true) :
    W.Halted (M.step c w.state) := by
  rw [Bool.or_eq_true] at h
  cases h with
  | inl hraised => exact W.halted_step c (w.halted hraised)
  | inr hraises => exact W.halted_of_raises hraises

/-- The machine with the flag. -/
def machine : Machine ι ω W.Watched where
  see w := M.see w.state
  step c w := ⟨M.step c w.state, w.raised || W.raises c w.state, W.halted_next w c⟩

variable {W} {m : Program ι ω α} {w : W.Watched} {s : σ}

theorem trace_machine (m : Program ι ω α) (w : W.Watched) :
    m.trace W.machine w = m.trace M w.state := by
  induction m generalizing w with
  | done a => rfl
  | look k ih => exact ih _ w
  | exec c k ih => exact congrArg (c :: ·) (ih _)
  | stuck => rfl

theorem execute_state (cs : List ι) (w : W.Watched) :
    (W.machine.execute cs w).state = M.execute cs w.state := by
  induction cs generalizing w with
  | nil => rfl
  | cons c cs ih => exact ih _

theorem raised_execute (cs : List ι) (h : w.raised = true) :
    (W.machine.execute cs w).raised = true := by
  apply W.machine.execute_invariant (I := fun v ↦ v.raised = true) _ cs h
  intro c v hv
  show (v.raised || W.raises c v.state) = true
  rw [hv, Bool.true_or]

/-- The flag is raised by one of the commands. -/
theorem exists_raises (cs : List ι) (hfresh : w.raised = false)
    (h : (W.machine.execute cs w).raised = true) :
    ∃ n c, cs[n]? = some c ∧ W.raises c (M.execute (cs.take n) w.state) = true := by
  induction cs generalizing w with
  | nil => exact absurd (hfresh.symm.trans h) Bool.false_ne_true
  | cons c cs ih =>
    by_cases hraises : W.raises c w.state = true
    · exact ⟨0, c, rfl, hraises⟩
    · have hnext : (W.machine.step c w).raised = false := by
        show (w.raised || W.raises c w.state) = false
        rw [hfresh, Bool.false_or]
        exact Bool.eq_false_iff.2 hraises
      obtain ⟨n, d, hd, hn⟩ := ih hnext h
      exact ⟨n + 1, d, hd, hn⟩

/-! ## Silence after the flag -/

variable (W) in
/-- Once a command of the run of `m` has raised the flag, what is observed does not change. -/
def Silences (observe : σ → τ) (m : Program ι ω α) (s : σ) : Prop :=
  ∀ n c, (m.trace M s)[n]? = some c → W.raises c (M.execute ((m.trace M s).take n) s) = true →
    ∀ k, n < k → observe (M.execute ((m.trace M s).take k) s) =
      observe (M.execute ((m.trace M s).take (n + 1)) s)

variable (W) in
/-- The command changes nothing that is observed, once the flag is raised. -/
def Keeps (observe : σ → τ) (c : ι) (w : W.Watched) : Prop :=
  w.raised = true → observe (M.step c w.state) = observe w.state

variable {observe : σ → τ}

theorem halted_execute (cs : List ι) (h : W.Halted s) : W.Halted (M.execute cs s) :=
  M.execute_invariant (fun c _ ↦ W.halted_step c) cs h

/-- A finished run in which the flag was raised has come to a halt. -/
theorem halted_of_run {t : σ} {a : α} {n : Nat} {c : ι} (hrun : m.run M s = some (a, t))
    (hc : (m.trace M s)[n]? = some c)
    (hraises : W.raises c (M.execute ((m.trace M s).take n) s) = true) : W.Halted t := by
  rw [run_eq_execute hrun, ← List.take_append_drop (n + 1) (m.trace M s), Machine.execute_append,
    List.take_add_one, hc, Option.toList_some, Machine.execute_append]
  exact halted_execute _ (W.halted_of_raises hraises)

variable (W observe) in
/-- Unless the run comes to a site, its commands keep what is observed. -/
def law (S : Site ι ω W.Watched) : Law W.machine where
  Holds m w := Avoids W.machine S m w → Assures W.machine (W.Keeps observe) m w fun _ _ ↦ True
  done _ _ _ := Assures.done trivial
  stuck _ _ := Assures.stuck
  look h havoids := Assures.look (h havoids.look)
  bind hm hf havoids := by
    apply Assures.bind
    refine ⟨(hm havoids.bind_left).always, fun hrun ↦ ?_⟩
    exact hf _ _ hrun (havoids.bind_right hrun)

/-! ## Pairs

Two parts of a program, one right behind the other: the flag may be raised in the first, and the
second, which does not look at it, may change what is observed. -/

variable (W) in
/-- The flag is raised in the run. -/
def RaisesIn (m : Program ι ω α) (s : σ) : Prop :=
  ∃ n c, (m.trace M s)[n]? = some c ∧ W.raises c (M.execute ((m.trace M s).take n) s) = true

variable (M observe) in
/-- What is observed changes in the run. -/
def Changes (m : Program ι ω α) (s : σ) : Prop :=
  ∃ n, observe (M.execute ((m.trace M s).take n) s) ≠ observe s

variable (W observe) in
/-- The flag is raised in the first part, and what is observed changes in the second. -/
def IsLate (first : Program ι ω β) (second : β → Program ι ω γ) (s : σ) : Prop :=
  W.RaisesIn first s ∧ ∃ b t, first.run M s = some (b, t) ∧ Changes M observe (second b) t

variable (W) in
/-- The run comes to a pair. -/
def pairSite (IsPair : {β γ : Type} → σ → Program ι ω β → (β → Program ι ω γ) → Prop) :
    Site ι ω W.Watched where
  At {α} m w := ∃ (β γ : Type) (first : Program ι ω β) (second : β → Program ι ω γ)
    (k : β → γ → Program ι ω α), IsPair w.state first second ∧
      m = (first >>= fun b ↦ second b >>= k b)
  bind h f := by
    obtain ⟨β, γ, first, second, k, hpair, rfl⟩ := h
    refine ⟨β, γ, first, second, fun b c ↦ k b c >>= f, hpair, ?_⟩
    simp only [bind_assoc]

section Pairs

variable {β γ : Type} {IsPair : {β γ : Type} → σ → Program ι ω β → (β → Program ι ω γ) → Prop}
  {first : Program ι ω β} {second : β → Program ι ω γ} {k : β → γ → Program ι ω α}

theorem run_machine {v : W.Watched} {a : α} (hrun : m.run W.machine w = some (a, v)) :
    m.run M w.state = some (a, v.state) := by
  induction m generalizing w with
  | done b =>
    obtain ⟨rfl, rfl⟩ := Prod.mk.inj (Option.some.inj hrun)
    rfl
  | look k ih => exact ih _ hrun
  | exec c k ih => exact ih hrun
  | stuck => cases hrun

theorem RaisesIn.raised {v : W.Watched} {a : α} (h : W.RaisesIn m w.state)
    (hrun : m.run W.machine w = some (a, v)) : v.raised = true := by
  obtain ⟨n, c, hc, hraises⟩ := h
  rw [run_eq_execute hrun, trace_machine, ← List.take_append_drop (n + 1) (m.trace M w.state),
    Machine.execute_append, List.take_add_one, hc, Option.toList_some, Machine.execute_append]
  apply raised_execute
  show (_ || W.raises c _) = true
  rw [execute_state, hraises, Bool.or_true]

theorem raisesIn_of_run {v : W.Watched} {a : α} (hrun : m.run W.machine w = some (a, v))
    (hw : w.raised = false) (hv : v.raised = true) : W.RaisesIn m w.state := by
  rw [run_eq_execute hrun, trace_machine] at hv
  exact exists_raises _ hw hv

/-! ### Where the flag is raised -/

theorem not_raisesIn_done (a : α) : ¬W.RaisesIn (.done a : Program ι ω α) s := by
  rintro ⟨n, c, hc, -⟩
  cases hc

/-- The flag is raised by a command, or behind it. -/
theorem raisesIn_exec {c : ι} {n : Program ι ω α} :
    W.RaisesIn (.exec c n) s ↔ W.raises c s = true ∨ W.RaisesIn n (M.step c s) := by
  constructor
  · rintro ⟨i, d, hd, hraises⟩
    cases i with
    | zero =>
      obtain rfl : c = d := Option.some.inj hd
      exact .inl hraises
    | succ i => exact .inr ⟨i, d, hd, hraises⟩
  · rintro (hraises | ⟨i, d, hd, hraises⟩)
    · exact ⟨0, c, rfl, hraises⟩
    · exact ⟨i + 1, d, hd, hraises⟩

/-- A machine that has come to a halt, and then raises no flag. -/
theorem not_raisesIn_of_halted (hquiet : ∀ {c s}, W.Halted s → W.raises c s = false)
    (h : W.Halted s) : ¬W.RaisesIn m s := by
  rintro ⟨n, c, -, hraises⟩
  exact Bool.false_ne_true ((hquiet (halted_execute _ h)).symm.trans hraises)

/-! ### Where something changes -/

theorem changes_exec {c : ι} {n : Program ι ω α} :
    Changes M observe (.exec c n) s ↔
      observe (M.step c s) ≠ observe s ∨ Changes M observe n (M.step c s) := by
  constructor
  · rintro ⟨i, hi⟩
    by_cases hstep : observe (M.step c s) = observe s
    · cases i with
      | zero => exact absurd rfl hi
      | succ i => exact .inr ⟨i, fun heq ↦ hi (heq.trans hstep)⟩
    · exact .inl hstep
  · rintro (hstep | ⟨i, hi⟩)
    · exact ⟨1, hstep⟩
    · by_cases hstep : observe (M.step c s) = observe s
      · exact ⟨i + 1, fun heq ↦ hi (heq.trans hstep.symm)⟩
      · exact ⟨1, hstep⟩

theorem not_changes_done (a : α) : ¬Changes M observe (.done a : Program ι ω α) s := by
  rintro ⟨i, hi⟩
  cases i <;> exact absurd rfl hi

theorem not_changes_stuck : ¬Changes M observe (.stuck : Program ι ω α) s := by
  rintro ⟨i, hi⟩
  cases i <;> exact absurd rfl hi

/-- What is observed changes in one of two parts. -/
theorem changes_bind {f : α → Program ι ω β} :
    Changes M observe (m >>= f) s ↔
      Changes M observe m s ∨ ∃ a t, m.run M s = some (a, t) ∧ Changes M observe (f a) t := by
  induction m generalizing s with
  | done a =>
    constructor
    · intro h
      exact .inr ⟨a, s, rfl, h⟩
    · rintro (h | ⟨b, t, hrun, h⟩)
      · exact absurd h (not_changes_done a)
      · obtain ⟨rfl, rfl⟩ := Prod.mk.inj (Option.some.inj hrun)
        exact h
  | look k ih => exact ih (M.see s)
  | exec c k ih =>
    show Changes M observe (.exec c (k >>= f)) s ↔ _
    rw [changes_exec, changes_exec, ih, or_assoc]
    rfl
  | stuck =>
    constructor
    · intro h
      exact absurd h not_changes_stuck
    · rintro (h | ⟨b, t, hrun, -⟩)
      · exact absurd h not_changes_stuck
      · cases hrun

/-- Commands that change nothing of what is observed. -/
theorem not_changes_of_issuesOnly {test : ι → Bool} (hm : m.IssuesOnly test)
    (htest : ∀ c s, test c = true → observe (M.step c s) = observe s) : ¬Changes M observe m s := by
  induction m generalizing s with
  | done a => exact not_changes_done a
  | look k ih => exact ih _ (hm _)
  | exec c k ih =>
    rw [changes_exec, not_or, not_not]
    exact ⟨htest c s hm.1, ih hm.2⟩
  | stuck => exact not_changes_stuck

/-- Where every command keeps what is observed, and the flag is raised, nothing changes. -/
theorem not_changes_of_always (h : m.Always W.machine (W.Keeps observe) w)
    (hraised : w.raised = true) : ¬Changes M observe m w.state := by
  induction m generalizing w with
  | done a => exact not_changes_done a
  | look k ih => exact ih _ h hraised
  | exec c k ih =>
    rw [changes_exec, not_or, not_not]
    refine ⟨h.1 hraised, ih h.2 ?_⟩
    show (w.raised || W.raises c w.state) = true
    rw [hraised, Bool.true_or]
  | stuck => exact not_changes_stuck

/-- What obeys the law changes nothing once the machine has come to a halt. -/
theorem not_changes_of_halted (hquiet : ∀ {c s}, W.Halted s → W.raises c s = false)
    (hpair : ∀ {β γ : Type} {s} {first : Program ι ω β} {second : β → Program ι ω γ},
      IsPair s first second → W.RaisesIn first s)
    (h : W.Halted s) (hm : (W.law observe (W.pairSite IsPair)).Holds m ⟨s, true, fun _ ↦ h⟩) :
    ¬Changes M observe m s := by
  have havoids : Avoids W.machine (W.pairSite IsPair) m ⟨s, true, fun _ ↦ h⟩ := by
    rintro n v hreach ⟨β, γ, first, second, k, hat, rfl⟩
    obtain ⟨i, rfl, -⟩ := hreach.exists_take
    refine not_raisesIn_of_halted hquiet ?_ (hpair hat)
    rw [execute_state]
    exact halted_execute _ h
  exact not_changes_of_always (hm havoids).always rfl

/-- Where nothing changes, every command keeps what is observed. -/
theorem always_of_not_changes (h : ¬Changes M observe m w.state) :
    m.Always W.machine (W.Keeps observe) w := by
  induction m generalizing w with
  | done a => trivial
  | look k ih => exact ih _ h
  | exec c k ih =>
    rw [changes_exec, not_or, not_not] at h
    exact ⟨fun _ ↦ h.1, ih h.2⟩
  | stuck => trivial

/-- Two parts that are a pair when the second comes late, in front of parts that obey the law. -/
theorem law_pair (hpair : W.IsLate observe first second w.state → IsPair w.state first second)
    (hw : w.raised = false) (hfirst : (W.law observe (W.pairSite IsPair)).Holds first w)
    (hsecond : ∀ b (v : W.Watched), v.raised = false →
      (W.law observe (W.pairSite IsPair)).Holds (second b) v)
    (hk : ∀ b c v, (W.law observe (W.pairSite IsPair)).Holds (k b c) v) :
    (W.law observe (W.pairSite IsPair)).Holds (first >>= fun b ↦ second b >>= k b) w := by
  intro havoids
  apply Assures.bind
  refine ⟨(hfirst havoids.bind_left).always, fun {b v} hrun ↦ ?_⟩
  have hrest := havoids.bind_right hrun
  apply Assures.bind
  refine ⟨?_, fun {c u} hrun' ↦ hk b c u (hrest.bind_right hrun')⟩
  by_cases hv : v.raised = true
  · -- The flag was raised in the first part, so nothing changes in the second.
    apply always_of_not_changes
    intro hchanges
    have hlate := hpair ⟨raisesIn_of_run hrun hw hv, b, v.state, run_machine hrun, hchanges⟩
    exact havoids _ _ (.refl _ _) ⟨β, γ, first, second, k, hlate, rfl⟩
  · exact (hsecond b v (Bool.eq_false_iff.2 hv) hrest.bind_left).always

/-- A command comes late when it raises the flag and the rest changes what is observed. -/
theorem isLate_exec {c : ι} {a : β} :
    W.IsLate observe (.exec c (.done a)) second s ↔
      W.raises c s = true ∧ Changes M observe (second a) (M.step c s) := by
  refine and_congr (raisesIn_exec.trans (or_iff_left (not_raisesIn_done a))) ?_
  constructor
  · rintro ⟨b, t, hrun, hchanges⟩
    obtain ⟨rfl, rfl⟩ := Prod.mk.inj (Option.some.inj hrun)
    exact hchanges
  · intro hchanges
    exact ⟨a, M.step c s, rfl, hchanges⟩

end Pairs

end Monitor

end Xpact.Library.Program
