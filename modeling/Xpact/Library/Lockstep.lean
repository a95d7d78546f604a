import Xpact.Library.Monitor

/-!
# Runs in lockstep

A program is blind to what a mask hides of the sight when it goes on in the same way whatever that is.
Two machines that differ in what is hidden, and in what a monitor raises its flag for, run a blind
program in lockstep until the flag is raised.  When the program is silenced by the flag, what the first
run has shown by then is a beginning of what the second one shows (`Lockstep.shown_prefix`).
-/

namespace Xpact.Library.Program

variable {ι κ ω ν σ τ α β γ ε : Type}

/-! ## Blind programs -/

/-- The program does not depend on what the mask hides. -/
def IsBlind (mask : ω → ω) : Program ι ω α → Prop
  | .done _ => True
  | .look k => (∀ w, k w = k (mask w)) ∧ ∀ w, IsBlind mask (k w)
  | .exec _ k => IsBlind mask k
  | .stuck => True

class Blind (mask : ω → ω) (m : Program ι ω α) : Prop where
  isBlind : IsBlind mask m

section Blind

variable {mask : ω → ω}

instance blind_done (a : α) : Blind mask (.done a : Program ι ω α) := ⟨trivial⟩

instance blind_pure (a : α) : Blind mask (pure a : Program ι ω α) := ⟨trivial⟩

instance blind_stuck : Blind mask (.stuck : Program ι ω α) := ⟨trivial⟩

instance blind_command (c : ι) : Blind mask (command c : Program ι ω Unit) := ⟨trivial⟩

theorem IsBlind.bind {m : Program ι ω α} {f : α → Program ι ω β} (hm : IsBlind mask m)
    (hf : ∀ a, IsBlind mask (f a)) : IsBlind mask (m >>= f) := by
  induction m with
  | done a => exact hf a
  | look k ih =>
    refine ⟨fun w ↦ ?_, fun w ↦ ih w (hm.2 w)⟩
    show k w >>= f = k (mask w) >>= f
    rw [hm.1 w]
  | exec c k ih => exact ih hm
  | stuck => trivial

theorem Blind.bind {m : Program ι ω α} {f : α → Program ι ω β} (hm : Blind mask m)
    (hf : ∀ a, Blind mask (f a)) : Blind mask (m >>= f) :=
  ⟨hm.isBlind.bind fun a ↦ (hf a).isBlind⟩

instance blind_bind (m : Program ι ω α) (f : α → Program ι ω β) [hm : Blind mask m]
    [hf : ∀ a, Blind mask (f a)] : Blind mask (m >>= f) := hm.bind hf

/-- A look at the sight, of which only what is not hidden is used. -/
theorem Blind.sight_bind {f : ω → Program ι ω α} (hsame : ∀ w, f w = f (mask w))
    (hf : ∀ w, Blind mask (f w)) : Blind mask (sight >>= f) :=
  ⟨hsame, fun w ↦ (hf w).isBlind⟩

theorem Blind.ite {c : Prop} [Decidable c] {m n : Program ι ω α} (hm : Blind mask m)
    (hn : Blind mask n) : Blind mask (if c then m else n) := by
  split
  · exact hm
  · exact hn

instance blind_ite (c : Prop) [Decidable c] (m n : Program ι ω α) [hm : Blind mask m]
    [hn : Blind mask n] : Blind mask (if c then m else n) := hm.ite hn

instance blind_loop (finished : γ → Program ι ω Bool) (body : γ → Program ι ω γ)
    [hfinished : ∀ c, Blind mask (finished c)] [hbody : ∀ c, Blind mask (body c)] (n : Nat) (c : γ) :
    Blind mask (loop finished body n c) := by
  induction n generalizing c with
  | zero => exact blind_stuck
  | succ n ih =>
    show Blind mask (finished c >>= fun b ↦ if b then pure c else body c >>= loop finished body n)
    infer_instance

instance blind_forM (f : γ → Program ι ω Unit) [hf : ∀ c, Blind mask (f c)] (cs : List γ) :
    Blind mask (cs.forM f) := by
  induction cs with
  | nil => exact blind_done ()
  | cons c cs ih =>
    show Blind mask (f c >>= fun _ ↦ cs.forM f)
    infer_instance

/-- A program of a smaller machine that sees nothing of what is hidden. -/
theorem blind_lift (f : ι → κ) (g : ν → ω) {mask : ν → ν} (hg : ∀ w, g w = g (mask w))
    (m : Program ι ω α) : Blind mask (m.lift f g) := by
  constructor
  induction m with
  | done a => trivial
  | look k ih =>
    refine ⟨fun w ↦ ?_, fun w ↦ ih (g w)⟩
    show (k (g w)).lift f g = (k (g (mask w))).lift f g
    rw [← hg w]
  | exec c k ih => exact ih
  | stuck => trivial

end Blind

/-! ## Changes during a run -/

/-- What holds at the end and not at the beginning is brought about by one of the commands. -/
theorem Machine.exists_change (M : Machine ι ω σ) {P : σ → Prop} (cs : List ι) {s : σ} (hs : ¬P s)
    (hend : P (M.execute cs s)) : ∃ n c, cs[n]? = some c ∧ ¬P (M.execute (cs.take n) s) ∧
      P (M.step c (M.execute (cs.take n) s)) := by
  induction cs generalizing s with
  | nil => exact absurd hend hs
  | cons c cs ih =>
    by_cases hnext : P (M.step c s)
    · exact ⟨0, c, rfl, hs, hnext⟩
    · obtain ⟨n, d, hd, hbefore, hafter⟩ := ih hnext hend
      exact ⟨n + 1, d, hd, hbefore, hafter⟩

/-! ## Silence in parts of a run -/

namespace Monitor

variable {M : Machine ι ω σ} (W : Monitor M)

/-- A command of the run raises the flag. -/
def RaisedIn (m : Program ι ω α) (s : σ) : Prop :=
  ∃ n c, (m.trace M s)[n]? = some c ∧ W.raises c (M.execute ((m.trace M s).take n) s) = true

variable {W} {observe : σ → τ} {c : ι} {k : Program ι ω α} {s : σ}

theorem RaisedIn.exec (h : W.RaisedIn k (M.step c s)) : W.RaisedIn (.exec c k) s := by
  obtain ⟨n, d, hd, hraises⟩ := h
  exact ⟨n + 1, d, hd, hraises⟩

theorem Silences.of_exec (h : W.Silences observe (.exec c k) s) :
    W.Silences observe k (M.step c s) := by
  intro n d hd hraises i hi
  exact h (n + 1) d hd hraises (i + 1) (by omega)

/-- What is observed after the command that raises the flag is observed at the end. -/
theorem Silences.eq_at_end {m : Program ι ω α} (h : W.Silences observe m s) {n : Nat}
    (hc : (m.trace M s)[n]? = some c)
    (hraises : W.raises c (M.execute ((m.trace M s).take n) s) = true) {a : α} {s' : σ}
    (hrun : m.run M s = some (a, s')) :
    observe s' = observe (M.step c (M.execute ((m.trace M s).take n) s)) := by
  have hlength := (List.getElem?_eq_some_iff.1 hc).1
  have hend := h n c hc hraises (m.trace M s).length hlength
  rw [List.take_length, ← run_eq_execute hrun, List.take_add_one, hc, Option.toList_some,
    Machine.execute_append] at hend
  exact hend

/-- After the command that raises the flag nothing more is observed. -/
theorem Silences.eq_of_raises (h : W.Silences observe (.exec c k) s)
    (hraises : W.raises c s = true) {a : α} {s' : σ} (hrun : k.run M (M.step c s) = some (a, s')) :
    observe s' = observe (M.step c s) := h.eq_at_end (n := 0) rfl hraises hrun

theorem Silences.exec (hk : W.raises c s = false → W.Silences observe k (M.step c s))
    (hrest : W.raises c s = true → ∀ i, observe (M.execute ((k.trace M (M.step c s)).take i)
      (M.step c s)) = observe (M.step c s)) : W.Silences observe (.exec c k) s := by
  cases hraises : W.raises c s with
  | true =>
    intro n d hd hraisesd i hi
    obtain ⟨j, rfl⟩ := Nat.exists_eq_add_of_lt hi
    have hat (j : Nat) : observe (M.execute (((Program.exec c k).trace M s).take (j + 1)) s) =
        observe (M.step c s) := hrest hraises j
    exact (hat (n + j)).trans (hat n).symm
  | false =>
    intro n d hd hraisesd i hi
    cases n with
    | zero =>
      obtain rfl := Option.some.inj hd
      exact absurd (hraises.symm.trans hraisesd) Bool.false_ne_true
    | succ n =>
      obtain ⟨j, rfl⟩ := Nat.exists_eq_add_of_lt hi
      exact hk hraises n d hd hraisesd (n + 1 + j) (by omega)

/-! ## Silence is decided along the run -/

section

variable [DecidableEq τ]

/-- Nothing that is observed changes in the run. -/
def keepsSilent (M : Machine ι ω σ) (observe : σ → τ) : Program ι ω α → σ → Bool
  | .done _, _ => true
  | .look k, s => keepsSilent M observe (k (M.see s)) s
  | .exec c k, s =>
    decide (observe (M.step c s) = observe s) && keepsSilent M observe k (M.step c s)
  | .stuck, _ => true

/-- Once the flag is raised, nothing that is observed changes in the run. -/
def isSilenced (W : Monitor M) (observe : σ → τ) : Program ι ω α → σ → Bool
  | .done _, _ => true
  | .look k, s => isSilenced W observe (k (M.see s)) s
  | .exec c k, s =>
    if W.raises c s then keepsSilent M observe k (M.step c s)
    else isSilenced W observe k (M.step c s)
  | .stuck, _ => true

theorem keepsSilent_iff {m : Program ι ω α} : keepsSilent M observe m s = true ↔
    ∀ i, observe (M.execute ((m.trace M s).take i) s) = observe s := by
  induction m generalizing s with
  | done a => simp [keepsSilent, trace]
  | look k ih => exact ih _
  | exec c k ih =>
    rw [keepsSilent, Bool.and_eq_true, decide_eq_true_eq, ih]
    constructor
    · rintro ⟨hstep, hrest⟩ i
      cases i with
      | zero => rfl
      | succ i => exact (hrest i).trans hstep
    · intro h
      have hstep : observe (M.step c s) = observe s := h 1
      exact ⟨hstep, fun i ↦ (h (i + 1)).trans hstep.symm⟩
  | stuck => simp [keepsSilent, trace]

theorem isSilenced_iff {m : Program ι ω α} :
    W.isSilenced observe m s = true ↔ W.Silences observe m s := by
  induction m generalizing s with
  | done a => simp [isSilenced, Silences, trace]
  | look k ih => exact ih _
  | exec c k ih =>
    rw [isSilenced]
    split
    · next hraises =>
      rw [keepsSilent_iff]
      constructor
      · intro hrest
        exact .exec (fun h ↦ absurd (h.symm.trans hraises) Bool.false_ne_true) fun _ ↦ hrest
      · intro h i
        exact h 0 c rfl hraises (i + 1) (by omega)
    · next hraises =>
      rw [ih]
      exact ⟨fun h ↦ .exec (fun _ ↦ h) fun hraised ↦ absurd hraised hraises, Silences.of_exec⟩
  | stuck => simp [isSilenced, Silences, trace]

instance (m : Program ι ω α) (s : σ) : Decidable (W.Silences observe m s) :=
  decidable_of_iff _ isSilenced_iff

end

end Monitor

/-! ## Two machines -/

/-- Related states look the same through the mask, and stay related unless the flag is raised; the
second machine never takes back what it has shown. -/
structure Lockstep {M : Machine ι ω σ} (W : Monitor M) (N : Machine ι ω τ) (mask : ω → ω)
    (R : σ → τ → Prop) (shown : σ → List ε) (shown' : τ → List ε) : Prop where
  see {s t} : R s t → mask (M.see s) = mask (N.see t)
  step {s t c} : R s t → W.raises c s = false → R (M.step c s) (N.step c t)
  shown_eq {s t} : R s t → shown s = shown' t
  shown_step {s t} (c) : R s t → shown (M.step c s) = shown' (N.step c t)
  grows (c t) : shown' t <+: shown' (N.step c t)

namespace Lockstep

variable {M : Machine ι ω σ} {W : Monitor M} {N : Machine ι ω τ} {mask : ω → ω} {R : σ → τ → Prop}
  {shown : σ → List ε} {shown' : τ → List ε} {a b : α} {s s' : σ} {t t' : τ}

theorem grows_run (h : Lockstep W N mask R shown shown') {m : Program ι ω α}
    (hrun : m.run N t = some (b, t')) : shown' t <+: shown' t' :=
  run_invariant (I := fun u ↦ shown' t <+: shown' u)
    (fun c u hu ↦ hu.trans (h.grows c u)) (List.prefix_refl _) hrun

/-- What the silenced run has shown is a beginning of what the other run shows.  They end with the
same value and in related states, unless the flag was raised. -/
theorem shown_prefix (h : Lockstep W N mask R shown shown') {m : Program ι ω α}
    (hm : IsBlind mask m) (hst : R s t) (hsilences : W.Silences shown m s)
    (hs : m.run M s = some (a, s')) (ht : m.run N t = some (b, t')) :
    shown s' <+: shown' t' ∧ (W.RaisedIn m s ∨ a = b ∧ R s' t') := by
  induction m generalizing s t with
  | done c =>
    obtain ⟨rfl, rfl⟩ := Prod.mk.inj (Option.some.inj hs)
    obtain ⟨rfl, rfl⟩ := Prod.mk.inj (Option.some.inj ht)
    exact ⟨h.shown_eq hst ▸ List.prefix_refl _, .inr ⟨rfl, hst⟩⟩
  | look k ih =>
    have hsame : k (M.see s) = k (N.see t) := by rw [hm.1 (M.see s), h.see hst, ← hm.1 (N.see t)]
    rw [run_look, ← hsame] at ht
    exact ih (M.see s) (hm.2 _) hst hsilences hs ht
  | exec c k ih =>
    cases hraises : W.raises c s with
    | true =>
      refine ⟨?_, .inl ⟨0, c, rfl, hraises⟩⟩
      rw [hsilences.eq_of_raises hraises hs, h.shown_step c hst]
      exact h.grows_run ht
    | false =>
      obtain ⟨hshown, hend⟩ := ih hm (h.step hst hraises) hsilences.of_exec hs ht
      exact ⟨hshown, hend.imp_left Monitor.RaisedIn.exec⟩
  | stuck => cases hs

end Lockstep

end Xpact.Library.Program
