import Xpact.Library.Program

/-!
# Laws of programs

A law is a property of the runs of a program that can be established piece by piece: it holds of the
programs without commands, and of a sequence when it holds of the parts.  What remains to be shown
are the commands, and the places where a part obeys the law only in the states that lead there.

A site is a kind of place in a program.  A law may assume that a run avoids some sites.
-/

namespace Xpact.Library.Program

variable {ι κ ω ν σ α β γ : Type}

/-! ## Points of a run -/

/-- The run of `m` from `s` comes to the state `t` with `n` still to run. -/
inductive Reaches (M : Machine ι ω σ) : Program ι ω α → σ → Program ι ω α → σ → Prop where
  | refl (m : Program ι ω α) (s : σ) : Reaches M m s m s
  | look {k : ω → Program ι ω α} {n : Program ι ω α} {s t : σ} :
      Reaches M (k (M.see s)) s n t → Reaches M (.look k) s n t
  | exec {c : ι} {k n : Program ι ω α} {s t : σ} :
      Reaches M k (M.step c s) n t → Reaches M (.exec c k) s n t

namespace Reaches

variable {M : Machine ι ω σ} {m n : Program ι ω α} {s t : σ}

theorem bind (h : Reaches M m s n t) (f : α → Program ι ω β) :
    Reaches M (m >>= f) s (n >>= f) t := by
  induction h with
  | refl m s => exact refl _ s
  | look _ ih => exact look ih
  | exec _ ih => exact exec ih

/-- The points of the second part are points of the sequence. -/
theorem of_run {f : α → Program ι ω β} {a : α} {u : σ} {n : Program ι ω β}
    (hrun : m.run M s = some (a, t)) (h : Reaches M (f a) t n u) : Reaches M (m >>= f) s n u := by
  induction m generalizing s with
  | done b =>
    obtain ⟨rfl, rfl⟩ := Prod.mk.inj (Option.some.inj hrun)
    exact h
  | look k ih => exact look (ih _ hrun)
  | exec c k ih => exact exec (ih hrun)
  | stuck => cases hrun

/-- A point is a state after some of the commands, with the others still to come. -/
theorem exists_take (h : Reaches M m s n t) :
    ∃ i, t = M.execute ((m.trace M s).take i) s ∧ (m.trace M s).drop i = n.trace M t := by
  induction h with
  | refl m s => exact ⟨0, rfl, rfl⟩
  | look _ ih => exact ih
  | exec _ ih =>
    obtain ⟨i, hstate, hrest⟩ := ih
    exact ⟨i + 1, hstate, hrest⟩

theorem run_eq (h : Reaches M m s n t) : m.run M s = n.run M t := by
  induction h with
  | refl m s => rfl
  | look _ ih => exact ih
  | exec _ ih => exact ih

end Reaches

/-- A kind of place in a program, which does not depend on what follows it. -/
structure Site (ι ω σ : Type) where
  At {α : Type} : Program ι ω α → σ → Prop
  bind {α β : Type} {m : Program ι ω α} {s : σ} :
    At m s → ∀ f : α → Program ι ω β, At (m >>= f) s

/-- The site that is everywhere. -/
def Site.everywhere : Site ι ω σ where
  At _ _ := True
  bind _ _ := trivial

/-- The run of `m` from `s` never comes to the site. -/
def Avoids (M : Machine ι ω σ) (S : Site ι ω σ) (m : Program ι ω α) (s : σ) : Prop :=
  ∀ n t, Reaches M m s n t → ¬S.At n t

namespace Avoids

variable {M : Machine ι ω σ} {S : Site ι ω σ} {m : Program ι ω α} {f : α → Program ι ω β} {s t : σ}

theorem look {k : ω → Program ι ω α} (h : Avoids M S (.look k) s) : Avoids M S (k (M.see s)) s :=
  fun n t hreach ↦ h n t (.look hreach)

theorem not_everywhere : ¬Avoids M Site.everywhere m s := fun h ↦ h m s (.refl m s) trivial

theorem bind_left (h : Avoids M S (m >>= f) s) : Avoids M S m s :=
  fun n t hreach hat ↦ h (n >>= f) t (hreach.bind f) (S.bind hat f)

theorem bind_right {a : α} (h : Avoids M S (m >>= f) s) (hrun : m.run M s = some (a, t)) :
    Avoids M S (f a) t :=
  fun n u hreach ↦ h n u (.of_run hrun hreach)

end Avoids

/-! ## Laws -/

structure Law (M : Machine ι ω σ) where
  Holds {α : Type} : Program ι ω α → σ → Prop
  done {α : Type} (a : α) (s : σ) : Holds (.done a) s
  stuck {α : Type} (s : σ) : Holds (.stuck : Program ι ω α) s
  look {α : Type} {k : ω → Program ι ω α} {s : σ} : Holds (k (M.see s)) s → Holds (.look k) s
  bind {α β : Type} {m : Program ι ω α} {f : α → Program ι ω β} {s : σ} : Holds m s →
    (∀ a t, m.run M s = some (a, t) → Holds (f a) t) → Holds (m >>= f) s

namespace Law

/-- The law for the programs of a smaller machine. -/
def restrict {M : Machine κ ν σ} (L : Law M) (f : ι → κ) (g : ν → ω) : Law (M.restrict f g) where
  Holds m s := L.Holds (m.lift f g) s
  done a s := L.done a s
  stuck s := L.stuck s
  look h := L.look h
  bind {α β m k s} hm hk := by
    show L.Holds ((m >>= k).lift f g) s
    rw [lift_bind]
    apply L.bind hm
    intro a t hrun
    rw [run_lift] at hrun
    exact hk a t hrun

theorem sight_bind {M : Machine ι ω σ} (L : Law M) {f : ω → Program ι ω α} {s : σ}
    (hf : L.Holds (f (M.see s)) s) : L.Holds (sight >>= f) s := L.look hf

/-- A part that only reads hands its value on. -/
theorem read_bind {M : Machine ι ω σ} (L : Law M) {m : Program ι ω α} {f : α → Program ι ω β}
    {a : α} {s : σ} (hrun : m.run M s = some (a, s)) (htrace : m.trace M s = [])
    (hf : L.Holds (f a) s) : L.Holds (m >>= f) s := by
  induction m with
  | done b =>
    obtain ⟨rfl, -⟩ := Prod.mk.inj (Option.some.inj hrun)
    exact hf
  | look k ih => exact L.look (ih _ hrun htrace)
  | exec c k => cases htrace
  | stuck => cases hrun

end Law

/-- The program obeys the law in every state. -/
class Obeys {M : Machine ι ω σ} (L : Law M) (m : Program ι ω α) : Prop where
  holds (s : σ) : L.Holds m s

section Obeys

variable {M : Machine ι ω σ} (L : Law M)

instance obeys_done (a : α) : Obeys L (.done a) := ⟨L.done a⟩

instance obeys_pure (a : α) : Obeys L (pure a) := ⟨L.done a⟩

instance obeys_stuck : Obeys L (.stuck : Program ι ω α) := ⟨L.stuck⟩

instance obeys_sight : Obeys L sight := ⟨fun s ↦ L.look (L.done _ s)⟩

variable {L} in
theorem Obeys.bind {m : Program ι ω α} {f : α → Program ι ω β} (hm : Obeys L m)
    (hf : ∀ a, Obeys L (f a)) : Obeys L (m >>= f) :=
  ⟨fun s ↦ L.bind (hm.holds s) fun a t _ ↦ (hf a).holds t⟩

variable {L} in
theorem Obeys.ite {c : Prop} [Decidable c] {m n : Program ι ω α} (hm : Obeys L m)
    (hn : Obeys L n) : Obeys L (if c then m else n) := by
  split
  · exact hm
  · exact hn

variable {L} in
/-- A choice whose branches may rely on the outcome of the test. -/
theorem Obeys.ite_of {c : Prop} [Decidable c] {m n : Program ι ω α} (hm : c → Obeys L m)
    (hn : ¬c → Obeys L n) : Obeys L (if c then m else n) := by
  split
  · exact hm ‹_›
  · exact hn ‹_›

instance obeys_bind (m : Program ι ω α) (f : α → Program ι ω β) [hm : Obeys L m]
    [hf : ∀ a, Obeys L (f a)] : Obeys L (m >>= f) := hm.bind hf

instance obeys_ite (c : Prop) [Decidable c] (m n : Program ι ω α) [hm : Obeys L m]
    [hn : Obeys L n] : Obeys L (if c then m else n) := hm.ite hn

-- A test that is known leaves one branch; instance search does not evaluate it.
instance obeys_ite_true [Decidable (true = true)] (m n : Program ι ω α) [hm : Obeys L m] :
    Obeys L (if true = true then m else n) := by
  rw [if_pos rfl]
  exact hm

instance obeys_ite_false [Decidable (false = true)] (m n : Program ι ω α) [hn : Obeys L n] :
    Obeys L (if false = true then m else n) := by
  rw [if_neg Bool.false_ne_true]
  exact hn

instance obeys_ite_false_and (b : Bool) [Decidable ((false && b) = true)] (m n : Program ι ω α)
    [hn : Obeys L n] : Obeys L (if (false && b) = true then m else n) := by
  rw [if_neg (by rw [Bool.false_and]; exact Bool.false_ne_true)]
  exact hn

instance obeys_ite_and_false (b : Bool) [Decidable ((b && false) = true)] (m n : Program ι ω α)
    [hn : Obeys L n] : Obeys L (if (b && false) = true then m else n) := by
  rw [if_neg (by rw [Bool.and_false]; exact Bool.false_ne_true)]
  exact hn

instance obeys_loop (finished : γ → Program ι ω Bool) (body : γ → Program ι ω γ)
    [hfinished : ∀ c, Obeys L (finished c)] [hbody : ∀ c, Obeys L (body c)] (n : Nat) (c : γ) :
    Obeys L (loop finished body n c) := by
  induction n generalizing c with
  | zero => exact obeys_stuck L
  | succ n ih =>
    show Obeys L (finished c >>= fun b ↦ if b then pure c else body c >>= loop finished body n)
    infer_instance

variable {L} in
theorem Obeys.forM {f : γ → Program ι ω Unit} (hf : ∀ c, Obeys L (f c)) (cs : List γ) :
    Obeys L (cs.forM f) := by
  induction cs with
  | nil => exact obeys_done L ()
  | cons c cs ih =>
    show Obeys L (f c >>= fun _ ↦ cs.forM f)
    infer_instance

instance obeys_forM (f : γ → Program ι ω Unit) [hf : ∀ c, Obeys L (f c)] (cs : List γ) :
    Obeys L (cs.forM f) := Obeys.forM hf cs

end Obeys

/-! ## Programs that obey a law from some states only -/

/-- The program obeys the law from every state in which `P` holds. -/
class ObeysFrom {M : Machine ι ω σ} (L : Law M) (P : σ → Prop) (m : Program ι ω α) : Prop where
  holds (s : σ) : P s → L.Holds m s

/-- The program keeps `P`. -/
class Keeps (M : Machine ι ω σ) (P : σ → Prop) (m : Program ι ω α) : Prop where
  preserves : Preserves M P m

/-- Where the program ends with the value `b`, `P` holds. -/
class Guards (M : Machine ι ω σ) (P : σ → Prop) (m : Program ι ω Bool) (b : Bool) : Prop where
  guards ⦃s t : σ⦄ : m.run M s = some (b, t) → P t

section ObeysFrom

variable {M : Machine ι ω σ} (L : Law M) (P : σ → Prop)

variable {L P} in
theorem Obeys.obeysFrom {m : Program ι ω α} (hm : Obeys L m) : ObeysFrom L P m :=
  ⟨fun s _ ↦ hm.holds s⟩

instance (priority := low) obeysFrom_of_obeys (m : Program ι ω α) [hm : Obeys L m] :
    ObeysFrom L P m := hm.obeysFrom

variable {L P} in
theorem ObeysFrom.bind_obeys {m : Program ι ω α} {f : α → Program ι ω β} (hm : ObeysFrom L P m)
    (hf : ∀ a, Obeys L (f a)) : ObeysFrom L P (m >>= f) :=
  ⟨fun s hs ↦ L.bind (hm.holds s hs) fun a t _ ↦ (hf a).holds t⟩

instance obeysFrom_bind (m : Program ι ω α) (f : α → Program ι ω β) [hm : ObeysFrom L P m]
    [hf : ∀ a, Obeys L (f a)] : ObeysFrom L P (m >>= f) := hm.bind_obeys hf

variable {L P} in
theorem ObeysFrom.bind {m : Program ι ω α} {f : α → Program ι ω β} (hm : ObeysFrom L P m)
    (hkeeps : Keeps M P m) (hf : ∀ a, ObeysFrom L P (f a)) : ObeysFrom L P (m >>= f) :=
  ⟨fun s hs ↦ L.bind (hm.holds s hs) fun a t hrun ↦ (hf a).holds t (hkeeps.preserves hs hrun)⟩

/-- After a part that keeps `P`, the rest may rely on it. -/
instance obeysFrom_bind_keeps (m : Program ι ω α) (f : α → Program ι ω β) [hkeeps : Keeps M P m]
    [hm : ObeysFrom L P m] [hf : ∀ a, ObeysFrom L P (f a)] : ObeysFrom L P (m >>= f) :=
  hm.bind hkeeps hf

variable {L P} in
theorem ObeysFrom.ite {c : Prop} [Decidable c] {m n : Program ι ω α} (hm : ObeysFrom L P m)
    (hn : ObeysFrom L P n) : ObeysFrom L P (if c then m else n) := by
  split
  · exact hm
  · exact hn

instance obeysFrom_ite (c : Prop) [Decidable c] (m n : Program ι ω α) [hm : ObeysFrom L P m]
    [hn : ObeysFrom L P n] : ObeysFrom L P (if c then m else n) := hm.ite hn

variable {L P} in
/-- A choice that is made before the first part. -/
theorem ObeysFrom.bind_ite {c : Prop} [Decidable c] {m : Program ι ω α} {f g : α → Program ι ω β}
    (hf : ObeysFrom L P (m >>= f)) (hg : ObeysFrom L P (m >>= g)) :
    ObeysFrom L P (m >>= fun a ↦ if c then f a else g a) := by
  by_cases h : c
  · simp only [if_pos h]
    exact hf
  · simp only [if_neg h]
    exact hg

instance obeysFrom_ite_apply (c : Prop) [Decidable c] (f g : γ → Program ι ω α) (x : γ)
    [hf : ObeysFrom L P (f x)] [hg : ObeysFrom L P (g x)] :
    ObeysFrom L P ((if c then f else g) x) := by
  split
  · exact hf
  · exact hg

variable {L P} in
/-- A test after which `P` holds lets its branch rely on it. -/
theorem Obeys.guard {m : Program ι ω Bool} {f : Bool → Program ι ω α} {b : Bool} (hm : Obeys L m)
    (hguards : Guards M P m b) (hf : ObeysFrom L P (f b)) (hnot : Obeys L (f !b)) :
    Obeys L (m >>= f) := by
  constructor
  intro s
  apply L.bind (hm.holds s)
  intro c t hrun
  by_cases hc : c = b
  · subst hc
    exact hf.holds t (hguards.guards hrun)
  · rw [Bool.eq_not_of_ne hc]
    exact hnot.holds t

variable {L P} in
/-- A loop whose test guards its body. -/
theorem Obeys.loop_guard {finished : γ → Program ι ω Bool} {body : γ → Program ι ω γ}
    (hfinished : ∀ c, Obeys L (finished c)) (hguards : ∀ c, Guards M P (finished c) false)
    (hbody : ∀ c, ObeysFrom L P (body c)) (n : Nat) (c : γ) :
    Obeys L (loop finished body n c) := by
  induction n generalizing c with
  | zero => exact obeys_stuck L
  | succ n ih =>
    apply (hfinished c).guard (hguards c)
    · show ObeysFrom L P (body c >>= loop finished body n)
      infer_instance
    · exact obeys_pure L c

variable {P}

theorem guards_lift {M : Machine κ ν σ} (f : ι → κ) (g : ν → ω) (m : Program ι ω Bool) (b : Bool)
    (hm : Guards (M.restrict f g) P m b) : Guards M P (m.lift f g) b := by
  constructor
  intro s t hrun
  rw [run_lift] at hrun
  exact hm.guards hrun

end ObeysFrom

/-! ## Programs over a part of the commands -/

/-- All commands of the program pass the test. -/
def IssuesOnly (test : ι → Bool) : Program ι ω α → Prop
  | .done _ => True
  | .look k => ∀ w, (k w).IssuesOnly test
  | .exec c k => test c = true ∧ k.IssuesOnly test
  | .stuck => True

theorem issuesOnly_bind {test : ι → Bool} {m : Program ι ω α} {f : α → Program ι ω β}
    (hm : m.IssuesOnly test) (hf : ∀ a, (f a).IssuesOnly test) : (m >>= f).IssuesOnly test := by
  induction m with
  | done a => exact hf a
  | look k ih => exact fun w ↦ ih w (hm w)
  | exec c k ih => exact ⟨hm.1, ih hm.2⟩
  | stuck => trivial

theorem IssuesOnly.lift {κ ν : Type} {f : ι → κ} {g : ν → ω} {test : κ → Bool} {m : Program ι ω α}
    (hm : m.IssuesOnly fun c ↦ test (f c)) : (m.lift f g).IssuesOnly test := by
  induction m with
  | done a => trivial
  | look k ih => exact fun v ↦ ih _ (hm _)
  | exec c k ih => exact ⟨hm.1, ih hm.2⟩
  | stuck => trivial

/-- A program over commands that obey the law obeys it. -/
theorem Law.of_issuesOnly {M : Machine ι ω σ} (L : Law M) {test : ι → Bool}
    (hcommand : ∀ c s, test c = true → L.Holds (command c) s) {m : Program ι ω α}
    (hm : m.IssuesOnly test) (s : σ) : L.Holds m s := by
  induction m generalizing s with
  | done a => exact L.done a s
  | look k ih => exact L.look (ih _ (hm _) s)
  | exec c k ih => exact L.bind (hcommand c s hm.1) fun _ t _ ↦ ih hm.2 t
  | stuck => exact L.stuck s

/-- What commands that pass the test preserve, a program over them preserves. -/
theorem Preserves.of_issuesOnly {M : Machine ι ω σ} {I : σ → Prop} {test : ι → Bool}
    (hcommand : ∀ c s, test c = true → I s → I (M.step c s)) {m : Program ι ω α}
    (hm : m.IssuesOnly test) : Preserves M I m := by
  induction m with
  | done a => exact Preserves.done a
  | look k ih => exact fun s a t hs hrun ↦ ih _ (hm _) hs hrun
  | exec c k ih => exact fun s a t hs hrun ↦ ih hm.2 (hcommand c s hm.1 hs) hrun
  | stuck => exact Preserves.stuck

/-- A test that instance search can evaluate. -/
class Passes (b : Bool) : Prop where
  eq_true : b = true

instance passes_true : Passes true := ⟨rfl⟩

/-- The class of the programs over the commands that pass the test. -/
class Uses (test : ι → Bool) (m : Program ι ω α) : Prop where
  issuesOnly : m.IssuesOnly test

theorem Uses.mono {test test' : ι → Bool} {m : Program ι ω α} (hm : Uses test m)
    (htest : ∀ c, test c = true → test' c = true) : Uses test' m := by
  obtain ⟨hm⟩ := hm
  constructor
  induction m with
  | done a => trivial
  | look k ih => exact fun w ↦ ih w (hm w)
  | exec c k ih => exact ⟨htest c hm.1, ih hm.2⟩
  | stuck => trivial

section Uses

variable (test : ι → Bool)

instance uses_done (a : α) : Uses test (.done a : Program ι ω α) := ⟨trivial⟩

instance uses_pure (a : α) : Uses test (pure a : Program ι ω α) := ⟨trivial⟩

instance uses_stuck : Uses test (.stuck : Program ι ω α) := ⟨trivial⟩

instance uses_sight : Uses test (sight : Program ι ω ω) := ⟨fun _ ↦ trivial⟩

instance uses_command (c : ι) [h : Passes (test c)] : Uses test (command c : Program ι ω Unit) :=
  ⟨h.eq_true, trivial⟩

variable {test} in
theorem Uses.bind {m : Program ι ω α} {f : α → Program ι ω β} (hm : Uses test m)
    (hf : ∀ a, Uses test (f a)) : Uses test (m >>= f) :=
  ⟨issuesOnly_bind hm.issuesOnly fun a ↦ (hf a).issuesOnly⟩

variable {test} in
theorem Uses.ite {c : Prop} [Decidable c] {m n : Program ι ω α} (hm : Uses test m)
    (hn : Uses test n) : Uses test (if c then m else n) := by
  split
  · exact hm
  · exact hn

instance uses_bind (m : Program ι ω α) (f : α → Program ι ω β) [hm : Uses test m]
    [hf : ∀ a, Uses test (f a)] : Uses test (m >>= f) := hm.bind hf

instance uses_ite (c : Prop) [Decidable c] (m n : Program ι ω α) [hm : Uses test m]
    [hn : Uses test n] : Uses test (if c then m else n) := hm.ite hn

instance uses_ite_apply (c : Prop) [Decidable c] (f g : γ → Program ι ω α) (x : γ)
    [hf : Uses test (f x)] [hg : Uses test (g x)] : Uses test ((if c then f else g) x) := by
  split
  · exact hf
  · exact hg

instance uses_loop (finished : γ → Program ι ω Bool) (body : γ → Program ι ω γ)
    [hfinished : ∀ c, Uses test (finished c)] [hbody : ∀ c, Uses test (body c)] (n : Nat) (c : γ) :
    Uses test (loop finished body n c) := by
  induction n generalizing c with
  | zero => exact uses_stuck test
  | succ n ih =>
    show Uses test (finished c >>= fun b ↦ if b then pure c else body c >>= loop finished body n)
    infer_instance

instance uses_foldlM (f : β → γ → Program ι ω β) [hf : ∀ b c, Uses test (f b c)] (cs : List γ)
    (b : β) : Uses test (cs.foldlM f b) := by
  induction cs generalizing b with
  | nil => exact uses_done test b
  | cons c cs ih =>
    rw [List.foldlM_cons]
    infer_instance

instance uses_forM (f : γ → Program ι ω Unit) [hf : ∀ c, Uses test (f c)] (cs : List γ) :
    Uses test (cs.forM f) := by
  induction cs with
  | nil => exact uses_done test ()
  | cons c cs ih =>
    show Uses test (f c >>= fun _ ↦ cs.forM f)
    infer_instance

end Uses

/-! ## Safety -/

section Safety

variable {M : Machine ι ω σ} {S : Site ι ω σ} {I : ι → σ → Prop} {J : σ → Prop}

variable (M S I J) in
/-- From a state in which `J` holds, and unless the run comes to a site, the commands are issued where
`I` allows them, and `J` holds at the end. -/
def Law.safety : Law M where
  Holds m s := Avoids M S m s → J s → Assures M I m s fun _ t ↦ J t
  done _ _ _ hs := Assures.done hs
  stuck _ _ _ := Assures.stuck
  look h havoids hs := Assures.look (h havoids.look hs)
  bind {α β m f s} hm hf havoids hs := by
    obtain ⟨halways, hends⟩ := hm havoids.bind_left hs
    apply Assures.bind
    refine ⟨halways, fun {a t} hrun ↦ ?_⟩
    exact hf a t hrun (havoids.bind_right hrun) (hends hrun)

/-- A program over commands that are allowed everywhere. -/
theorem Obeys.safety_of_uses {test : ι → Bool}
    (hcommand : ∀ c s, test c = true → J s → I c s ∧ J (M.step c s)) (m : Program ι ω α)
    [hm : Uses test m] : Obeys (Law.safety M S I J) m := by
  constructor
  intro s
  apply Law.of_issuesOnly _ _ hm.issuesOnly
  intro c t hc _ ht
  obtain ⟨hI, hJ⟩ := hcommand c t hc ht
  exact Assures.command hI hJ

/-- What holds at the start may be assumed. -/
theorem Law.safety_of_holds {m : Program ι ω α} {s : σ}
    (h : J s → (Law.safety M S I J).Holds m s) : (Law.safety M S I J).Holds m s :=
  fun havoids hs ↦ h hs havoids hs

end Safety

/-! ## Values of a program -/

/-- Every value that the program can end with satisfies `P`. -/
def Yields (P : α → Prop) : Program ι ω α → Prop
  | .done a => P a
  | .look k => ∀ w, (k w).Yields P
  | .exec _ k => k.Yields P
  | .stuck => True

section Yields

variable {P : α → Prop} {Q : β → Prop}

theorem Yields.of_run {M : Machine ι ω σ} {m : Program ι ω α} {s t : σ} {a : α}
    (hm : m.Yields P) (hrun : m.run M s = some (a, t)) : P a := by
  induction m generalizing s with
  | done b =>
    obtain ⟨rfl, -⟩ := Prod.mk.inj (Option.some.inj hrun)
    exact hm
  | look k ih => exact ih _ (hm _) hrun
  | exec c k ih => exact ih hm hrun
  | stuck => cases hrun

theorem Yields.pure {a : α} (h : P a) : (Pure.pure a : Program ι ω α).Yields P := h

theorem Yields.of_bind {m : Program ι ω α} {f : α → Program ι ω β}
    (hf : ∀ a, (f a).Yields Q) : (m >>= f).Yields Q := by
  induction m with
  | done a => exact hf a
  | look k ih => exact ih
  | exec c k ih => exact ih
  | stuck => trivial

theorem Yields.ite {c : Prop} [Decidable c] {m n : Program ι ω α} (hm : c → m.Yields P)
    (hn : ¬c → n.Yields P) : (if c then m else n).Yields P := by
  split
  · exact hm ‹_›
  · exact hn ‹_›

end Yields

/-- Every value that a run from a state with `J` ends with satisfies `P`. -/
structure YieldsFrom (M : Machine ι ω σ) (J : σ → Prop) (P : α → Prop) (m : Program ι ω α) :
    Prop where
  of_run ⦃s : σ⦄ ⦃a : α⦄ ⦃t : σ⦄ : J s → m.run M s = some (a, t) → P a

section YieldsFrom

variable {M : Machine ι ω σ} {J : σ → Prop} {P : α → Prop} {Q : β → Prop}

theorem Yields.yieldsFrom {m : Program ι ω α} (hm : m.Yields P) : m.YieldsFrom M J P :=
  ⟨fun _ _ _ _ hrun ↦ hm.of_run hrun⟩

theorem YieldsFrom.sight {P : ω → Prop} (h : ∀ s, J s → P (M.see s)) :
    (Program.sight : Program ι ω ω).YieldsFrom M J P := by
  constructor
  intro s a t hs hrun
  obtain ⟨rfl, -⟩ := Prod.mk.inj (Option.some.inj hrun)
  exact h s hs

theorem YieldsFrom.bind {m : Program ι ω α} {f : α → Program ι ω β} (hkeeps : Preserves M J m)
    (hm : m.YieldsFrom M J P) (hf : ∀ a, P a → (f a).YieldsFrom M J Q) :
    (m >>= f).YieldsFrom M J Q := by
  constructor
  intro s b u hs hrun
  obtain ⟨⟨a, t⟩, hfirst, hrest⟩ := (run_bind_eq_some M s).1 hrun
  exact (hf a (hm.of_run hs hfirst)).of_run (hkeeps hs hfirst) hrest

theorem YieldsFrom.of_bind {m : Program ι ω α} {f : α → Program ι ω β} (hkeeps : Preserves M J m)
    (hf : ∀ a, (f a).YieldsFrom M J Q) : (m >>= f).YieldsFrom M J Q :=
  YieldsFrom.bind (P := fun _ ↦ True) hkeeps ⟨fun _ _ _ _ _ ↦ trivial⟩ fun a _ ↦ hf a

theorem YieldsFrom.ite {c : Prop} [Decidable c] {m n : Program ι ω α}
    (hm : c → m.YieldsFrom M J P) (hn : ¬c → n.YieldsFrom M J P) :
    (if c then m else n).YieldsFrom M J P := by
  split
  · exact hm ‹_›
  · exact hn ‹_›

/-- What every round of a loop keeps holds of its result. -/
theorem YieldsFrom.loop {I : γ → Prop} {finished : γ → Program ι ω Bool}
    {body : γ → Program ι ω γ} (hfinished : ∀ c, Preserves M J (finished c))
    (hkeeps : ∀ c, Preserves M J (body c)) (hbody : ∀ c, I c → (body c).YieldsFrom M J I) (n : Nat)
    {c : γ} (hc : I c) : (Program.loop finished body n c).YieldsFrom M J I := by
  induction n generalizing c with
  | zero => exact Yields.yieldsFrom (m := .stuck) trivial
  | succ n ih =>
    apply YieldsFrom.of_bind (hfinished c)
    intro b
    apply YieldsFrom.ite (fun _ ↦ Yields.yieldsFrom (Yields.pure hc))
    exact fun _ ↦ (hbody c hc).bind (hkeeps c) fun c' hc' ↦ ih hc'

variable {S : Site ι ω σ} {I : ι → σ → Prop}

/-- The rest may rely on what the value of the first part satisfies. -/
theorem Obeys.bind_yieldsFrom {m : Program ι ω α} {f : α → Program ι ω β}
    (hm : Obeys (Law.safety M S I J) m) (hvalue : m.YieldsFrom M J P)
    (hf : ∀ a, P a → Obeys (Law.safety M S I J) (f a)) : Obeys (Law.safety M S I J) (m >>= f) := by
  constructor
  intro s
  apply Law.safety_of_holds
  intro hs
  apply (Law.safety M S I J).bind (hm.holds s)
  intro a t hrun
  exact (hf a (hvalue.of_run hs hrun)).holds t

/-- A loop whose rounds keep an invariant of its own. -/
theorem Obeys.loop_yieldsFrom {K : γ → Prop} {finished : γ → Program ι ω Bool}
    {body : γ → Program ι ω γ} (hfinished : ∀ c, K c → Obeys (Law.safety M S I J) (finished c))
    (hbody : ∀ c, K c → Obeys (Law.safety M S I J) (body c))
    (hkeeps : ∀ c, K c → (body c).YieldsFrom M J K) (n : Nat) {c : γ} (hc : K c) :
    Obeys (Law.safety M S I J) (Program.loop finished body n c) := by
  induction n generalizing c with
  | zero => exact obeys_stuck _
  | succ n ih =>
    apply (hfinished c hc).bind
    intro b
    apply Obeys.ite (obeys_pure _ c)
    exact (hbody c hc).bind_yieldsFrom (hkeeps c hc) fun c' hc' ↦ ih hc'

end YieldsFrom

/-- A run from a state with `J` ends where `H` holds, or with a value that satisfies `P`. -/
structure YieldsUnless (M : Machine ι ω σ) (J H : σ → Prop) (P : α → Prop) (m : Program ι ω α) :
    Prop where
  of_run ⦃s : σ⦄ ⦃a : α⦄ ⦃t : σ⦄ : J s → m.run M s = some (a, t) → H t ∨ P a

section YieldsUnless

variable {M : Machine ι ω σ} {J H : σ → Prop} {P : α → Prop} {Q : β → Prop}

theorem Yields.yieldsUnless {m : Program ι ω α} (hm : m.Yields P) : m.YieldsUnless M J H P :=
  ⟨fun _ _ _ _ hrun ↦ .inr (hm.of_run hrun)⟩

theorem YieldsUnless.mono {R : α → Prop} {m : Program ι ω α} (hm : m.YieldsUnless M J H P)
    (hPR : ∀ a, P a → R a) : m.YieldsUnless M J H R :=
  ⟨fun _ _ _ hs hrun ↦ (hm.of_run hs hrun).imp_right (hPR _)⟩

/-- What holds of a value for good holds unless the rest comes to `H`. -/
theorem YieldsUnless.bind {m : Program ι ω α} {f : α → Program ι ω β} (hkeeps : Preserves M J m)
    (hstays : ∀ a, Preserves M H (f a)) (hm : m.YieldsUnless M J H P)
    (hf : ∀ a, P a → (f a).YieldsUnless M J H Q) : (m >>= f).YieldsUnless M J H Q := by
  constructor
  intro s b u hs hrun
  obtain ⟨⟨a, t⟩, hfirst, hrest⟩ := (run_bind_eq_some M s).1 hrun
  rcases hm.of_run hs hfirst with hH | hP
  · exact .inl (hstays a hH hrest)
  · exact (hf a hP).of_run (hkeeps hs hfirst) hrest

theorem YieldsUnless.of_preserves {m : Program ι ω α} (hm : Preserves M J m) :
    m.YieldsUnless M J J P := ⟨fun _ _ _ hs hrun ↦ .inl (hm hs hrun)⟩

theorem YieldsUnless.of_bind {m : Program ι ω α} {f : α → Program ι ω β} (hkeeps : Preserves M J m)
    (hf : ∀ a, (f a).YieldsUnless M J H Q) : (m >>= f).YieldsUnless M J H Q := by
  constructor
  intro s b u hs hrun
  obtain ⟨⟨a, t⟩, hfirst, hrest⟩ := (run_bind_eq_some M s).1 hrun
  exact (hf a).of_run (hkeeps hs hfirst) hrest

/-- The rest of a run whose first part is known. -/
theorem YieldsUnless.of_run_bind {m : Program ι ω α} {f : α → Program ι ω β} {s t u : σ} {a : α}
    {b : β} (hf : (f a).YieldsUnless M J H Q) (hfirst : m.run M s = some (a, t)) (ht : J t)
    (hrun : (m >>= f).run M s = some (b, u)) : H u ∨ Q b := by
  rw [run_bind, hfirst] at hrun
  exact hf.of_run ht hrun

theorem YieldsUnless.ite {c : Prop} [Decidable c] {m n : Program ι ω α}
    (hm : c → m.YieldsUnless M J H P) (hn : ¬c → n.YieldsUnless M J H P) :
    (if c then m else n).YieldsUnless M J H P := by
  split
  · exact hm ‹_›
  · exact hn ‹_›

end YieldsUnless

end Xpact.Library.Program
