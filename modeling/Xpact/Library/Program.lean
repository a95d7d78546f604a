import Mathlib.Data.List.Basic

/-!
# Programs over a set of commands

A routine of a stateful object is a tree: it may look at a part of the state, issue a command that
changes the state, and end with a value.  What a routine can branch upon is exactly what it can
look at (`ω`), and the only changes it can make are the commands (`ι`).  Both facts are types, so
an invariant of the commands is an invariant of every routine (`run_invariant`), and two states
that look the same stay related under every routine (`run_related`).

`stuck` is a run that has used up the bound on nested calls its author gave it.
-/

namespace Xpact.Library

inductive Program (ι ω α : Type) : Type where
  | done (a : α)
  | look (k : ω → Program ι ω α)
  | exec (c : ι) (k : Program ι ω α)
  | stuck

namespace Program

variable {ι κ ω ν σ τ α β γ : Type}

def bind : Program ι ω α → (α → Program ι ω β) → Program ι ω β
  | .done a, f => f a
  | .look k, f => .look fun w ↦ (k w).bind f
  | .exec c k, f => .exec c (k.bind f)
  | .stuck, _ => .stuck

instance : Monad (Program ι ω) where
  pure := .done
  bind := bind

@[simp] theorem pure_eq (a : α) : (pure a : Program ι ω α) = .done a := rfl
@[simp] theorem done_bind (a : α) (f : α → Program ι ω β) : (.done a : Program ι ω α) >>= f = f a :=
  rfl
@[simp] theorem look_bind (k : ω → Program ι ω α) (f : α → Program ι ω β) :
    (.look k : Program ι ω α) >>= f = .look fun w ↦ k w >>= f := rfl
@[simp] theorem exec_bind (c : ι) (k : Program ι ω α) (f : α → Program ι ω β) :
    (.exec c k : Program ι ω α) >>= f = .exec c (k >>= f) := rfl
@[simp] theorem stuck_bind (f : α → Program ι ω β) :
    (.stuck : Program ι ω α) >>= f = .stuck := rfl

theorem bind_done (m : Program ι ω α) : m >>= Program.done = m := by
  induction m with
  | done a => rfl
  | look k ih => simp only [look_bind, ih]
  | exec c k ih => simp only [exec_bind, ih]
  | stuck => rfl

theorem bind_assoc' (m : Program ι ω α) (f : α → Program ι ω β) (g : β → Program ι ω γ) :
    m >>= f >>= g = m >>= fun a ↦ f a >>= g := by
  induction m with
  | done a => rfl
  | look k ih => simp only [look_bind, ih]
  | exec c k ih => simp only [exec_bind, ih]
  | stuck => rfl

instance : LawfulMonad (Program ι ω) :=
  LawfulMonad.mk' _ (fun m ↦ bind_done m) (fun _ _ ↦ rfl) bind_assoc'

/-- What the routine can see now. -/
def sight : Program ι ω ω := .look .done

/-- Issue one command. -/
def command (c : ι) : Program ι ω Unit := .exec c (.done ())

/-- `from s until finished loop body`: at most `n` tests, and `stuck` when none of them holds. -/
def loop (finished : σ → Program ι ω Bool) (body : σ → Program ι ω σ) : Nat → σ → Program ι ω σ
  | 0, _ => .stuck
  | n + 1, s => do
    if ← finished s then
      return s
    else
      loop finished body n (← body s)

/-! ## Running a program -/

/-- A machine shows part of its state and executes commands. -/
structure Machine (ι ω σ : Type) where
  see : σ → ω
  step : ι → σ → σ

/-- The run of a program, `none` when it is stuck. -/
def run (M : Machine ι ω σ) : Program ι ω α → σ → Option (α × σ)
  | .done a, s => some (a, s)
  | .look k, s => (k (M.see s)).run M s
  | .exec c k, s => k.run M (M.step c s)
  | .stuck, _ => none

section
variable (M : Machine ι ω σ) (s : σ)

@[simp] theorem run_done (a : α) : (.done a : Program ι ω α).run M s = some (a, s) := rfl
@[simp] theorem run_pure (a : α) : (pure a : Program ι ω α).run M s = some (a, s) := rfl
@[simp] theorem run_look (k : ω → Program ι ω α) :
    (Program.look k).run M s = (k (M.see s)).run M s := rfl
@[simp] theorem run_exec (c : ι) (k : Program ι ω α) :
    (Program.exec c k).run M s = k.run M (M.step c s) := rfl
@[simp] theorem run_stuck : (.stuck : Program ι ω α).run M s = none := rfl
@[simp] theorem run_sight : (sight : Program ι ω ω).run M s = some (M.see s, s) := rfl
@[simp] theorem run_command (c : ι) :
    (command c : Program ι ω Unit).run M s = some ((), M.step c s) := rfl

theorem run_bind (m : Program ι ω α) (f : α → Program ι ω β) :
    (m >>= f).run M s = (m.run M s).bind fun r ↦ (f r.1).run M r.2 := by
  induction m generalizing s with
  | done a => rfl
  | look k ih => exact ih _ s
  | exec c k ih => exact ih (M.step c s)
  | stuck => rfl

@[simp] theorem run_sight_bind (f : ω → Program ι ω α) :
    (sight >>= f).run M s = (f (M.see s)).run M s := rfl

@[simp] theorem run_command_bind (c : ι) (f : Unit → Program ι ω α) :
    (command c >>= f).run M s = (f ()).run M (M.step c s) := rfl

/-- A finished sequence is a finished first part followed by a finished second part. -/
theorem run_bind_eq_some {m : Program ι ω α} {f : α → Program ι ω β} {r : β × σ} :
    (m >>= f).run M s = some r ↔ ∃ q, m.run M s = some q ∧ (f q.1).run M q.2 = some r := by
  rw [run_bind, Option.bind_eq_some_iff]

end

/-! ## Traces -/

/-- The commands a run issues, in order. -/
def trace (M : Machine ι ω σ) : Program ι ω α → σ → List ι
  | .done _, _ => []
  | .look k, s => (k (M.see s)).trace M s
  | .exec c k, s => c :: k.trace M (M.step c s)
  | .stuck, _ => []

/-- Execute a list of commands. -/
def Machine.execute (M : Machine ι ω σ) (cs : List ι) (s : σ) : σ :=
  cs.foldl (fun s c ↦ M.step c s) s

@[simp] theorem Machine.execute_nil (M : Machine ι ω σ) (s : σ) : M.execute [] s = s := rfl
@[simp] theorem Machine.execute_cons (M : Machine ι ω σ) (c : ι) (cs : List ι) (s : σ) :
    M.execute (c :: cs) s = M.execute cs (M.step c s) := rfl
theorem Machine.execute_append (M : Machine ι ω σ) (cs ds : List ι) (s : σ) :
    M.execute (cs ++ ds) s = M.execute ds (M.execute cs s) := List.foldl_append ..

/-- A run changes the state by its commands and by nothing else. -/
theorem run_eq_execute {M : Machine ι ω σ} {m : Program ι ω α} {s s' : σ} {a : α}
    (h : m.run M s = some (a, s')) : s' = M.execute (m.trace M s) s := by
  induction m generalizing s with
  | done b =>
    simp only [run_done, Option.some.injEq, Prod.mk.injEq] at h
    exact h.2.symm
  | look k ih => exact ih (M.see s) h
  | exec c k ih => exact ih h
  | stuck => cases h

/-! ## Invariants -/

theorem Machine.execute_invariant {M : Machine ι ω σ} {I : σ → Prop}
    (hstep : ∀ c s, I s → I (M.step c s)) (cs : List ι) {s : σ} (hs : I s) :
    I (M.execute cs s) := by
  induction cs generalizing s with
  | nil => exact hs
  | cons c cs ih => exact ih (hstep c s hs)

/-- What every command preserves, every run preserves. -/
theorem run_invariant {M : Machine ι ω σ} {I : σ → Prop}
    (hstep : ∀ c s, I s → I (M.step c s)) {m : Program ι ω α} {s s' : σ} {a : α}
    (hs : I s) (h : m.run M s = some (a, s')) : I s' := by
  rw [run_eq_execute h]
  exact M.execute_invariant hstep _ hs

/-- What no command changes, no run changes. -/
theorem run_unchanged {M : Machine ι ω σ} (f : σ → β) (hstep : ∀ c s, f (M.step c s) = f s)
    {m : Program ι ω α} {s s' : σ} {a : α} (h : m.run M s = some (a, s')) : f s' = f s :=
  run_invariant (I := fun t ↦ f t = f s) (fun c t ht ↦ (hstep c t).trans ht) rfl h

/-- `m` keeps `I` when it finishes. -/
def Preserves (M : Machine ι ω σ) (I : σ → Prop) (m : Program ι ω α) : Prop :=
  ∀ ⦃s a s'⦄, I s → m.run M s = some (a, s') → I s'

namespace Preserves

variable {M : Machine ι ω σ} {I : σ → Prop}

theorem of_step (hstep : ∀ c s, I s → I (M.step c s)) (m : Program ι ω α) : Preserves M I m :=
  fun _ _ _ hs h ↦ run_invariant hstep hs h

theorem done (a : α) : Preserves M I (.done a) := by
  intro s b s' hs h
  cases h
  exact hs

theorem stuck : Preserves M I (.stuck : Program ι ω α) := by
  intro s b s' hs h
  cases h

end Preserves

/-! ## Programs of a smaller machine inside a larger one -/

/-- Read a program over fewer commands and a narrower sight as one of a larger machine. -/
def lift (f : ι → κ) (g : ν → ω) : Program ι ω α → Program κ ν α
  | .done a => .done a
  | .look k => .look fun v ↦ (k (g v)).lift f g
  | .exec c k => .exec (f c) (k.lift f g)
  | .stuck => .stuck

/-- The smaller machine that the larger one contains. -/
def Machine.restrict (M : Machine κ ν σ) (f : ι → κ) (g : ν → ω) : Machine ι ω σ where
  see s := g (M.see s)
  step c := M.step (f c)

theorem run_lift (M : Machine κ ν σ) (f : ι → κ) (g : ν → ω) (m : Program ι ω α) (s : σ) :
    (m.lift f g).run M s = m.run (M.restrict f g) s := by
  induction m generalizing s with
  | done a => rfl
  | look k ih => exact ih _ s
  | exec c k ih => exact ih _
  | stuck => rfl

@[simp] theorem lift_done (f : ι → κ) (g : ν → ω) (a : α) :
    (.done a : Program ι ω α).lift f g = .done a := rfl

theorem lift_bind (f : ι → κ) (g : ν → ω) (m : Program ι ω α) (h : α → Program ι ω β) :
    (m >>= h).lift f g = m.lift f g >>= fun a ↦ (h a).lift f g := by
  induction m with
  | done a => rfl
  | look k ih => simp only [look_bind, lift, ih]
  | exec c k ih => simp only [exec_bind, lift, ih]
  | stuck => rfl

/-! ## What an observer writes down

An observer notes something, or nothing, at each command.  A contract relates the state before a run,
the notes of the run and the state after it; runs in sequence meet it when their parts do. -/

section Log

variable {μ : Type}

def log (M : Machine ι ω σ) (note : ι → σ → List μ) : Program ι ω α → σ → List μ
  | .done _, _ => []
  | .look k, s => (k (M.see s)).log M note s
  | .exec c k, s => note c s ++ k.log M note (M.step c s)
  | .stuck, _ => []

theorem log_bind {M : Machine ι ω σ} {note : ι → σ → List μ} {m : Program ι ω α} {s t : σ} {a : α}
    (h : m.run M s = some (a, t)) (f : α → Program ι ω β) :
    (m >>= f).log M note s = m.log M note s ++ (f a).log M note t := by
  induction m generalizing s with
  | done b =>
    obtain ⟨rfl, rfl⟩ := Prod.mk.inj (Option.some.inj h)
    rfl
  | look k ih => exact ih _ h
  | exec c k ih =>
    rw [exec_bind, log, log, ih h, List.append_assoc]
  | stuck => cases h

theorem log_lift (M : Machine κ ν σ) (note : κ → σ → List μ) (f : ι → κ) (g : ν → ω)
    (m : Program ι ω α) (s : σ) :
    (m.lift f g).log M note s = m.log (M.restrict f g) (fun c ↦ note (f c)) s := by
  induction m generalizing s with
  | done a => rfl
  | look k ih => exact ih _ s
  | exec c k ih => exact congrArg (note (f c) s ++ ·) (ih _)
  | stuck => rfl

/-- Every finished run of `m` from `s` leaves notes, a value and a state that satisfy `P`. -/
def Ensures (M : Machine ι ω σ) (note : ι → σ → List μ) (m : Program ι ω α) (s : σ)
    (P : List μ → α → σ → Prop) : Prop :=
  ∀ ⦃a t⦄, m.run M s = some (a, t) → P (m.log M note s) a t

namespace Ensures

variable {M : Machine ι ω σ} {note : ι → σ → List μ} {s : σ} {P Q : List μ → α → σ → Prop}

theorem mono {m : Program ι ω α} (h : Ensures M note m s P) (hPQ : ∀ l a t, P l a t → Q l a t) :
    Ensures M note m s Q :=
  fun a t hrun ↦ hPQ _ a t (h hrun)

theorem done {a : α} (h : P [] a s) : Ensures M note (.done a) s P := by
  intro b t hrun
  obtain ⟨rfl, rfl⟩ := Prod.mk.inj (Option.some.inj hrun)
  exact h

theorem stuck : Ensures M note (.stuck : Program ι ω α) s P := by
  intro a t h
  cases h

theorem bind {m : Program ι ω β} {f : β → Program ι ω α}
    (h : Ensures M note m s fun l b t ↦ Ensures M note (f b) t fun l' a u ↦ P (l ++ l') a u) :
    Ensures M note (m >>= f) s P := by
  intro a u hrun
  obtain ⟨⟨b, t⟩, hm, hf⟩ := (run_bind_eq_some M s).1 hrun
  rw [log_bind hm]
  exact h hm hf

theorem command {c : ι} {P : List μ → Unit → σ → Prop} (h : P (note c s) () (M.step c s)) :
    Ensures M note (Program.command c) s P := by
  intro a t hrun
  obtain ⟨rfl, rfl⟩ := Prod.mk.inj (Option.some.inj hrun)
  rw [Program.command, log, log, List.append_nil]
  exact h

/-- A part that only reads hands its value on. -/
theorem read_bind {m : Program ι ω β} {f : β → Program ι ω α} {b : β}
    (hrun : m.run M s = some (b, s)) (hlog : m.log M note s = []) (h : Ensures M note (f b) s P) :
    Ensures M note (m >>= f) s P := by
  intro a t hbind
  rw [run_bind, hrun] at hbind
  rw [log_bind hrun, hlog]
  exact h hbind

/-- A command leaves its notes before those of the rest. -/
theorem command_bind {c : ι} {f : Unit → Program ι ω α} {l : List μ} (hnote : note c s = l)
    (h : Ensures M note (f ()) (M.step c s) fun l' a t ↦ P (l ++ l') a t) :
    Ensures M note (Program.command c >>= f) s P :=
  bind (command (hnote ▸ h))

/-- What holds of the value after each round of a fold holds of its result. -/
theorem foldlM {f : β → γ → Program ι ω β} {I : β → Prop}
    (hf : ∀ b c s, I b → Ensures M note (f b c) s fun _ b' _ ↦ I b') (cs : List γ) {b : β}
    (hb : I b) (s : σ) : Ensures M note (cs.foldlM f b) s fun _ b' _ ↦ I b' := by
  induction cs generalizing b s with
  | nil => exact done hb
  | cons c cs ih =>
    rw [List.foldlM_cons]
    exact bind ((hf b c s hb).mono fun _ _ t hb' ↦ ih hb' t)

theorem lift {κ ν : Type} {M : Machine κ ν σ} {note : κ → σ → List μ} {f : ι → κ} {g : ν → ω}
    {m : Program ι ω α} (h : Ensures (M.restrict f g) (fun c ↦ note (f c)) m s P) :
    Ensures M note (m.lift f g) s P := by
  intro a t hrun
  rw [run_lift] at hrun
  rw [log_lift]
  exact h hrun

end Ensures

structure Contract (σ μ : Type) where
  Rel : σ → List μ → σ → Prop
  refl : ∀ s, Rel s [] s
  trans : ∀ {s t u l l'}, Rel s l t → Rel t l' u → Rel s (l ++ l') u

/-- Every finished run of `m` from `s` meets the contract. -/
def Meets (M : Machine ι ω σ) (note : ι → σ → List μ) (C : Contract σ μ) (m : Program ι ω α)
    (s : σ) : Prop :=
  Ensures M note m s fun l _ t ↦ C.Rel s l t

namespace Meets

variable {M : Machine ι ω σ} {note : ι → σ → List μ} {C : Contract σ μ} {s : σ}

theorem done (a : α) : Meets M note C (.done a) s := Ensures.done (C.refl s)

theorem stuck : Meets M note C (.stuck : Program ι ω α) s := Ensures.stuck

theorem command {c : ι} (h : C.Rel s (note c s) (M.step c s)) :
    Meets M note C (Program.command c) s := Ensures.command h

theorem bind {m : Program ι ω α} {f : α → Program ι ω β} (hm : Meets M note C m s)
    (hf : ∀ a t, m.run M s = some (a, t) → Meets M note C (f a) t) :
    Meets M note C (m >>= f) s :=
  Ensures.bind fun a t hrun ↦ (hf a t hrun).mono fun _ _ _ hrel ↦ C.trans (hm hrun) hrel

/-- A program all of whose commands meet the contract meets it. -/
theorem of_commands (h : ∀ c s, C.Rel s (note c s) (M.step c s)) (m : Program ι ω α) :
    Meets M note C m s := by
  induction m generalizing s with
  | done a => exact done a
  | look k ih => exact fun _ _ hrun ↦ ih _ hrun
  | exec c k ih => exact bind (command (h c s)) fun _ _ _ ↦ ih
  | stuck => exact stuck

end Meets

end Log

/-! ## What holds at every command

An assertion about the commands of a run, finished or not, and about its end. -/

/-- Every command of the run of `m` from `s` is issued where `I` holds of it. -/
def Always (M : Machine ι ω σ) (I : ι → σ → Prop) : Program ι ω α → σ → Prop
  | .done _, _ => True
  | .look k, s => (k (M.see s)).Always M I s
  | .exec c k, s => I c s ∧ k.Always M I (M.step c s)
  | .stuck, _ => True

/-- The commands of the run of `m` from `s` satisfy `I`, and its end satisfies `Q`. -/
structure Assures (M : Machine ι ω σ) (I : ι → σ → Prop) (m : Program ι ω α) (s : σ)
    (Q : α → σ → Prop) : Prop where
  always : m.Always M I s
  ends : ∀ {a t}, m.run M s = some (a, t) → Q a t

/-- The state in which the `n`-th command is issued. -/
theorem Always.at {M : Machine ι ω σ} {I : ι → σ → Prop} {m : Program ι ω α} {s : σ}
    (h : m.Always M I s) {n : Nat} {c : ι} (hc : (m.trace M s)[n]? = some c) :
    I c (M.execute ((m.trace M s).take n) s) := by
  induction m generalizing s n with
  | done a => cases hc
  | look k ih => exact ih _ h hc
  | exec d k ih =>
    cases n with
    | zero =>
      obtain rfl := Option.some.inj hc
      exact h.1
    | succ n => exact ih h.2 hc
  | stuck => cases hc

/-- What holds of the commands wherever they are issued. -/
theorem Always.of_mem_trace {M : Machine ι ω σ} {I : ι → Prop} {m : Program ι ω α} {s : σ}
    (h : m.Always M (fun c _ ↦ I c) s) {c : ι} (hc : c ∈ m.trace M s) : I c := by
  obtain ⟨n, hn⟩ := List.getElem?_of_mem hc
  exact h.at hn

/-- An invariant of the commands that are issued where `I` holds. -/
theorem Always.invariant {M : Machine ι ω σ} {I : ι → σ → Prop} {m : Program ι ω α} {s : σ}
    (h : m.Always M I s) {J : List ι → σ → Prop} (hs : J [] s)
    (hstep : ∀ cs c t, I c t → J cs t → J (cs ++ [c]) (M.step c t)) (n : Nat) :
    J ((m.trace M s).take n) (M.execute ((m.trace M s).take n) s) := by
  induction n with
  | zero => exact hs
  | succ n ih =>
    cases hc : (m.trace M s)[n]? with
    | none =>
      rw [List.take_of_length_le (Nat.le_succ_of_le (List.getElem?_eq_none_iff.1 hc))]
      rwa [List.take_of_length_le (List.getElem?_eq_none_iff.1 hc)] at ih
    | some c =>
      rw [List.take_add_one, hc, Option.toList_some, M.execute_append]
      exact hstep _ c _ (h.at hc) ih

namespace Assures

variable {M : Machine ι ω σ} {I : ι → σ → Prop} {s : σ} {Q : α → σ → Prop}

theorem mono {m : Program ι ω α} {R : α → σ → Prop} (h : Assures M I m s Q)
    (hQR : ∀ a t, Q a t → R a t) : Assures M I m s R :=
  ⟨h.always, fun hrun ↦ hQR _ _ (h.ends hrun)⟩

theorem done {a : α} (h : Q a s) : Assures M I (.done a) s Q := by
  refine ⟨trivial, fun hrun ↦ ?_⟩
  obtain ⟨rfl, rfl⟩ := Prod.mk.inj (Option.some.inj hrun)
  exact h

theorem stuck : Assures M I (.stuck : Program ι ω α) s Q :=
  ⟨trivial, fun hrun ↦ nomatch hrun⟩

theorem look {k : ω → Program ι ω α} (h : Assures M I (k (M.see s)) s Q) :
    Assures M I (.look k) s Q := ⟨h.always, h.ends⟩

theorem bind {m : Program ι ω β} {f : β → Program ι ω α}
    (h : Assures M I m s fun b t ↦ Assures M I (f b) t Q) : Assures M I (m >>= f) s Q := by
  constructor
  · obtain ⟨halways, hends⟩ := h
    induction m generalizing s with
    | done b => exact (hends rfl).always
    | look k ih => exact ih _ halways hends
    | exec c k ih => exact ⟨halways.1, ih halways.2 hends⟩
    | stuck => trivial
  · intro a t hrun
    obtain ⟨⟨b, u⟩, hm, hf⟩ := (run_bind_eq_some M s).1 hrun
    exact (h.ends hm).ends hf

theorem command {c : ι} {Q : Unit → σ → Prop} (hI : I c s) (hQ : Q () (M.step c s)) :
    Assures M I (Program.command c) s Q := by
  refine ⟨⟨hI, trivial⟩, fun hrun ↦ ?_⟩
  obtain ⟨rfl, rfl⟩ := Prod.mk.inj (Option.some.inj hrun)
  exact hQ

/-- A part that only reads hands its value on. -/
theorem read_bind {m : Program ι ω β} {f : β → Program ι ω α} {b : β}
    (hrun : m.run M s = some (b, s)) (htrace : m.trace M s = []) (h : Assures M I (f b) s Q) :
    Assures M I (m >>= f) s Q := by
  induction m with
  | done c =>
    obtain ⟨rfl, -⟩ := Prod.mk.inj (Option.some.inj hrun)
    exact h
  | look k ih => exact look (ih _ hrun htrace)
  | exec c k => cases htrace
  | stuck => cases hrun

/-- What every command keeps, a program keeps. -/
theorem of_commands {J : σ → Prop} (hcommand : ∀ c s, J s → I c s ∧ J (M.step c s))
    (m : Program ι ω α) (hs : J s) : Assures M I m s fun _ t ↦ J t := by
  induction m generalizing s with
  | done a => exact done hs
  | look k ih => exact look (ih _ hs)
  | exec c k ih =>
    obtain ⟨hI, hJ⟩ := hcommand c s hs
    exact ⟨⟨hI, (ih hJ).always⟩, (ih hJ).ends⟩
  | stuck => exact stuck

theorem forM {J : σ → Prop} {f : γ → Program ι ω Unit} (cs : List γ)
    (hf : ∀ c ∈ cs, ∀ s, J s → Assures M I (f c) s fun _ t ↦ J t) (hs : J s) :
    Assures M I (cs.forM f) s fun _ t ↦ J t := by
  induction cs generalizing s with
  | nil => exact done hs
  | cons c cs ih =>
    refine bind ((hf c List.mem_cons_self s hs).mono fun _ t ht ↦ ?_)
    exact ih (fun d hd ↦ hf d (List.mem_cons_of_mem c hd)) ht

theorem lift {κ ν : Type} {M : Machine κ ν σ} {I : κ → σ → Prop} {f : ι → κ} {g : ν → ω}
    {m : Program ι ω α} (h : Assures (M.restrict f g) (fun c ↦ I (f c)) m s Q) :
    Assures M I (m.lift f g) s Q := by
  refine ⟨?_, fun hrun ↦ h.ends ((run_lift M f g m s).symm.trans hrun)⟩
  obtain ⟨halways, -⟩ := h
  induction m generalizing s with
  | done a => trivial
  | look k ih => exact ih _ halways
  | exec c k ih => exact ⟨halways.1, ih halways.2⟩
  | stuck => trivial

end Assures

/-! ## Two runs of one program -/

/-- Results that agree, with the states behind them related. -/
def Agree (R : σ → τ → Prop) : Option (α × σ) → Option (α × τ) → Prop
  | some (a, s), some (b, t) => a = b ∧ R s t
  | none, none => True
  | _, _ => False

/-- `m` on one machine and `n` on another finish together, with the same value. -/
def Related (M : Machine ι ω σ) (N : Machine κ ν τ) (R : σ → τ → Prop)
    (m : Program ι ω α) (n : Program κ ν α) : Prop :=
  ∀ ⦃s t⦄, R s t → Agree R (m.run M s) (n.run N t)

/-- Two machines that show the same and step in a related way run every program alike. -/
theorem run_related {M : Machine ι ω σ} {N : Machine ι ω τ} {R : σ → τ → Prop}
    (hsee : ∀ s t, R s t → M.see s = N.see t)
    (hstep : ∀ c s t, R s t → R (M.step c s) (N.step c t)) (m : Program ι ω α) :
    Related M N R m m := by
  induction m with
  | done a => exact fun s t hst ↦ ⟨rfl, hst⟩
  | look k ih =>
    intro s t hst
    rw [run_look, run_look, hsee s t hst]
    exact ih _ hst
  | exec c k ih => exact fun s t hst ↦ ih (hstep c s t hst)
  | stuck => exact fun _ _ _ ↦ trivial

/-- Related runs issue the same commands, and are related after each of them. -/
theorem trace_related {M : Machine ι ω σ} {N : Machine ι ω τ} {R : σ → τ → Prop}
    (hsee : ∀ s t, R s t → M.see s = N.see t)
    (hstep : ∀ c s t, R s t → R (M.step c s) (N.step c t)) (m : Program ι ω α) {s : σ} {t : τ}
    (hst : R s t) (n : Nat) :
    m.trace M s = m.trace N t ∧
      R (M.execute ((m.trace M s).take n) s) (N.execute ((m.trace N t).take n) t) := by
  induction m generalizing s t n with
  | done a => simpa [trace] using hst
  | look k ih =>
    rw [trace, trace, hsee s t hst]
    exact ih _ hst n
  | exec c k ih =>
    rw [trace, trace]
    cases n with
    | zero => exact ⟨by rw [(ih (hstep c s t hst) 0).1], hst⟩
    | succ n =>
      obtain ⟨htrace, hR⟩ := ih (hstep c s t hst) n
      exact ⟨by rw [htrace], hR⟩
  | stuck => simpa [trace] using hst

end Program

end Xpact.Library
