import Mathlib.Data.List.Basic

/-!
# Readers of a stream

A reader takes symbols off the front of what has arrived, and waits when they do not decide what to
do.  It is stable in some states when more symbols never change a decision made there; then it makes
no difference in which pieces the stream arrives (`Reads.of_chunks`).

A reader that reports the same thing in fewer and longer pieces coarsens another one.  It need not be
stable, but up to the pieces it reports what the finer one does (`Coarsens.chunks`).
-/

namespace Xpact.Library

variable {σ β ε : Type}

/-! ## Pieces of an output -/

/-- A partial operation that joins an item to the one before it.  Whether a joined item can be joined
to the next one is decided by its last part. -/
structure Join (ε : Type) where
  join : ε → ε → Option ε
  join_next : ∀ {d e f g h}, join d e = some g → join e f = some h →
    ∃ k, join g f = some k ∧ join d h = some k
  not_join_next : ∀ {d e f g}, join d e = some g → join e f = none → join g f = none

namespace Join

variable (J : Join ε)

/-- Put an item in front of items, and join it to the first one when that is possible. -/
def push (e : ε) : List ε → List ε
  | [] => [e]
  | f :: rest =>
    match J.join e f with
    | some g => g :: rest
    | none => e :: f :: rest

/-- Join all adjacent items that can be joined. -/
def coalesce : List ε → List ε
  | [] => []
  | e :: rest => J.push e (coalesce rest)

@[simp] theorem coalesce_cons (e : ε) (rest : List ε) :
    J.coalesce (e :: rest) = J.push e (J.coalesce rest) := rfl

theorem push_cons_of_join {e f g : ε} (h : J.join e f = some g) (rest : List ε) :
    J.push e (f :: rest) = g :: rest := by
  simp only [push, h]

theorem push_cons_of_not {e f : ε} (h : J.join e f = none) (rest : List ε) :
    J.push e (f :: rest) = e :: f :: rest := by
  simp only [push, h]

theorem push_ne_nil (e : ε) (rest : List ε) : J.push e rest ≠ [] := by
  cases rest with
  | nil => exact List.cons_ne_nil e []
  | cons f rest =>
    cases h : J.join e f with
    | some g => simp only [push, h, ne_eq, reduceCtorEq, not_false_iff]
    | none => simp only [push, h, ne_eq, reduceCtorEq, not_false_iff]

/-- Two items that can be joined may be joined before they are put in front. -/
theorem push_push {e f g : ε} (h : J.join e f = some g) (rest : List ε) :
    J.push e (J.push f rest) = J.push g rest := by
  cases rest with
  | nil => exact J.push_cons_of_join h []
  | cons d rest =>
    cases hfd : J.join f d with
    | none =>
      rw [J.push_cons_of_not hfd, J.push_cons_of_join h,
        J.push_cons_of_not (J.not_join_next h hfd)]
    | some k =>
      obtain ⟨l, hgd, hek⟩ := J.join_next h hfd
      rw [J.push_cons_of_join hfd, J.push_cons_of_join hek, J.push_cons_of_join hgd]

/-- Joining the items of a first part does not change how the whole is joined. -/
theorem coalesce_append_left (es fs : List ε) :
    J.coalesce (J.coalesce es ++ fs) = J.coalesce (es ++ fs) := by
  induction es with
  | nil => rfl
  | cons e es ih =>
    rw [List.cons_append, coalesce_cons, coalesce_cons, ← ih]
    cases hes : J.coalesce es with
    | nil => rfl
    | cons f rest =>
      rw [List.cons_append, coalesce_cons]
      cases hef : J.join e f with
      | none => rw [J.push_cons_of_not hef, List.cons_append, List.cons_append, coalesce_cons,
          coalesce_cons]
      | some g => rw [J.push_cons_of_join hef, List.cons_append, coalesce_cons, J.push_push hef]

/-- Outputs that are the same up to the pieces they come in. -/
def Same (es fs : List ε) : Prop := J.coalesce es = J.coalesce fs

variable {J} {es es' fs fs' gs : List ε}

theorem Same.refl (es : List ε) : J.Same es es := rfl

theorem Same.symm (h : J.Same es fs) : J.Same fs es := Eq.symm h

theorem Same.trans (h : J.Same es fs) (h' : J.Same fs gs) : J.Same es gs := Eq.trans h h'

theorem Same.eq_nil (h : J.Same es []) : es = [] := by
  cases es with
  | nil => rfl
  | cons e es => exact absurd h (J.push_ne_nil e _)

theorem Same.append_left (es : List ε) (h : J.Same fs fs') : J.Same (es ++ fs) (es ++ fs') := by
  induction es with
  | nil => exact h
  | cons e es ih => exact congrArg (J.push e) ih

theorem Same.append (h : J.Same es es') (h' : J.Same fs fs') :
    J.Same (es ++ fs) (es' ++ fs') := by
  calc J.coalesce (es ++ fs)
    _ = J.coalesce (es ++ fs') := Same.append_left es h'
    _ = J.coalesce (J.coalesce es ++ fs') := (J.coalesce_append_left es fs').symm
    _ = J.coalesce (J.coalesce es' ++ fs') := by rw [show J.coalesce es = J.coalesce es' from h]
    _ = J.coalesce (es' ++ fs') := J.coalesce_append_left es' fs'

end Join

/-! ## Readers -/

/-- What a reader does with the symbols that have arrived: how many it takes, what it reports, and
the state it goes on in. -/
structure Taken (σ ε : Type) where
  count : Nat
  out : List ε
  next : σ

structure Reader (σ β ε : Type) where
  step : σ → List β → Option (Taken σ ε)

namespace Reader

/-- The reader waits for more symbols. -/
def Waits (R : Reader σ β ε) (s : σ) (unread : List β) : Prop := R.step s unread = none

/-- The reader comes from a state and unread symbols to others, and reports `out` meanwhile. -/
inductive Reads (R : Reader σ β ε) : σ → List β → List ε → σ → List β → Prop where
  | refl (s : σ) (unread : List β) : Reads R s unread [] s unread
  | step {s t : σ} {k : Taken σ ε} {unread rest : List β} {out : List ε} :
      R.step s unread = some k → Reads R k.next (unread.drop k.count) out t rest →
        Reads R s unread (k.out ++ out) t rest

/-- What has been decided in a state of `P` stays decided when more symbols arrive. -/
structure Stable (R : Reader σ β ε) (P : σ → Prop) : Prop where
  count_le : ∀ {s unread k}, P s → R.step s unread = some k → k.count ≤ unread.length
  step_append : ∀ {s unread k}, P s → R.step s unread = some k → ∀ more,
    R.step s (unread ++ more) = some k
  next : ∀ {s unread k}, P s → R.step s unread = some k → P k.next

variable {R C : Reader σ β ε} {P : σ → Prop} {s t t' u : σ} {unread rest rest' : List β} {out out' : List ε}

theorem Reads.single {k : Taken σ ε} (h : R.step s unread = some k) :
    R.Reads s unread k.out k.next (unread.drop k.count) := by
  have hreads := Reads.step h (.refl k.next (unread.drop k.count))
  rwa [List.append_nil] at hreads

theorem Reads.trans (h : R.Reads s unread out t rest) (h' : R.Reads t rest out' u rest') :
    R.Reads s unread (out ++ out') u rest' := by
  induction h with
  | refl s unread => exact h'
  | step hstep _ ih =>
    rw [List.append_assoc]
    exact .step hstep (ih h')

/-- A stable reader reads on in the same way when more symbols have arrived. -/
theorem Reads.append (hstable : R.Stable P) (hs : P s) (h : R.Reads s unread out t rest)
    (more : List β) : R.Reads s (unread ++ more) out t (rest ++ more) := by
  induction h with
  | refl s unread => exact .refl s _
  | step hstep _ ih =>
    apply Reads.step (hstable.step_append hs hstep more)
    rw [List.drop_append_of_le_length (hstable.count_le hs hstep)]
    exact ih (hstable.next hs hstep)

theorem Reads.stays (hstable : R.Stable P) (hs : P s) (h : R.Reads s unread out t rest) : P t := by
  induction h with
  | refl s unread => exact hs
  | step hstep _ ih => exact ih (hstable.next hs hstep)

/-- A reader comes to one place only where it waits. -/
theorem Reads.unique (h : R.Reads s unread out t rest) (hwaits : R.Waits t rest)
    (h' : R.Reads s unread out' t' rest') (hwaits' : R.Waits t' rest') :
    out = out' ∧ t = t' ∧ rest = rest' := by
  induction h generalizing out' with
  | refl s unread =>
    cases h' with
    | refl => exact ⟨rfl, rfl, rfl⟩
    | step hstep => exact absurd (hwaits.symm.trans hstep) (Option.some_ne_none _).symm
  | step hstep _ ih =>
    cases h' with
    | refl => exact absurd (hwaits'.symm.trans hstep) (Option.some_ne_none _).symm
    | step hstep' hrest =>
      obtain rfl := Option.some.inj (hstep.symm.trans hstep')
      obtain ⟨rfl, hstate, hunread⟩ := ih hwaits hrest
      exact ⟨rfl, hstate, hunread⟩

/-- The symbols arrive in pieces, and the reader reads each as far as it can. -/
inductive ReadsChunks (R : Reader σ β ε) :
    σ → List β → List (List β) → List ε → σ → List β → Prop where
  | nil (s : σ) (unread : List β) : ReadsChunks R s unread [] [] s unread
  | cons {s t u : σ} {unread chunk rest rest' : List β} {chunks : List (List β)}
      {out out' : List ε} :
      R.Reads s (unread ++ chunk) out t rest → R.Waits t rest →
        ReadsChunks R t rest chunks out' u rest' →
          ReadsChunks R s unread (chunk :: chunks) (out ++ out') u rest'

/-- One more piece arrives. -/
theorem ReadsChunks.concat {chunks : List (List β)} {chunk : List β}
    (h : R.ReadsChunks s unread chunks out t rest)
    (hchunk : R.Reads t (rest ++ chunk) out' u rest') (hwaits : R.Waits u rest') :
    R.ReadsChunks s unread (chunks ++ [chunk]) (out ++ out') u rest' := by
  induction h with
  | nil s unread =>
    have hone := ReadsChunks.cons hchunk hwaits (.nil u rest')
    rwa [List.append_nil] at hone
  | cons hfirst hwaitsFirst _ ih =>
    rw [List.append_assoc]
    exact .cons hfirst hwaitsFirst (ih hchunk)

/-- A stable reader reads pieces as it reads them all at once. -/
theorem Reads.of_chunks (hstable : R.Stable P) {chunks : List (List β)} (hs : P s)
    (h : R.ReadsChunks s unread chunks out t rest) :
    R.Reads s (unread ++ chunks.flatten) out t rest := by
  induction h with
  | nil s unread =>
    rw [List.flatten_nil, List.append_nil]
    exact .refl s unread
  | cons hchunk _ _ ih =>
    rw [List.flatten_cons, ← List.append_assoc]
    exact (hchunk.append hstable hs _).trans (ih (hchunk.stays hstable hs))

/-! ## Coarser readers -/

/-- A step of the coarse reader is some steps of the fine one, which reports the same in smaller
pieces; and the coarse reader waits only where the fine one does. -/
structure Coarsens (J : Join ε) (C R : Reader σ β ε) : Prop where
  reads : ∀ {s unread k}, C.step s unread = some k →
    ∃ out, R.Reads s unread out k.next (unread.drop k.count) ∧ J.Same k.out out
  waits : ∀ {s unread}, C.Waits s unread → R.Waits s unread

namespace Coarsens

variable {J : Join ε} (h : Coarsens J C R)
include h

theorem reads_of_reads (hreads : C.Reads s unread out t rest) :
    ∃ fine, R.Reads s unread fine t rest ∧ J.Same out fine := by
  induction hreads with
  | refl s unread => exact ⟨[], .refl s unread, .refl []⟩
  | step hstep _ ih =>
    obtain ⟨first, hfirst, hsame⟩ := h.reads hstep
    obtain ⟨more, hmore, hsame'⟩ := ih
    exact ⟨first ++ more, hfirst.trans hmore, hsame.append hsame'⟩

theorem reads_of_chunks {chunks : List (List β)}
    (hchunks : C.ReadsChunks s unread chunks out t rest) :
    ∃ fine, R.ReadsChunks s unread chunks fine t rest ∧ J.Same out fine := by
  induction hchunks with
  | nil s unread => exact ⟨[], .nil s unread, .refl []⟩
  | cons hchunk hwaits _ ih =>
    obtain ⟨first, hfirst, hsame⟩ := h.reads_of_reads hchunk
    obtain ⟨more, hmore, hsame'⟩ := ih
    exact ⟨first ++ more, .cons hfirst (h.waits hwaits) hmore, hsame.append hsame'⟩

/-- However the symbols arrive, the coarse reader comes to the same place and reports the same. -/
theorem chunks (hstable : R.Stable P) {chunks : List (List β)} (hs : P s)
    (hchunks : C.ReadsChunks s unread chunks out t rest) (hwaits : C.Waits t rest)
    (hwhole : C.Reads s (unread ++ chunks.flatten) out' t' rest') (hwaits' : C.Waits t' rest') :
    J.Same out out' ∧ t = t' ∧ rest = rest' := by
  obtain ⟨fine, hfine, hsame⟩ := h.reads_of_chunks hchunks
  obtain ⟨fine', hfine', hsame'⟩ := h.reads_of_reads hwhole
  obtain ⟨rfl, hstate, hunread⟩ :=
    (Reads.of_chunks hstable hs hfine).unique (h.waits hwaits) hfine' (h.waits hwaits')
  exact ⟨hsame.trans hsame'.symm, hstate, hunread⟩

end Coarsens

end Reader

end Xpact.Library
