import Mathlib.Order.Lattice
import Xpact.Library.Reader

/-!
# Delivery by replay

A sender reads a growing stream again from its beginning in every pass, and hands on only what it has
not handed on before.  It numbers the messages of a pass, leaves out as many as it has delivered, and
keeps for each text how many letters of it are delivered, since the last text of a pass may be longer
in the next one.

Each pass is a cut of one stream.  What is delivered in all passes, with the pieces of a text put
together, is the longest of them (`HasDelivered.passes`).
-/

namespace Xpact.Library

/-! ## Messages -/

/-- A message is delivered at once, or letter by letter. -/
inductive Message (α κ τ : Type) where
  | whole (a : α)
  | text (kind : κ) (letters : List τ)

namespace Message

variable {α κ τ : Type} [DecidableEq κ]

/-- Adjacent texts of one kind are one text. -/
def joinTexts : Join (Message α κ τ) where
  join
    | .text kind letters, .text kind' more =>
      if kind = kind' then some (.text kind (letters ++ more)) else none
    | _, _ => none
  join_next := by
    intro d e f g h hde hef
    cases d <;> cases e <;> simp only [reduceCtorEq] at hde
    cases f <;> simp only [reduceCtorEq] at hef
    split at hde <;> simp only [reduceCtorEq, Option.some.injEq] at hde
    split at hef <;> simp only [reduceCtorEq, Option.some.injEq] at hef
    subst_vars
    simp only [if_true, List.append_assoc, Option.some.injEq, exists_eq_left']
  not_join_next := by
    intro d e f g hde hef
    cases d <;> cases e <;> simp only [reduceCtorEq] at hde
    split at hde <;> simp only [reduceCtorEq, Option.some.injEq] at hde
    subst_vars
    cases f with
    | whole a => rfl
    | text kind letters =>
      simp only [ite_eq_right_iff, reduceCtorEq, imp_false] at hef ⊢
      exact hef

theorem same_split (kind : κ) (letters more : List τ) (rest : List (Message α κ τ)) :
    joinTexts.Same (.text kind letters :: .text kind more :: rest)
      (.text kind (letters ++ more) :: rest) := by
  have hjoin : joinTexts.join (.text kind letters : Message α κ τ) (.text kind more) =
      some (.text kind (letters ++ more)) := if_pos rfl
  exact joinTexts.push_push hjoin (joinTexts.coalesce rest)

end Message

/-! ## Cuts -/

/-- `Cut c s`: the messages `c` are a beginning of the stream `s`, whose last text may be cut. -/
inductive Cut {α κ τ : Type} : List (Message α κ τ) → List (Message α κ τ) → Prop where
  | nil (s : List (Message α κ τ)) : Cut [] s
  | text (kind : κ) (letters more : List τ) (s : List (Message α κ τ)) :
      Cut [.text kind letters] (.text kind (letters ++ more) :: s)
  | cons (x : Message α κ τ) {c s : List (Message α κ τ)} (h : Cut c s) : Cut (x :: c) (x :: s)

namespace Cut

variable {α κ τ : Type} {c d s : List (Message α κ τ)}

theorem refl (s : List (Message α κ τ)) : Cut s s := by
  induction s with
  | nil => exact .nil []
  | cons x s ih => exact .cons x ih

theorem length_le (h : Cut c s) : c.length ≤ s.length := by
  induction h with
  | nil s => exact Nat.zero_le _
  | text kind letters more s => simp
  | cons x h ih => simpa using ih

theorem eq_nil (h : Cut c []) : c = [] := by
  cases h
  rfl

theorem trans (hcd : Cut c d) (hds : Cut d s) : Cut c s := by
  induction hcd generalizing s with
  | nil d => exact .nil s
  | text kind letters more d =>
    cases hds with
    | text kind _ more' s =>
      rw [List.append_assoc]
      exact .text kind letters (more ++ more') s
    | cons _ h => exact .text kind letters more _
  | cons x h ih =>
    cases hds with
    | text kind letters more s =>
      cases h
      exact .text kind letters more s
    | cons _ hds => exact .cons x (ih hds)

theorem cases_cons {x : Message α κ τ} (h : Cut c (x :: s)) :
    c = [] ∨ (∃ kind letters more, x = .text kind (letters ++ more) ∧ c = [.text kind letters]) ∨
      ∃ d, c = x :: d ∧ Cut d s := by
  generalize hs : x :: s = t at h
  cases h with
  | nil => exact .inl rfl
  | text kind letters more s =>
    obtain ⟨rfl, -⟩ := List.cons.inj hs
    exact .inr (.inl ⟨kind, letters, more, rfl, rfl⟩)
  | cons y h =>
    obtain ⟨rfl, rfl⟩ := List.cons.inj hs
    exact .inr (.inr ⟨_, rfl, h⟩)

/-- Of two cuts of a stream, the shorter one without its last message is a cut of the other. -/
theorem of_shorter {x : Message α κ τ} (hc : Cut (c ++ [x]) s) (hd : Cut d s)
    (h : c.length < d.length) : Cut c d := by
  induction c generalizing d s with
  | nil => exact .nil d
  | cons y c ih =>
    cases s with
    | nil =>
      have hlength := hc.length_le
      simp at hlength
    | cons z s =>
      rw [List.length_cons] at h
      rcases hc.cases_cons with hnil | ⟨kind, letters, more, -, hsingle⟩ | ⟨c', hcons, hc'⟩
      · cases hnil
      · have hlength := congrArg List.length hsingle
        rw [List.length_append, List.length_cons, List.length_singleton, List.length_singleton]
          at hlength
        omega
      · obtain ⟨rfl, rfl⟩ := List.cons.inj hcons
        rcases hd.cases_cons with rfl | ⟨kind, letters, more, -, rfl⟩ | ⟨d, rfl, hd'⟩
        · cases h
        · rw [List.length_singleton] at h
          omega
        · rw [List.length_cons] at h
          exact .cons y (ih hc' hd' (by omega))

/-- A beginning of a list is a cut of it. -/
theorem of_isPrefix (h : c <+: s) : Cut c s := by
  obtain ⟨rest, rfl⟩ := h
  induction c with
  | nil => exact .nil _
  | cons x c ih => exact .cons x ih

theorem of_append {x : List (Message α κ τ)} (h : Cut (c ++ x) s) : Cut c s :=
  (of_isPrefix (List.prefix_append c x)).trans h

end Cut

/-! ## Senders -/

structure Sender (κ : Type) where
  /-- How many messages of this pass have come. -/
  seen : Nat
  /-- How many messages were delivered before this pass. -/
  skip : Nat
  /-- How many letters of a text have been delivered, by its kind and its number. -/
  sent : κ → Nat → Nat

namespace Sender

variable {α κ τ : Type}

/-- The texts among `c`, the messages after the first `n`, are kept with their lengths. -/
def Remembers (sent : κ → Nat → Nat) : Nat → List (Message α κ τ) → Prop
  | _, [] => True
  | n, .whole _ :: c => Remembers sent (n + 1) c
  | n, .text kind letters :: c => sent kind (n + 1) = letters.length ∧ Remembers sent (n + 1) c

theorem Remembers.tail {sent : κ → Nat → Nat} {n : Nat} {x : Message α κ τ}
    {c : List (Message α κ τ)} (h : Remembers sent n (x :: c)) : Remembers sent (n + 1) c := by
  cases x with
  | whole a => exact h
  | text kind letters => exact h.2

theorem Remembers.head {sent : κ → Nat → Nat} {n : Nat} {x : Message α κ τ}
    {c : List (Message α κ τ)} (h : Remembers sent n (x :: c)) : Remembers sent n [x] := by
  cases x with
  | whole a => trivial
  | text kind letters => exact ⟨h.1, trivial⟩

theorem Remembers.congr {sent sent' : κ → Nat → Nat} {n : Nat} {c : List (Message α κ τ)}
    (h : Remembers sent n c) (heq : ∀ k i, n < i → sent' k i = sent k i) :
    Remembers sent' n c := by
  induction c generalizing n with
  | nil => trivial
  | cons x c ih =>
    have htail := ih h.tail fun k i hi ↦ heq k i (by omega)
    cases x with
    | whole a => exact htail
    | text kind letters => exact ⟨(heq kind (n + 1) (by omega)).trans h.1, htail⟩

variable [DecidableEq κ]

/-- Take over that `count` letters of the text `i` are delivered. -/
def record (s : Sender κ) (kind : κ) (i count : Nat) : Sender κ :=
  { s with sent := fun k j ↦ if k = kind ∧ j = i then count else s.sent k j }

/-- The next message of a pass: what is delivered of it. -/
def send (s : Sender κ) (x : Message α κ τ) : Sender κ × List (Message α κ τ) :=
  let i := s.seen + 1
  let next := { s with seen := i }
  match x with
  | .whole a => (next, if i ≤ s.skip then [] else [.whole a])
  | .text kind letters =>
    if i ≤ s.skip then
      if s.sent kind i < letters.length then
        (next.record kind i letters.length, [.text kind (letters.drop (s.sent kind i))])
      else
        (next, [])
    else
      (next.record kind i letters.length, [.text kind letters])

/-- The messages of a pass. -/
def run (s : Sender κ) : List (Message α κ τ) → Sender κ × List (Message α κ τ)
  | [] => (s, [])
  | x :: xs =>
    ((s.send x).1.run xs |>.1, (s.send x).2 ++ ((s.send x).1.run xs).2)

/-- A whole pass; what it delivers is left out in the next one. -/
def pass (s : Sender κ) (xs : List (Message α κ τ)) : Sender κ × List (Message α κ τ) :=
  let r := { s with seen := 0 }.run xs
  ({ r.1 with skip := max r.1.skip r.1.seen }, r.2)

/-- Several passes, and everything they deliver. -/
def passes (s : Sender κ) : List (List (Message α κ τ)) → Sender κ × List (Message α κ τ)
  | [] => (s, [])
  | p :: ps => ((s.pass p).1.passes ps |>.1, (s.pass p).2 ++ ((s.pass p).1.passes ps).2)

@[simp] theorem run_nil (s : Sender κ) : s.run ([] : List (Message α κ τ)) = (s, []) := rfl

@[simp] theorem run_cons (s : Sender κ) (x : Message α κ τ) (xs : List (Message α κ τ)) :
    s.run (x :: xs) = ((s.send x).1.run xs |>.1, (s.send x).2 ++ ((s.send x).1.run xs).2) := rfl

theorem record_sent_self (s : Sender κ) (kind : κ) (i count : Nat) :
    (s.record kind i count).sent kind i = count := if_pos ⟨rfl, rfl⟩

theorem record_sent_of_ne (s : Sender κ) (kind k : κ) {i j : Nat} (count : Nat) (h : j ≠ i) :
    (s.record kind i count).sent k j = s.sent k j := if_neg fun heq ↦ h heq.2

section

variable {s : Sender κ} {kind : κ} {letters : List τ}

/-- The rest of a text that is longer than before. -/
theorem send_text_more (hold : s.seen + 1 ≤ s.skip)
    (hmore : s.sent kind (s.seen + 1) < letters.length) :
    s.send (.text kind letters : Message α κ τ) =
      ({ s with seen := s.seen + 1 }.record kind (s.seen + 1) letters.length,
        [.text kind (letters.drop (s.sent kind (s.seen + 1)))]) := by
  simp only [send, if_pos hold, if_pos hmore]

theorem send_text_less (hold : s.seen + 1 ≤ s.skip)
    (hless : ¬s.sent kind (s.seen + 1) < letters.length) :
    s.send (.text kind letters : Message α κ τ) = ({ s with seen := s.seen + 1 }, []) := by
  simp only [send, if_pos hold, if_neg hless]

theorem send_text_new (hnew : ¬s.seen + 1 ≤ s.skip) :
    s.send (.text kind letters : Message α κ τ) =
      ({ s with seen := s.seen + 1 }.record kind (s.seen + 1) letters.length,
        [.text kind letters]) := by
  simp only [send, if_neg hnew]

end

@[simp] theorem send_seen (s : Sender κ) (x : Message α κ τ) : (s.send x).1.seen = s.seen + 1 := by
  cases x with
  | whole a => rfl
  | text kind letters =>
    simp only [send]
    split
    · split <;> rfl
    · rfl

@[simp] theorem send_skip (s : Sender κ) (x : Message α κ τ) : (s.send x).1.skip = s.skip := by
  cases x with
  | whole a => rfl
  | text kind letters =>
    simp only [send]
    split
    · split <;> rfl
    · rfl

/-- A message changes what is kept of its own number only. -/
theorem send_sent_of_ne (s : Sender κ) (x : Message α κ τ) (k : κ) {j : Nat} (h : j ≠ s.seen + 1) :
    (s.send x).1.sent k j = s.sent k j := by
  cases x with
  | whole a => rfl
  | text kind letters =>
    simp only [send]
    split
    · split
      · exact record_sent_of_ne _ kind k _ h
      · rfl
    · exact record_sent_of_ne _ kind k _ h

/-! ## What is remembered in a pass -/

/-- What follows the next message is remembered as before. -/
theorem Remembers.send {s : Sender κ} {c : List (Message α κ τ)}
    (h : Remembers s.sent (s.seen + 1) c) (x : Message α κ τ) :
    Remembers (s.send x).1.sent (s.send x).1.seen c := by
  rw [send_seen]
  exact h.congr fun k i hi ↦ send_sent_of_ne s x k (by omega)

/-- A run changes what is kept of the messages it reads only. -/
theorem run_sent_of_le (s : Sender κ) (xs : List (Message α κ τ)) (k : κ) {j : Nat}
    (h : j ≤ s.seen) : (s.run xs).1.sent k j = s.sent k j := by
  induction xs generalizing s with
  | nil => rfl
  | cons x xs ih =>
    have hle : j ≤ (s.send x).1.seen := by
      rw [send_seen]
      omega
    exact (ih (s.send x).1 hle).trans (send_sent_of_ne s x k (by omega))

@[simp] theorem run_seen (s : Sender κ) (xs : List (Message α κ τ)) :
    (s.run xs).1.seen = s.seen + xs.length := by
  induction xs generalizing s with
  | nil => rfl
  | cons x xs ih =>
    rw [run_cons, ih, send_seen, List.length_cons]
    omega

@[simp] theorem run_skip (s : Sender κ) (xs : List (Message α κ τ)) :
    (s.run xs).1.skip = s.skip := by
  induction xs generalizing s with
  | nil => rfl
  | cons x xs ih => rw [run_cons, ih, send_skip]

/-! ## One message -/

section

variable {s : Sender κ} {c : List (Message α κ τ)}

/-- A message that no pass has delivered is delivered as it is. -/
theorem send_fresh (h : s.skip ≤ s.seen) (x : Message α κ τ) :
    (s.send x).2 = [x] ∧ Remembers (s.send x).1.sent s.seen [x] := by
  have hnew : ¬s.seen + 1 ≤ s.skip := by omega
  cases x with
  | whole a => exact ⟨if_neg hnew, trivial⟩
  | text kind letters =>
    simp only [send, if_neg hnew]
    exact ⟨trivial, record_sent_self _ _ _ _, trivial⟩

/-- Nothing of a message that has been delivered in full is delivered again. -/
theorem send_delivered (h : s.seen + 1 ≤ s.skip) {x : Message α κ τ}
    (hrem : Remembers s.sent s.seen [x]) :
    (s.send x).2 = [] ∧ Remembers (s.send x).1.sent s.seen [x] := by
  cases x with
  | whole a => exact ⟨if_pos h, trivial⟩
  | text kind letters =>
    have hlength : ¬s.sent kind (s.seen + 1) < letters.length := by
      rw [hrem.1]
      omega
    simp only [send, if_pos h, if_neg hlength]
    exact ⟨trivial, hrem⟩

/-- Of a text that has been delivered in part the rest is delivered. -/
theorem send_longer (more : List τ) (h : s.seen + 1 ≤ s.skip) {kind : κ} {letters : List τ}
    (hrem : Remembers s.sent s.seen [(.text kind letters : Message α κ τ)]) :
    Message.joinTexts.Same (.text kind letters :: (s.send (.text kind (letters ++ more))).2)
        [(.text kind (letters ++ more) : Message α κ τ)] ∧
      Remembers (s.send (.text kind (letters ++ more) : Message α κ τ)).1.sent s.seen
        [(.text kind (letters ++ more) : Message α κ τ)] := by
  have hlength : s.sent kind (s.seen + 1) = letters.length := hrem.1
  cases more with
  | nil =>
    rw [List.append_nil]
    obtain ⟨hout, hkeeps⟩ := send_delivered h hrem
    rw [hout]
    exact ⟨.refl _, hkeeps⟩
  | cons t more =>
    have hmore : letters.length < (letters ++ t :: more).length := by
      rw [List.length_append, List.length_cons]
      omega
    simp only [send, if_pos h, hlength, if_pos hmore, List.drop_left]
    exact ⟨Message.same_split kind letters (t :: more) [], record_sent_self _ _ _ _, trivial⟩

/-- Of a text that is shorter than what has been delivered nothing is delivered. -/
theorem send_shorter (h : s.seen + 1 ≤ s.skip) {kind : κ} {letters more : List τ}
    (hrem : Remembers s.sent s.seen [(.text kind (letters ++ more) : Message α κ τ)]) :
    (s.send (.text kind letters : Message α κ τ)).2 = [] ∧
      (s.send (.text kind letters : Message α κ τ)).1.sent = s.sent := by
  have hlength : ¬s.sent kind (s.seen + 1) < letters.length := by
    rw [hrem.1, List.length_append]
    omega
  simp only [send, if_pos h, if_neg hlength, and_self]

end

/-! ## One pass -/

/-- What a pass over `p` leaves of a sender that has delivered `c`: the longer one is delivered. -/
structure Delivers (s : Sender κ) (p c d : List (Message α κ τ)) : Prop where
  longer : d = p ∧ Cut c p ∨ d = c ∧ Cut p c
  remembers : Remembers (s.run p).1.sent s.seen d
  same : Message.joinTexts.Same (c ++ (s.run p).2) d

/-- The longer one goes beyond the other. -/
theorem Delivers.longer_cut {s : Sender κ} {p c d : List (Message α κ τ)} (h : s.Delivers p c d) :
    d = p ∧ Cut c d ∨ d = c ∧ Cut p d := by
  rcases h.longer with ⟨rfl, hcut⟩ | ⟨rfl, hcut⟩
  · exact .inl ⟨rfl, hcut⟩
  · exact .inr ⟨rfl, hcut⟩

/-- A run after the first message keeps what is remembered of it. -/
theorem remembers_cons {s : Sender κ} {x : Message α κ τ} {p d : List (Message α κ τ)}
    (hx : Remembers (s.send x).1.sent s.seen [x])
    (hd : Remembers (s.run (x :: p)).1.sent (s.seen + 1) d) :
    Remembers (s.run (x :: p)).1.sent s.seen (x :: d) := by
  cases x with
  | whole a => exact hd
  | text kind letters =>
    refine ⟨?_, hd⟩
    rw [run_cons, run_sent_of_le _ p kind (by rw [send_seen])]
    exact hx.1

/-- After the first message, which both the pass and what is delivered begin with. -/
theorem Delivers.cons {s : Sender κ} {x : Message α κ τ} {p c d : List (Message α κ τ)}
    (hsend : (s.send x).2 = [] ∧ Remembers (s.send x).1.sent s.seen [x])
    (h : (s.send x).1.Delivers p c d) : s.Delivers (x :: p) (x :: c) (x :: d) where
  longer := by
    cases h.longer with
    | inl hp => exact .inl ⟨congrArg (x :: ·) hp.1, .cons x hp.2⟩
    | inr hc => exact .inr ⟨congrArg (x :: ·) hc.1, .cons x hc.2⟩
  remembers := by
    have htail := h.remembers
    rw [send_seen] at htail
    exact remembers_cons hsend.2 htail
  same := by
    rw [run_cons, hsend.1, List.nil_append, List.cons_append]
    exact h.same.append_left [x]

/-- The sender has delivered nothing of what comes now. -/
theorem exists_delivers_fresh {s : Sender κ} (hskip : s.skip ≤ s.seen) (p : List (Message α κ τ)) :
    s.Delivers p [] p := by
  induction p generalizing s with
  | nil => exact ⟨.inl ⟨rfl, .nil _⟩, trivial, .refl _⟩
  | cons x p ih =>
    have hsend := send_fresh hskip x
    have htail := ih (s := (s.send x).1) (by rw [send_skip, send_seen]; omega)
    refine ⟨.inl ⟨rfl, .nil _⟩, ?_, ?_⟩
    · have hrest := htail.remembers
      rw [send_seen] at hrest
      exact remembers_cons hsend.2 hrest
    · rw [run_cons, hsend.1]
      exact htail.same.append_left [x]

theorem delivers_nil {s : Sender κ} {c : List (Message α κ τ)} (hrem : Remembers s.sent s.seen c) :
    s.Delivers [] c c := by
  refine ⟨.inr ⟨rfl, .nil c⟩, hrem, ?_⟩
  rw [run_nil, List.append_nil]
  exact .refl c

/-- The pass begins with a text that has been delivered in part, and is the last one so far. -/
theorem delivers_longer {s : Sender κ} {kind : κ} {letters more : List τ}
    (hskip : s.skip = s.seen + 1)
    (hrem : Remembers s.sent s.seen [(.text kind letters : Message α κ τ)])
    (p : List (Message α κ τ)) :
    s.Delivers (.text kind (letters ++ more) :: p) [.text kind letters]
      (.text kind (letters ++ more) :: p) := by
  have hsend := send_longer more (by omega) hrem
  have htail := exists_delivers_fresh
    (s := (s.send (.text kind (letters ++ more) : Message α κ τ)).1)
    (by rw [send_skip, send_seen, hskip]) p
  refine ⟨.inl ⟨rfl, .text kind letters more p⟩, ?_, ?_⟩
  · have hrest := htail.remembers
    rw [send_seen] at hrest
    exact remembers_cons hsend.2 hrest
  · rw [run_cons]
    exact hsend.1.append htail.same

/-- The pass ends in a text of which more has been delivered. -/
theorem delivers_shorter {s : Sender κ} {kind : κ} {letters more : List τ}
    {c : List (Message α κ τ)} (hskip : s.seen + 1 ≤ s.skip)
    (hrem : Remembers s.sent s.seen (.text kind (letters ++ more) :: c)) :
    s.Delivers [.text kind letters] (.text kind (letters ++ more) :: c)
      (.text kind (letters ++ more) :: c) := by
  obtain ⟨hout, hsent⟩ := send_shorter hskip hrem.head
  refine ⟨.inr ⟨rfl, .text kind letters more c⟩, ?_, ?_⟩
  · show Remembers (s.send (.text kind letters : Message α κ τ)).1.sent s.seen _
    rw [hsent]
    exact hrem
  · rw [run_cons, hout, run_nil, List.append_nil, List.append_nil]
    exact .refl _

/-- A pass delivers what goes beyond the messages that have been delivered. -/
theorem exists_delivers {t p c : List (Message α κ τ)} (hp : Cut p t) (hc : Cut c t) (s : Sender κ)
    (hskip : s.skip - s.seen = c.length) (hrem : Remembers s.sent s.seen c) :
    ∃ d, s.Delivers p c d := by
  induction t generalizing p c s with
  | nil =>
    cases hp
    cases hc
    exact ⟨[], delivers_nil hrem⟩
  | cons x t ih =>
    rcases hc.cases_cons with rfl | ⟨kind, letters, more, rfl, rfl⟩ | ⟨c, rfl, hc'⟩
    · rw [List.length_nil] at hskip
      exact ⟨p, exists_delivers_fresh (by omega) p⟩
    · rw [List.length_singleton] at hskip
      have hlast : s.skip = s.seen + 1 := by omega
      rcases hp.cases_cons with rfl | ⟨kind', letters', more', hsame, rfl⟩ | ⟨p, rfl, hp'⟩
      · exact ⟨_, delivers_nil hrem⟩
      · obtain ⟨rfl, hletters⟩ := Message.text.inj hsame
        cases List.append_eq_append_iff.1 hletters with
        | inl h =>
          obtain ⟨rest, rfl, -⟩ := h
          exact ⟨_, delivers_longer hlast hrem []⟩
        | inr h =>
          obtain ⟨rest, rfl, -⟩ := h
          exact ⟨_, delivers_shorter (by omega) hrem⟩
      · exact ⟨_, delivers_longer hlast hrem p⟩
    · rw [List.length_cons] at hskip
      have hold : s.seen + 1 ≤ s.skip := by omega
      rcases hp.cases_cons with rfl | ⟨kind, letters, more, rfl, rfl⟩ | ⟨p, rfl, hp'⟩
      · exact ⟨_, delivers_nil hrem⟩
      · exact ⟨_, delivers_shorter hold hrem⟩
      · obtain ⟨d, hd⟩ := ih hp' hc' (s.send x).1 (by rw [send_skip, send_seen]; omega)
          (hrem.tail.send x)
        exact ⟨x :: d, hd.cons (send_delivered hold hrem.head)⟩

/-! ## The last message of a pass -/

theorem run_append (s : Sender κ) (p q : List (Message α κ τ)) :
    s.run (p ++ q) = ((s.run p).1.run q |>.1, (s.run p).2 ++ ((s.run p).1.run q).2) := by
  induction p generalizing s with
  | nil => rfl
  | cons x p ih => rw [List.cons_append, run_cons, ih, run_cons, List.append_assoc]

/-- A pass over what has been delivered delivers nothing. -/
theorem run_of_cut {p c : List (Message α κ τ)} (h : Cut p c) (s : Sender κ)
    (hskip : s.skip - s.seen = c.length) (hrem : Remembers s.sent s.seen c) :
    (s.run p).2 = [] := by
  induction h generalizing s with
  | nil c => rfl
  | text kind letters more c =>
    rw [List.length_cons] at hskip
    rw [run_cons, (send_shorter (by omega) hrem.head).1]
    rfl
  | @cons x p c h ih =>
    rw [List.length_cons] at hskip
    rw [run_cons, (send_delivered (by omega) hrem.head).1, List.nil_append]
    exact ih (s.send x).1 (by rw [send_skip, send_seen]; omega) (hrem.tail.send x)

/-- A pass that delivers anything delivers its last message, or the rest of it. -/
theorem send_last_ne_nil {t c front : List (Message α κ τ)} {x : Message α κ τ}
    (hp : Cut (front ++ [x]) t) (hc : Cut c t) (s : Sender κ)
    (hskip : s.skip - s.seen = c.length) (hrem : Remembers s.sent s.seen c)
    (h : (s.run (front ++ [x])).2 ≠ []) : ((s.run front).1.send x).2 ≠ [] := by
  by_cases hlength : c.length ≤ front.length
  · rw [(send_fresh (by rw [run_skip, run_seen]; omega) x).1]
    exact List.cons_ne_nil x []
  · have hfront : Cut front c := hp.of_shorter hc (by omega)
    rw [run_append, run_of_cut hfront s hskip hrem, List.nil_append, run_cons, run_nil,
      List.append_nil] at h
    exact h

/-! ## Many passes -/

/-- A sender that has delivered `c`. -/
structure HasDelivered (s : Sender κ) (c : List (Message α κ τ)) : Prop where
  skip : s.skip = c.length
  remembers : Remembers s.sent 0 c

/-- Among what was delivered before and the messages of the pass, the sender has delivered the longer
one. -/
theorem HasDelivered.pass {t p c : List (Message α κ τ)} {s : Sender κ} (hs : s.HasDelivered c)
    (hp : Cut p t) (hc : Cut c t) :
    ∃ d, (d = p ∧ Cut c p ∨ d = c ∧ Cut p c) ∧ (s.pass p).1.HasDelivered d ∧
      Message.joinTexts.Same (c ++ (s.pass p).2) d := by
  obtain ⟨d, hd⟩ := exists_delivers hp hc { s with seen := 0 } hs.skip hs.remembers
  refine ⟨d, hd.longer, ⟨?_, hd.remembers⟩, hd.same⟩
  have hseen := run_seen { s with seen := 0 } p
  have hskip := run_skip { s with seen := 0 } p
  show max _ _ = d.length
  rw [hseen, hskip, hs.skip, Nat.zero_add]
  rcases hd.longer with ⟨rfl, hcut⟩ | ⟨rfl, hcut⟩
  · exact Nat.max_eq_right hcut.length_le
  · exact Nat.max_eq_left hcut.length_le

/-- After passes over cuts of one stream the sender has delivered the longest of them, once. -/
theorem HasDelivered.passes {t c : List (Message α κ τ)} {s : Sender κ} (hs : s.HasDelivered c)
    (hc : Cut c t) (ps : List (List (Message α κ τ))) (hps : ∀ p ∈ ps, Cut p t) :
    ∃ d ∈ c :: ps, (∀ p ∈ c :: ps, Cut p d) ∧ (s.passes ps).1.HasDelivered d ∧
      Message.joinTexts.Same (c ++ (s.passes ps).2) d := by
  induction ps generalizing c s with
  | nil =>
    refine ⟨c, List.mem_singleton_self c, fun p hp ↦ ?_, hs, ?_⟩
    · rw [List.mem_singleton] at hp
      subst hp
      exact .refl p
    · rw [Sender.passes, List.append_nil]
      exact .refl c
  | cons p ps ih =>
    obtain ⟨e, he, hpass, hsame⟩ := hs.pass (hps p List.mem_cons_self) hc
    have het : Cut e t := by
      rcases he with ⟨rfl, -⟩ | ⟨rfl, -⟩
      · exact hps e List.mem_cons_self
      · exact hc
    obtain ⟨d, hd, hlongest, hdelivered, hrest⟩ :=
      ih hpass het fun q hq ↦ hps q (List.mem_cons_of_mem p hq)
    have hed : Cut e d := hlongest e List.mem_cons_self
    refine ⟨d, ?_, ?_, hdelivered, ?_⟩
    · rcases he with ⟨rfl, -⟩ | ⟨rfl, -⟩
      · exact List.mem_cons_of_mem c hd
      · rw [List.mem_cons] at hd ⊢
        exact hd.imp_right (List.mem_cons_of_mem p)
    · intro q hq
      rw [List.mem_cons, List.mem_cons] at hq
      rcases hq with rfl | rfl | hq
      · rcases he with ⟨rfl, hcut⟩ | ⟨rfl, -⟩
        · exact hcut.trans hed
        · exact hed
      · rcases he with ⟨rfl, -⟩ | ⟨rfl, hcut⟩
        · exact hed
        · exact hcut.trans hed
      · exact hlongest q (List.mem_cons_of_mem e hq)
    · show Message.joinTexts.Same (c ++ ((s.pass p).2 ++ ((s.pass p).1.passes ps).2)) d
      rw [← List.append_assoc]
      exact (hsame.append (.refl _)).trans hrest

end Sender

end Xpact.Library
