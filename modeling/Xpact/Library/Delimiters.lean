import Mathlib.Computability.Language

/-!
# Searching for a delimiter

A construct ends at the first character of some kind that is visible: not between quotes, and not in
a block with an opener and a closer of its own, such as a comment.  `scan` reads a text once, from
left to right.  `Covers` says that it reads a whole piece without finding the end, whatever follows,
and that it does not find the end either when the text stops within the piece; pieces that are
covered can be put one after the other, so a whole language of pieces is covered when the parts of
its grammar are (`CoversAll`).
-/

namespace Xpact.Library

open Computability

/-- What a search needs to know.  In state `s` the blocks are those of `blocks s`, each an opener
with its closer, and a visible character `c` is the end when `next s c` is `none`. -/
structure Delimiters (α σ : Type) where
  isQuote : α → Bool
  blocks : σ → List (List α × List α)
  next : σ → α → Option σ

inductive ScanMode (α : Type) where
  | visible
  | quoted (quote : α)
  | block (closer : List α)

namespace Delimiters

/-! ## Where a closer occurs -/

section

variable {α : Type}

/-- `closer` first occurs in `body ++ closer` at the end. -/
def Hides (closer body : List α) : Prop :=
  ∀ k, k < body.length → ¬ closer <+: (body ++ closer).drop k

/-- `closer` begins nowhere in `body`, whatever follows. -/
def Avoids (closer body : List α) : Prop :=
  ∀ k, k < body.length → ∀ rest, ¬ closer <+: body.drop k ++ rest

theorem hides_nil (closer : List α) : Hides closer ([] : List α) :=
  fun _ hk ↦ absurd hk (Nat.not_lt_zero _)

theorem avoids_nil (closer : List α) : Avoids closer ([] : List α) :=
  fun _ hk ↦ absurd hk (Nat.not_lt_zero _)

theorem Avoids.append_hides {closer u v : List α} (hu : Avoids closer u) (hv : Hides closer v) :
    Hides closer (u ++ v) := by
  intro k hk hpre
  by_cases h : k < u.length
  · apply hu k h (v ++ closer)
    rwa [List.append_assoc, List.drop_append_of_le_length (by omega)] at hpre
  · rw [List.length_append] at hk
    apply hv (k - u.length) (by omega)
    rwa [List.append_assoc, List.drop_append, List.drop_eq_nil_of_le (by omega),
      List.nil_append] at hpre

theorem Avoids.append {closer u v : List α} (hu : Avoids closer u) (hv : Avoids closer v) :
    Avoids closer (u ++ v) := by
  intro k hk rest hpre
  by_cases h : k < u.length
  · apply hu k h (v ++ rest)
    rwa [List.drop_append_of_le_length (by omega), List.append_assoc] at hpre
  · rw [List.length_append] at hk
    apply hv (k - u.length) (by omega) rest
    rwa [List.drop_append, List.drop_eq_nil_of_le (by omega), List.nil_append] at hpre

theorem Avoids.hides {closer body : List α} (h : Avoids closer body) : Hides closer body := by
  have happend := h.append_hides (hides_nil closer)
  rwa [List.append_nil] at happend

/-- A character that `closer` does not begin with. -/
theorem avoids_of_forall_ne {closer body : List α} {c : α} (hcloser : closer.head? = some c)
    (h : c ∉ body) : Avoids closer body := by
  intro k hk rest hpre
  obtain ⟨tail, rfl⟩ : ∃ tail, closer = c :: tail := by
    cases closer with
    | nil => cases hcloser
    | cons d tail => exact ⟨tail, by rw [Option.some.inj hcloser]⟩
  rw [List.drop_eq_getElem_cons hk, List.cons_append] at hpre
  have heq := (List.cons_prefix_cons.1 hpre).1
  exact h (heq ▸ List.getElem_mem hk)

theorem avoids_kstar {closer : List α} {L : Language α} (h : ∀ w ∈ L, Avoids closer w) {w : List α}
    (hw : w ∈ L∗) : Avoids closer w := by
  obtain ⟨parts, rfl, hparts⟩ := Language.mem_kstar.1 hw
  clear hw
  induction parts with
  | nil => exact avoids_nil closer
  | cons u parts ih =>
    rw [List.flatten_cons]
    exact (h u (hparts u List.mem_cons_self)).append
      (ih fun v hv ↦ hparts v (List.mem_cons_of_mem u hv))

end

/-! ## The scan -/

variable {α σ : Type} [DecidableEq α] (D : Delimiters α σ)

/-- The block that opens at the front of a text. -/
def blockAt (s : σ) (text : List α) : Option (List α × List α) :=
  (D.blocks s).find? fun b ↦ b.1.isPrefixOf text

/-- Where the first visible end is, when the text begins at `i`.  The next `skip` characters belong to
a marker that has been recognised. -/
def scan : ScanMode α → σ → Nat → List α → Nat → Option Nat
  | _, _, _, [], _ => none
  | mode, s, skip + 1, _ :: rest, i => scan mode s skip rest (i + 1)
  | .quoted q, s, 0, c :: rest, i =>
    scan (if c = q then .visible else .quoted q) s 0 rest (i + 1)
  | .block closer, s, 0, c :: rest, i =>
    if closer.isPrefixOf (c :: rest) then scan .visible s (closer.length - 1) rest (i + 1)
    else scan (.block closer) s 0 rest (i + 1)
  | .visible, s, 0, c :: rest, i =>
    match D.blockAt s (c :: rest) with
    | some b => scan (.block b.2) s (b.1.length - 1) rest (i + 1)
    | none =>
      if D.isQuote c then scan (.quoted c) s 0 rest (i + 1)
      else
        match D.next s c with
        | none => some i
        | some t => scan .visible t 0 rest (i + 1)

@[simp] theorem scan_nil (mode : ScanMode α) (s : σ) (skip i : Nat) :
    D.scan mode s skip [] i = none := by
  cases mode <;> cases skip <;> rfl

theorem scan_skip (mode : ScanMode α) (s : σ) (skip : Nat) (text : List α) (i : Nat) :
    D.scan mode s skip text i = D.scan mode s 0 (text.drop skip) (i + skip) := by
  induction skip generalizing text i with
  | zero => rfl
  | succ skip ih =>
    cases text with
    | nil => rw [List.drop_nil, scan_nil, scan_nil]
    | cons c rest =>
      have hstep : D.scan mode s (skip + 1) (c :: rest) i = D.scan mode s skip rest (i + 1) := by
        cases mode <;> rfl
      rw [hstep, ih, List.drop_succ_cons, show i + 1 + skip = i + (skip + 1) by omega]

theorem scan_quoted_cons (q c : α) (s : σ) (rest : List α) (i : Nat) :
    D.scan (.quoted q) s 0 (c :: rest) i =
      D.scan (if c = q then .visible else .quoted q) s 0 rest (i + 1) := rfl

theorem scan_block_cons (closer : List α) (s : σ) (c : α) (rest : List α) (i : Nat) :
    D.scan (.block closer) s 0 (c :: rest) i =
      if closer.isPrefixOf (c :: rest) then D.scan .visible s (closer.length - 1) rest (i + 1)
      else D.scan (.block closer) s 0 rest (i + 1) := rfl

/-- A visible character that no block begins with, that is no quote and not the end. -/
theorem scan_visible_step {s t : σ} {c : α} {rest : List α} (hblock : D.blockAt s (c :: rest) = none)
    (hquote : D.isQuote c = false) (hnext : D.next s c = some t) (i : Nat) :
    D.scan .visible s 0 (c :: rest) i = D.scan .visible t 0 rest (i + 1) := by
  simp only [scan, hblock, hquote, hnext, Bool.false_eq_true, if_false]

theorem scan_visible_quote {s : σ} {c : α} {rest : List α} (hblock : D.blockAt s (c :: rest) = none)
    (hquote : D.isQuote c = true) (i : Nat) :
    D.scan .visible s 0 (c :: rest) i = D.scan (.quoted c) s 0 rest (i + 1) := by
  simp only [scan, hblock, hquote, if_true]

theorem scan_visible_end {s : σ} {c : α} {rest : List α} (hblock : D.blockAt s (c :: rest) = none)
    (hquote : D.isQuote c = false) (hnext : D.next s c = none) (i : Nat) :
    D.scan .visible s 0 (c :: rest) i = some i := by
  simp only [scan, hblock, hquote, hnext, Bool.false_eq_true, if_false]

theorem scan_visible_block {s : σ} {text : List α} {b : List α × List α}
    (hblock : D.blockAt s text = some b) (hopener : b.1 ≠ []) (i : Nat) :
    D.scan .visible s 0 text i =
      D.scan (.block b.2) s 0 (text.drop b.1.length) (i + b.1.length) := by
  cases text with
  | nil => rw [List.drop_nil, scan_nil, scan_nil]
  | cons c rest =>
    have hlength : b.1.length = b.1.length - 1 + 1 := by
      have hpositive := List.length_pos_iff.2 hopener
      omega
    have hskip := D.scan_skip (.block b.2) s (b.1.length - 1) rest (i + 1)
    rw [hlength, List.drop_succ_cons, show i + (b.1.length - 1 + 1) = i + 1 + (b.1.length - 1) by
      omega, ← hskip]
    simp only [scan, hblock]

/-- An end is not found before the place at which the scan begins. -/
theorem le_of_scan {mode : ScanMode α} {s : σ} {skip i k : Nat} {text : List α}
    (h : D.scan mode s skip text i = some k) : i ≤ k := by
  induction text generalizing mode s skip i with
  | nil =>
    rw [scan_nil] at h
    cases h
  | cons c rest ih =>
    have hnext {mode : ScanMode α} {s : σ} {skip : Nat}
        (h : D.scan mode s skip rest (i + 1) = some k) : i ≤ k :=
      Nat.le_of_succ_le (ih h)
    cases skip with
    | succ skip => cases mode <;> exact hnext h
    | zero =>
      cases mode with
      | quoted q => exact hnext h
      | block closer =>
        rw [scan_block_cons] at h
        split at h
        · exact hnext h
        · exact hnext h
      | visible =>
        unfold scan at h
        split at h
        · exact hnext h
        · split at h
          · exact hnext h
          · split at h
            · exact Nat.le_of_eq (Option.some.inj h)
            · exact hnext h

/-! ## Quotes and blocks -/

theorem scan_quoted_body {q : α} {s : σ} {body : List α} (h : q ∉ body) (rest : List α) (i : Nat) :
    D.scan (.quoted q) s 0 (body ++ rest) i = D.scan (.quoted q) s 0 rest (i + body.length) := by
  induction body generalizing i with
  | nil => rfl
  | cons c body ih =>
    have hc : c ≠ q := fun heq ↦ h (heq ▸ List.mem_cons_self)
    rw [List.cons_append, scan_quoted_cons, if_neg hc,
      ih (fun hmem ↦ h (List.mem_cons_of_mem c hmem)), List.length_cons,
      show i + 1 + body.length = i + (body.length + 1) by omega]

theorem scan_block_body {closer body : List α} {s : σ} (h : Hides closer body) (rest : List α)
    (i : Nat) :
    D.scan (.block closer) s 0 (body ++ closer ++ rest) i =
      D.scan (.block closer) s 0 (closer ++ rest) (i + body.length) := by
  induction body generalizing i with
  | nil => rfl
  | cons c body ih =>
    have hclosed : ¬ closer.isPrefixOf (c :: (body ++ closer ++ rest)) = true := by
      rw [List.isPrefixOf_iff_prefix]
      intro hpre
      apply h 0 (Nat.succ_pos _)
      -- An occurrence at the front of the text lies in the body and its closer.
      have hshort : closer.length ≤ (c :: body ++ closer).length := by
        rw [List.length_append]
        omega
      exact List.prefix_of_prefix_length_le hpre (List.prefix_append _ rest) hshort
    have hrest : Hides closer body := by
      intro k hk hpre
      exact h (k + 1) (Nat.succ_lt_succ hk) hpre
    rw [List.cons_append, List.cons_append, scan_block_cons, if_neg hclosed, ih hrest,
      List.length_cons, show i + 1 + body.length = i + (body.length + 1) by omega]

theorem scan_block_close {closer : List α} {s : σ} (hcloser : closer ≠ []) (rest : List α)
    (i : Nat) :
    D.scan (.block closer) s 0 (closer ++ rest) i =
      D.scan .visible s 0 rest (i + closer.length) := by
  cases closer with
  | nil => exact absurd rfl hcloser
  | cons c closer =>
    have hpre : (c :: closer).isPrefixOf (c :: (closer ++ rest)) = true := by
      rw [List.isPrefixOf_iff_prefix]
      exact List.prefix_append (c :: closer) rest
    rw [List.cons_append, scan_block_cons, if_pos hpre, List.length_cons, Nat.add_sub_cancel,
      scan_skip, List.drop_left, show i + 1 + closer.length = i + (closer.length + 1) by omega]

/-- A block that is not closed hides everything. -/
theorem scan_block_open {closer text : List α} {s : σ}
    (h : ∀ k, k < text.length → ¬ closer <+: text.drop k) (i : Nat) :
    D.scan (.block closer) s 0 text i = none := by
  induction text generalizing i with
  | nil => exact D.scan_nil _ s 0 i
  | cons c rest ih =>
    have hclosed : ¬ closer.isPrefixOf (c :: rest) = true := by
      rw [List.isPrefixOf_iff_prefix]
      exact h 0 (Nat.succ_pos _)
    rw [scan_block_cons, if_neg hclosed]
    exact ih (fun k hk ↦ h (k + 1) (Nat.succ_lt_succ hk)) (i + 1)

/-- The same when the text stops within the block. -/
theorem scan_block_prefix {closer body p : List α} {s : σ} (h : Hides closer body)
    (hp : p <+: body ++ closer) (hne : p ≠ body ++ closer) (i : Nat) :
    D.scan (.block closer) s 0 p i = none := by
  apply D.scan_block_open
  intro k hk hpre
  have hshort : p.length < body.length + closer.length := by
    have hle := hp.length_le
    have hlt : p.length ≠ (body ++ closer).length := fun heq ↦ hne (hp.eq_of_length heq)
    rw [List.length_append] at hle hlt
    omega
  have hclose := hpre.length_le
  rw [List.length_drop] at hclose
  apply h k (by omega)
  obtain ⟨rest, hrest⟩ := hp
  rw [← hrest, List.drop_append_of_le_length (by omega)]
  exact hpre.trans (List.prefix_append _ rest)

/-! ## Pieces that hold no end -/

/-- Reading `w` leads from `s` to `t` without an end, and no proper beginning of `w` has one. -/
structure Covers (s : σ) (w : List α) (t : σ) : Prop where
  reads : ∀ rest i, D.scan .visible s 0 (w ++ rest) i = D.scan .visible t 0 rest (i + w.length)
  waits : ∀ p, p <+: w → p ≠ w → ∀ i, D.scan .visible s 0 p i = none

variable {D} {s t r : σ}

theorem Covers.nil : D.Covers s [] s :=
  ⟨fun _ _ ↦ rfl, fun _ hp hne ↦ absurd (List.prefix_nil.1 hp) hne⟩

/-- Also the whole of a covered text holds no end. -/
theorem Covers.waits_le {w p : List α} (h : D.Covers s w t) (hp : p <+: w) (i : Nat) :
    D.scan .visible s 0 p i = none := by
  by_cases heq : p = w
  · have hall := h.reads [] i
    rwa [List.append_nil, scan_nil, ← heq] at hall
  · exact h.waits p hp heq i

theorem Covers.append {u v : List α} (hu : D.Covers s u t) (hv : D.Covers t v r) :
    D.Covers s (u ++ v) r := by
  constructor
  · intro rest i
    rw [List.append_assoc, hu.reads, hv.reads, List.length_append, Nat.add_assoc]
  · intro p hp hne i
    by_cases h : p.length ≤ u.length
    · exact hu.waits_le (List.prefix_of_prefix_length_le hp (List.prefix_append u v) h) i
    · obtain ⟨q, rfl⟩ := List.prefix_of_prefix_length_le (List.prefix_append u v) hp (by omega)
      rw [hu.reads]
      exact hv.waits_le ((List.prefix_append_right_inj u).1 hp) _

/-- One visible character in front of a covered text. -/
theorem Covers.cons {c : α} {w : List α}
    (hblock : ∀ p, p <+: w ∨ w <+: p → D.blockAt s (c :: p) = none)
    (hquote : D.isQuote c = false) (hnext : D.next s c = some t) (h : D.Covers t w r) :
    D.Covers s (c :: w) r := by
  constructor
  · intro rest i
    rw [List.cons_append,
      D.scan_visible_step (hblock _ (Or.inr (List.prefix_append w rest))) hquote hnext,
      h.reads, List.length_cons, show i + 1 + w.length = i + (w.length + 1) by omega]
  · intro p hp hne i
    cases p with
    | nil => exact D.scan_nil _ s 0 i
    | cons d p =>
      obtain ⟨rfl, htail⟩ := List.cons_prefix_cons.1 hp
      rw [D.scan_visible_step (hblock p (Or.inl htail)) hquote hnext]
      exact h.waits_le htail (i + 1)

theorem Covers.char {c : α} (hblock : ∀ p, D.blockAt s (c :: p) = none)
    (hquote : D.isQuote c = false) (hnext : D.next s c = some t) : D.Covers s [c] t :=
  Covers.cons (fun p _ ↦ hblock p) hquote hnext Covers.nil

/-- A text between quotes. -/
theorem Covers.literal {q : α} {body : List α} (hblock : ∀ p, D.blockAt s (q :: p) = none)
    (hquote : D.isQuote q = true) (hbody : q ∉ body) : D.Covers s (q :: (body ++ [q])) s := by
  constructor
  · intro rest i
    rw [List.cons_append, List.append_assoc, D.scan_visible_quote (hblock _) hquote,
      D.scan_quoted_body hbody, List.singleton_append, scan_quoted_cons, if_pos rfl]
    simp only [List.length_cons, List.length_append, List.length_nil]
    rw [show i + 1 + body.length + 1 = i + (body.length + (0 + 1) + 1) by omega]
  · intro p hp hne i
    cases p with
    | nil => exact D.scan_nil _ s 0 i
    | cons d p =>
      obtain ⟨rfl, htail⟩ := List.cons_prefix_cons.1 hp
      have hshort : p.length < body.length + 1 := by
        have hle := htail.length_le
        have hlt : p.length ≠ (body ++ [d]).length := fun heq ↦
          hne (congrArg (d :: ·) (htail.eq_of_length heq))
        rw [List.length_append, List.length_singleton] at hle hlt
        omega
      have hin : p <+: body :=
        List.prefix_of_prefix_length_le htail (List.prefix_append body [d]) (by omega)
      have hread := D.scan_quoted_body (s := s) (fun hmem ↦ hbody (hin.subset hmem)) [] (i + 1)
      rwa [List.append_nil, scan_nil, ← D.scan_visible_quote (hblock p) hquote] at hread

/-- A block; `hcut` is about a text that stops within the opener. -/
theorem Covers.block {opener closer body : List α}
    (hblock : ∀ rest, D.blockAt s (opener ++ rest) = some (opener, closer))
    (hcut : ∀ p, p <+: opener → p ≠ opener → ∀ i, D.scan .visible s 0 p i = none)
    (hopener : opener ≠ []) (hcloser : closer ≠ []) (hbody : Hides closer body) :
    D.Covers s (opener ++ (body ++ closer)) s := by
  constructor
  · intro rest i
    rw [List.append_assoc, D.scan_visible_block (hblock _) hopener, List.drop_left,
      D.scan_block_body hbody, D.scan_block_close hcloser, List.length_append,
      List.length_append, show i + opener.length + body.length + closer.length =
        i + (opener.length + (body.length + closer.length)) by omega]
  · intro p hp hne i
    by_cases h : p.length < opener.length
    · have hin := List.prefix_of_prefix_length_le hp (List.prefix_append opener _) (by omega)
      apply hcut p hin
      intro heq
      rw [heq] at h
      exact absurd h (Nat.lt_irrefl _)
    · obtain ⟨q, rfl⟩ :=
        List.prefix_of_prefix_length_le (List.prefix_append opener _) hp (by omega)
      rw [D.scan_visible_block (hblock q) hopener, List.drop_left]
      apply D.scan_block_prefix hbody ((List.prefix_append_right_inj opener).1 hp)
      intro heq
      exact hne (by rw [heq])

/-- The end after a covered text. -/
theorem Covers.scan_end {w : List α} {c : α} {rest : List α} (h : D.Covers s w t)
    (hblock : D.blockAt t (c :: rest) = none) (hquote : D.isQuote c = false)
    (hnext : D.next t c = none) (i : Nat) :
    D.scan .visible s 0 (w ++ c :: rest) i = some (i + w.length) := by
  rw [h.reads, D.scan_visible_end hblock hquote hnext]

/-- No text that stops before the end has one. -/
theorem Covers.scan_cut {w p : List α} {c : α} (h : D.Covers s w t) (hp : p <+: w ++ [c])
    (hne : p ≠ w ++ [c]) (i : Nat) : D.scan .visible s 0 p i = none := by
  apply h.waits_le
  have hle := hp.length_le
  have hlt : p.length ≠ (w ++ [c]).length := fun heq ↦ hne (hp.eq_of_length heq)
  rw [List.length_append, List.length_singleton] at hle hlt
  exact List.prefix_of_prefix_length_le hp (List.prefix_append w [c]) (by omega)

/-! ## Languages of such pieces -/

variable (D s) in
/-- Every text of `L` is covered and leaves the state as it is. -/
def CoversAll (L : Language α) : Prop := ∀ w ∈ L, D.Covers s w s

namespace CoversAll

variable {L M : Language α}

theorem one : D.CoversAll s 1 := by
  intro w hw
  rw [(Language.mem_one w).1 hw]
  exact Covers.nil

theorem mul (hL : D.CoversAll s L) (hM : D.CoversAll s M) : D.CoversAll s (L * M) := by
  intro w hw
  obtain ⟨u, hu, v, hv, rfl⟩ := Language.mem_mul.1 hw
  exact (hL u hu).append (hM v hv)

theorem add (hL : D.CoversAll s L) (hM : D.CoversAll s M) : D.CoversAll s (L + M) := by
  intro w hw
  cases (Language.mem_add L M w).1 hw with
  | inl h => exact hL w h
  | inr h => exact hM w h

theorem kstar (hL : D.CoversAll s L) : D.CoversAll s L∗ := by
  intro w hw
  obtain ⟨parts, rfl, hparts⟩ := Language.mem_kstar.1 hw
  clear hw
  induction parts with
  | nil => exact Covers.nil
  | cons u parts ih =>
    rw [List.flatten_cons]
    exact (hL u (hparts u List.mem_cons_self)).append
      (ih fun v hv ↦ hparts v (List.mem_cons_of_mem u hv))

end CoversAll

end Delimiters

end Xpact.Library
