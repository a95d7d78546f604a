import Mathlib.Data.List.Chain
import Mathlib.Data.List.Basic

/-!
# Replacing parts of a text

A text is changed by replacements, one after the other, also inside of what earlier ones have
inserted.  Each item carries where it comes from, and a list of the replacements, newest first,
leads back from an index of the present text to the original one.
-/

namespace Xpact.Library

/-! ## Leading back -/

/-- `newCount` items take the place of the `oldCount` ones at `start`. -/
structure Splice where
  start : Nat
  oldCount : Nat
  newCount : Nat

/-- The index before the replacement; inserted items belong to its start. -/
def Splice.undo (e : Splice) (i : Nat) : Nat :=
  if e.start + e.newCount ≤ i then i - e.newCount + e.oldCount
  else if e.start ≤ i then e.start
  else i

def originalIndex (i : Nat) (edits : List Splice) : Nat := edits.foldl (fun i e ↦ e.undo i) i

theorem Splice.undo_mono (e : Splice) {i j : Nat} (h : i ≤ j) : e.undo i ≤ e.undo j := by
  unfold Splice.undo
  by_cases hi : e.start + e.newCount ≤ i
  · rw [if_pos hi, if_pos (by omega)]
    omega
  rw [if_neg hi]
  by_cases hj : e.start + e.newCount ≤ j
  · rw [if_pos hj]
    split <;> omega
  rw [if_neg hj]
  by_cases hstart : e.start ≤ i
  · rw [if_pos hstart, if_pos (by omega)]
  · rw [if_neg hstart]
    split <;> omega

theorem originalIndex_mono (edits : List Splice) {i j : Nat} (h : i ≤ j) :
    originalIndex i edits ≤ originalIndex j edits := by
  induction edits generalizing i j with
  | nil => exact h
  | cons e edits ih => exact ih (e.undo_mono h)

/-! ## Where an item comes from -/

/-- An item of the original text, by its index, or one inserted for what begins at an index. -/
inductive Origin where
  | kept (i : Nat)
  | produced (i : Nat)
  deriving DecidableEq

def Origin.index : Origin → Nat
  | .kept i => i
  | .produced i => i

section

variable {α : Type}

/-- The items of a text from the index `i` on. -/
def traceFrom (i : Nat) : List α → List (α × Origin)
  | [] => []
  | c :: rest => (c, .kept i) :: traceFrom (i + 1) rest

variable (isBreak : α → Prop) (IsReference : List α → Prop) (original : List α)

/-- What a text has become by replacements of references.  A reference holds no break, and what
takes its place begins and ends with one. -/
inductive Spliced : List (α × Origin) → List Splice → Prop
  | start : Spliced (traceFrom 1 original) []
  | replace {front reference back : List (α × Origin)} {c first last : α} {o : Origin}
      {inner : List α} {edits : List Splice} :
    Spliced (front ++ ((c, o) :: reference ++ back)) edits →
    IsReference (c :: reference.map Prod.fst) → (∀ d ∈ c :: reference.map Prod.fst, ¬ isBreak d) →
    isBreak first → isBreak last →
      Spliced
        (front ++ ((first :: (inner ++ [last])).map (fun d ↦ (d, Origin.produced o.index)) ++ back))
        (⟨front.length + 1, reference.length + 1, inner.length + 2⟩ :: edits)

variable {isBreak IsReference original} {text : List (α × Origin)} {edits : List Splice}

theorem length_traceFrom (i : Nat) (original : List α) :
    (traceFrom i original).length = original.length := by
  induction original generalizing i with
  | nil => rfl
  | cons c rest ih => rw [traceFrom, List.length_cons, List.length_cons, ih]

theorem getElem?_traceFrom (i : Nat) (original : List α) (k : Nat) :
    (traceFrom i original)[k]? = original[k]?.map fun c ↦ (c, Origin.kept (i + k)) := by
  induction original generalizing i k with
  | nil => rfl
  | cons c rest ih =>
    cases k with
    | zero => rfl
    | succ k =>
      rw [traceFrom, List.getElem?_cons_succ, List.getElem?_cons_succ, ih,
        show i + 1 + k = i + (k + 1) by omega]

theorem map_traceFrom (i : Nat) (original : List α) :
    (traceFrom i original).map Prod.fst = original := by
  induction original generalizing i with
  | nil => rfl
  | cons c rest ih => rw [traceFrom, List.map_cons, ih]

/-! ## The index of an item -/

/-- Going back over the replacements leads to where an item comes from, and from behind the text to
behind the original one. -/
theorem Spliced.originalIndex_eq (h : Spliced isBreak IsReference original text edits) :
    (∀ k c o, text[k]? = some (c, o) → originalIndex (k + 1) edits = o.index) ∧
      originalIndex (text.length + 1) edits = original.length + 1 := by
  induction h with
  | start =>
    constructor
    · intro k c o hk
      rw [getElem?_traceFrom] at hk
      obtain ⟨d, -, heq⟩ := Option.map_eq_some_iff.1 hk
      cases heq
      exact Nat.add_comm k 1
    · rw [length_traceFrom]
      rfl
  | @replace front reference back c first last o inner edits hbefore href hnobreak hfirst hlast
      ih =>
    obtain ⟨hindex, hend⟩ := ih
    have hinserted : ((first :: (inner ++ [last])).map
        fun d ↦ (d, Origin.produced o.index)).length = inner.length + 2 := by
      rw [List.length_map, List.length_cons, List.length_append, List.length_singleton]
    have hundo (j : Nat) :
        originalIndex j (⟨front.length + 1, reference.length + 1, inner.length + 2⟩ :: edits) =
          originalIndex
            (Splice.undo ⟨front.length + 1, reference.length + 1, inner.length + 2⟩ j) edits := rfl
    constructor
    · intro k d o' hk
      rw [hundo]
      unfold Splice.undo
      dsimp only
      by_cases hfront : k < front.length
      · -- The item stands in front of the reference.
        rw [List.getElem?_append_left hfront] at hk
        rw [if_neg (by omega), if_neg (by omega)]
        exact hindex k d o' (by rw [List.getElem?_append_left hfront, hk])
      rw [List.getElem?_append_right (by omega)] at hk
      by_cases hinner : k - front.length < inner.length + 2
      · -- The item is inserted.
        rw [List.getElem?_append_left (by omega), List.getElem?_map] at hk
        obtain ⟨e, -, heq⟩ := Option.map_eq_some_iff.1 hk
        cases heq
        rw [if_neg (by omega), if_pos (by omega)]
        refine hindex front.length c o ?_
        rw [List.getElem?_append_right (Nat.le_refl _), Nat.sub_self]
        rfl
      · -- The item stands behind the reference.
        rw [List.getElem?_append_right (by omega), hinserted] at hk
        rw [if_pos (by omega),
          show k + 1 - (inner.length + 2) + (reference.length + 1) =
            k - (inner.length + 2) + (reference.length + 1) + 1 by omega]
        refine hindex _ d o' ?_
        rw [List.getElem?_append_right (by omega), List.getElem?_append_right (by
          rw [List.length_cons]; omega), ← hk, List.length_cons]
        congr 1
        omega
    · rw [hundo]
      unfold Splice.undo
      dsimp only
      have hlength : (front ++ ((first :: (inner ++ [last])).map
          (fun d ↦ (d, Origin.produced o.index)) ++ back)).length =
            front.length + (inner.length + 2 + back.length) := by
        rw [List.length_append, List.length_append, hinserted]
      have hold : (front ++ ((c, o) :: reference ++ back)).length =
          front.length + (reference.length + 1 + back.length) := by
        rw [List.length_append, List.length_append, List.length_cons]
      rw [hlength, if_pos (by omega), ← hend, hold]
      congr 1
      omega

/-! ## References stand in one piece -/

/-- `y` is right behind `x`, in the original text or in what one reference has produced. -/
def Follows (x y : α × Origin) : Prop :=
  (∃ i, x.2 = .kept i ∧ y.2 = .kept (i + 1)) ∨ ∃ i, x.2 = .produced i ∧ y.2 = .produced i

/-- Items that do not follow each other are separated by a break. -/
def Separated (isBreak : α → Prop) (x y : α × Origin) : Prop :=
  Follows x y ∨ isBreak x.1 ∨ isBreak y.1

theorem chain_traceFrom (i : Nat) (original : List α) :
    List.IsChain (Separated isBreak) (traceFrom i original) := by
  induction original generalizing i with
  | nil => exact .nil
  | cons c rest ih =>
    cases rest with
    | nil => exact .singleton _
    | cons d rest => exact .cons_cons (.inl (.inl ⟨i, rfl, rfl⟩)) (ih (i + 1))

theorem chain_produced (i : Nat) (inserted : List α) :
    List.IsChain (Separated isBreak) (inserted.map fun d ↦ (d, Origin.produced i)) := by
  induction inserted with
  | nil => exact .nil
  | cons c rest ih =>
    cases rest with
    | nil => exact .singleton _
    | cons d rest => exact .cons_cons (.inl (.inr ⟨i, rfl, rfl⟩)) ih

theorem Spliced.chain (h : Spliced isBreak IsReference original text edits) :
    List.IsChain (Separated isBreak) text := by
  induction h with
  | start => exact chain_traceFrom 1 original
  | @replace front reference back c first last o inner edits hbefore href hnobreak hfirst hlast
      ih =>
    rw [List.isChain_append] at ih ⊢
    obtain ⟨hfront, hrest, -⟩ := ih
    have hback : List.IsChain (Separated isBreak) back := (List.isChain_append.1 hrest).2.1
    refine ⟨hfront, ?_, ?_⟩
    · rw [List.isChain_append]
      refine ⟨chain_produced _ _, hback, fun x hx y _ ↦ ?_⟩
      rw [← List.cons_append, List.map_append, List.map_singleton, List.getLast?_concat] at hx
      obtain rfl := Option.some.inj hx
      exact .inr (.inl hlast)
    · intro x _ y hy
      rw [List.map_cons, List.cons_append, List.head?_cons] at hy
      obtain rfl := Option.some.inj hy
      exact .inr (.inr hfirst)

/-- A part without breaks is a part of the original text, or is produced by one reference. -/
theorem chain_cases {c : α} {o : Origin} {rest : List (α × Origin)}
    (h : List.IsChain (Separated isBreak) ((c, o) :: rest))
    (hnobreak : ∀ d ∈ c :: rest.map Prod.fst, ¬ isBreak d) :
    (∃ i, (c, o) :: rest = traceFrom i (c :: rest.map Prod.fst)) ∨
      ∃ i, ∀ x ∈ (c, o) :: rest, x.2 = .produced i := by
  induction rest generalizing c o with
  | nil =>
    cases o with
    | kept i => exact .inl ⟨i, rfl⟩
    | produced i =>
      refine .inr ⟨i, fun x hx ↦ ?_⟩
      rw [List.mem_singleton.1 hx]
  | cons y rest ih =>
    obtain ⟨d, o'⟩ := y
    obtain ⟨hstep, hrest⟩ := List.isChain_cons_cons.1 h
    have hfollows : Follows (c, o) (d, o') := by
      rcases hstep with hfollows | hleft | hright
      · exact hfollows
      · exact absurd hleft (hnobreak c List.mem_cons_self)
      · exact absurd hright (hnobreak d (List.mem_cons_of_mem _ List.mem_cons_self))
    have hnobreak' : ∀ e ∈ d :: rest.map Prod.fst, ¬ isBreak e :=
      fun e he ↦ hnobreak e (List.mem_cons_of_mem _ he)
    rcases hfollows with ⟨i, hx, hy⟩ | ⟨i, hx, hy⟩
    · cases hx
      cases hy
      rcases ih hrest hnobreak' with ⟨j, hj⟩ | ⟨j, hj⟩
      · left
        rw [traceFrom] at hj
        obtain ⟨hhead, htail⟩ := List.cons.inj hj
        cases hhead
        exact ⟨i, by rw [traceFrom, List.map_cons, traceFrom, ← htail]⟩
      · cases hj _ List.mem_cons_self
    · cases hx
      cases hy
      right
      rcases ih hrest hnobreak' with ⟨j, hj⟩ | ⟨j, hj⟩
      · rw [traceFrom] at hj
        cases (List.cons.inj hj).1
      · have hsame := hj _ List.mem_cons_self
        cases hsame
        refine ⟨i, fun x hx ↦ ?_⟩
        rcases List.mem_cons.1 hx with rfl | hx
        · rfl
        · exact hj x hx

/-! ## What the items are -/

/-- A part of the traced text that was kept stands in the original text. -/
theorem prefix_drop_of_kept {original w : List α} {i : Nat} {text : List (α × Origin)}
    (hsub : traceFrom i w <:+: text)
    (hkept : ∀ d j, (d, Origin.kept j) ∈ text → 1 ≤ j ∧ original[j - 1]? = some d) :
    w <+: original.drop (i - 1) := by
  induction w generalizing i with
  | nil => exact List.nil_prefix
  | cons c w ih =>
    have hmem : (c, Origin.kept i) ∈ text := hsub.subset (List.mem_cons_self)
    obtain ⟨hi, hitem⟩ := hkept c i hmem
    have hrest := ih (i := i + 1) ((List.suffix_cons _ _).isInfix.trans hsub)
    rw [Nat.add_sub_cancel] at hrest
    have hlt : i - 1 < original.length := (List.getElem?_eq_some_iff.1 hitem).1
    rw [List.drop_eq_getElem_cons hlt, show i - 1 + 1 = i by omega]
    rw [List.getElem?_eq_getElem hlt] at hitem
    rw [Option.some.inj hitem]
    exact List.cons_prefix_cons.2 ⟨rfl, hrest⟩

/-- A kept item is that of the original text; what was produced belongs to a reference that stands
there in the original text. -/
theorem Spliced.origins (h : Spliced isBreak IsReference original text edits) :
    (∀ c i, (c, Origin.kept i) ∈ text → 1 ≤ i ∧ original[i - 1]? = some c) ∧
      ∀ c i, (c, Origin.produced i) ∈ text →
        1 ≤ i ∧ ∃ w, IsReference w ∧ w ≠ [] ∧ w <+: original.drop (i - 1) := by
  induction h with
  | start =>
    constructor
    · intro c i hmem
      obtain ⟨k, hk⟩ := List.mem_iff_getElem?.1 hmem
      rw [getElem?_traceFrom] at hk
      obtain ⟨d, hd, heq⟩ := Option.map_eq_some_iff.1 hk
      cases heq
      exact ⟨by omega, by rw [Nat.add_sub_cancel_left, hd]⟩
    · intro c i hmem
      obtain ⟨k, hk⟩ := List.mem_iff_getElem?.1 hmem
      rw [getElem?_traceFrom] at hk
      obtain ⟨d, -, heq⟩ := Option.map_eq_some_iff.1 hk
      cases heq
  | @replace front reference back c first last o inner edits hbefore href hnobreak hfirst hlast
      ih =>
    obtain ⟨hkept, hproduced⟩ := ih
    -- The reference is one of the original text, or inside of what one has produced.
    have hpart : (c, o) :: reference <:+: front ++ ((c, o) :: reference ++ back) :=
      ⟨front, back, by rw [List.append_assoc]⟩
    have horigin : 1 ≤ o.index ∧
        ∃ w, IsReference w ∧ w ≠ [] ∧ w <+: original.drop (o.index - 1) := by
      have hchain := List.IsChain.infix hbefore.chain hpart
      rcases chain_cases hchain hnobreak with ⟨i, hi⟩ | ⟨i, hi⟩
      · obtain rfl : o = .kept i := by
          rw [traceFrom] at hi
          exact congrArg Prod.snd (List.cons.inj hi).1
        refine ⟨(hkept c i (hpart.subset List.mem_cons_self)).1, _, href, List.cons_ne_nil _ _, ?_⟩
        exact prefix_drop_of_kept (hi ▸ hpart) hkept
      · obtain rfl : o = .produced i := hi _ List.mem_cons_self
        exact hproduced c i (hpart.subset List.mem_cons_self)
    have hold {x : α × Origin} (hx : x ∈ front ∨ x ∈ back) :
        x ∈ front ++ ((c, o) :: reference ++ back) := by
      rcases hx with hx | hx
      · exact List.mem_append_left _ hx
      · exact List.mem_append_right _ (List.mem_append_right _ hx)
    constructor
    · intro d i hmem
      rcases List.mem_append.1 hmem with hmem | hmem
      · exact hkept d i (hold (.inl hmem))
      rcases List.mem_append.1 hmem with hmem | hmem
      · obtain ⟨e, -, heq⟩ := List.mem_map.1 hmem
        cases heq
      · exact hkept d i (hold (.inr hmem))
    · intro d i hmem
      rcases List.mem_append.1 hmem with hmem | hmem
      · exact hproduced d i (hold (.inl hmem))
      rcases List.mem_append.1 hmem with hmem | hmem
      · obtain ⟨e, -, heq⟩ := List.mem_map.1 hmem
        cases heq
        exact horigin
      · exact hproduced d i (hold (.inr hmem))

end

end Xpact.Library
