import Mathlib.Algebra.GroupWithZero.Nat
import Mathlib.Data.List.Induction
import Mathlib.Data.List.Basic
import Mathlib.Algebra.BigOperators.Group.List.Basic
import Mathlib.Order.Monotone.Basic

/-!
# Trees in breadth-first order

A list of nodes grows by the children of its first node, then by those of its second, and so on until
every node has been visited.  The children of a node stand next to each other, behind the children of
the nodes before it, so that a running count finds them.
-/

namespace Xpact.Library.BreadthFirst

variable {α : Type}

/-! ## Blocks -/

/-- Where the block of `i` begins when blocks of these lengths follow each other behind the root. -/
def blockStart (lengths : List Nat) (i : Nat) : Nat := 1 + (lengths.take i).sum

theorem blockStart_succ {lengths : List Nat} {i n : Nat} (h : lengths[i]? = some n) :
    blockStart lengths (i + 1) = blockStart lengths i + n := by
  unfold blockStart
  obtain ⟨hi, rfl⟩ := List.getElem?_eq_some_iff.1 h
  rw [List.sum_take_succ lengths i hi]
  omega

theorem blockStart_mono (lengths : List Nat) : Monotone (blockStart lengths) := by
  apply monotone_nat_of_le_succ
  intro i
  cases h : lengths[i]? with
  | none =>
    have hi := List.getElem?_eq_none_iff.1 h
    unfold blockStart
    rw [List.take_of_length_le hi, List.take_of_length_le (by omega)]
  | some n =>
    have hsucc := blockStart_succ h
    omega

/-- Every place behind the root is in one block and in no other. -/
theorem exists_unique_block {f : Nat → Nat} (hf : Monotone f) {n j : Nat} (hlow : f 0 ≤ j)
    (hhigh : j < f n) : ∃! i, i < n ∧ f i ≤ j ∧ j < f (i + 1) := by
  have hexists : ∃ i, i < n ∧ f i ≤ j ∧ j < f (i + 1) := by
    induction n with
    | zero => omega
    | succ n ih =>
      by_cases hlast : f n ≤ j
      · exact ⟨n, by omega, hlast, hhigh⟩
      · obtain ⟨i, hi, hblock⟩ := ih (by omega)
        exact ⟨i, by omega, hblock⟩
  obtain ⟨i, hi, hi'⟩ := hexists
  refine ⟨i, ⟨hi, hi'⟩, ?_⟩
  rintro k ⟨-, hk, hk'⟩
  -- Of two blocks the later one begins where the earlier one has ended.
  by_contra hne
  rcases Nat.lt_or_gt_of_ne hne with hlt | hgt
  · have hle : f (k + 1) ≤ f i := hf hlt
    omega
  · have hle : f (i + 1) ≤ f k := hf hgt
    omega

/-! ## Growing -/

section Grow

variable (children : α → List α)

/-- The children of the node at `i`. -/
def childrenAt (nodes : List α) (i : Nat) : List α :=
  match nodes[i]? with
  | some node => children node
  | none => []

/-- Visit `n` nodes from `i` on. -/
def visit : Nat → Nat → List α → List α
  | 0, _, nodes => nodes
  | n + 1, i, nodes => visit n (i + 1) (nodes ++ childrenAt children nodes i)

/-- The nodes before `i` have been visited. -/
def visited (root : α) (i : Nat) : List α := visit children i 0 [root]

theorem visit_succ (n i : Nat) (nodes : List α) :
    visit children (n + 1) i nodes =
      visit children n i nodes ++ childrenAt children (visit children n i nodes) (i + n) := by
  induction n generalizing i nodes with
  | zero => rfl
  | succ n ih =>
    rw [visit, ih, visit]
    rw [show i + 1 + n = i + (n + 1) by omega]

theorem visited_succ (root : α) (i : Nat) :
    visited children root (i + 1) =
      visited children root i ++ childrenAt children (visited children root i) i := by
  have h := visit_succ children i 0 [root]
  rwa [Nat.zero_add] at h

/-- Nodes that stand in the list stay where they are. -/
theorem visited_isPrefix (root : α) {i j : Nat} (h : i ≤ j) :
    visited children root i <+: visited children root j := by
  induction h with
  | refl => exact List.prefix_rfl
  | step _ ih =>
    rw [visited_succ]
    exact ih.trans (List.prefix_append _ _)

variable {children} {size : α → Nat}
  (hsize : ∀ x, size x = 1 + ((children x).map size).sum)
include hsize

/-- What has been visited and what is still to come is the whole tree. -/
theorem size_visited (root : α) {i : Nat} (h : i ≤ size root) :
    i + (((visited children root i).drop i).map size).sum = size root := by
  induction i with
  | zero =>
    show 0 + (List.map size [root]).sum = size root
    simp
  | succ i ih =>
    have hbefore := ih (by omega)
    rw [visited_succ]
    cases hnode : (visited children root i)[i]? with
    | none =>
      have hlength := List.getElem?_eq_none_iff.1 hnode
      rw [List.drop_eq_nil_of_le hlength] at hbefore
      simp at hbefore
      omega
    | some node =>
      obtain ⟨hi, hget⟩ := List.getElem?_eq_some_iff.1 hnode
      have hdrop := List.drop_eq_getElem_cons hi
      rw [hget] at hdrop
      rw [hdrop, List.map_cons, List.sum_cons, hsize node] at hbefore
      have hchildren : childrenAt children (visited children root i) i = children node := by
        unfold childrenAt
        rw [hnode]
      rw [hchildren, List.drop_append_of_le_length (by omega), List.map_append, List.sum_append]
      omega

theorem lt_length_visited (root : α) {i : Nat} (h : i < size root) :
    i < (visited children root i).length := by
  have hsum := size_visited hsize root h.le
  by_contra hlength
  rw [List.drop_eq_nil_of_le (by omega)] at hsum
  simp at hsum
  omega

/-- The list of all nodes. -/
theorem length_visited (root : α) : (visited children root (size root)).length = size root := by
  have hsum := size_visited hsize root (Nat.le_refl _)
  have hpos : 1 ≤ size root := by
    have hroot := hsize root
    omega
  have hlast := lt_length_visited hsize root (i := size root - 1) (by omega)
  have hprefix := (visited_isPrefix children root (Nat.sub_le (size root) 1)).length_le
  -- Nothing is left to be visited.
  cases hrest : (visited children root (size root)).drop (size root) with
  | nil =>
    have hle := List.drop_eq_nil_iff.1 hrest
    omega
  | cons node rest =>
    rw [hrest, List.map_cons, List.sum_cons, hsize node] at hsum
    omega

omit hsize in
/-- The list ends where the running count of children stands. -/
theorem length_visited_eq_blockStart (root : α) (i : Nat) {nodes : List α}
    (hnodes : ∀ k < i, nodes[k]? = (visited children root k)[k]?)
    (hlt : ∀ k < i, k < nodes.length) :
    (visited children root i).length = blockStart (nodes.map fun x ↦ (children x).length) i := by
  induction i with
  | zero => rfl
  | succ i ih =>
    have hbefore := ih (fun k hk ↦ hnodes k (by omega)) (fun k hk ↦ hlt k (by omega))
    have hi : i < nodes.length := hlt i (by omega)
    have hnode : nodes[i]? = some nodes[i] := List.getElem?_eq_getElem hi
    have hlength : (nodes.map fun x ↦ (children x).length)[i]? =
        some (children nodes[i]).length := by
      rw [List.getElem?_map, hnode]
      rfl
    rw [visited_succ, List.length_append, hbefore, blockStart_succ hlength]
    unfold childrenAt
    rw [← hnodes i (by omega), hnode]

section Nodes

variable {root : α}

/-- The nodes of a tree, visited to the end. -/
theorem getElem?_visited {i : Nat} (h : i < size root) :
    (visited children root (size root))[i]? = (visited children root i)[i]? := by
  have hi := lt_length_visited hsize root h
  obtain ⟨rest, hrest⟩ := visited_isPrefix children root h.le
  rw [← hrest, List.getElem?_append_left hi]

theorem length_visited_of_lt {i : Nat} (h : i ≤ size root) :
    (visited children root i).length =
      blockStart ((visited children root (size root)).map fun x ↦ (children x).length) i := by
  apply length_visited_eq_blockStart
  · intro k hk
    exact getElem?_visited hsize (by omega)
  · intro k hk
    rw [length_visited hsize]
    omega

/-- A node stands before its children. -/
theorem lt_blockStart {i : Nat} (h : i < size root) :
    i < blockStart ((visited children root (size root)).map fun x ↦ (children x).length) i := by
  rw [← length_visited_of_lt hsize h.le]
  exact lt_length_visited hsize root h

/-- The block of a node holds its children in order. -/
theorem getElem?_block {i k : Nat} {node : α}
    (hnode : (visited children root (size root))[i]? = some node)
    (hk : k < (children node).length) :
    (visited children root (size root))[blockStart
      ((visited children root (size root)).map fun x ↦ (children x).length) i + k]? =
        (children node)[k]? := by
  have hi : i < size root := by
    rw [← length_visited hsize root]
    exact (List.getElem?_eq_some_iff.1 hnode).1
  rw [getElem?_visited hsize hi] at hnode
  rw [← length_visited_of_lt hsize hi.le]
  -- The children were appended when the node was visited, and stay where they are.
  obtain ⟨rest, hrest⟩ := visited_isPrefix children root (show i + 1 ≤ size root from hi)
  have hgrown := visited_succ children root i
  unfold childrenAt at hgrown
  rw [hnode] at hgrown
  rw [← hrest, hgrown, List.append_assoc, List.getElem?_append_right (by omega),
    Nat.add_sub_cancel_left, List.getElem?_append_left hk]

/-- The blocks end where the list ends. -/
theorem blockStart_size : blockStart ((visited children root (size root)).map
    fun x ↦ (children x).length) (size root) = size root := by
  rw [← length_visited_of_lt hsize (Nat.le_refl _)]
  exact length_visited hsize root

end Nodes

end Grow

end Xpact.Library.BreadthFirst
