import Mathlib.Data.List.Basic

/-!
# Nested streams

A stream of tokens is well nested when it is a forest written out: a leaf by its tokens, a node by an
opening, its children and a closing that belongs to the opening.  A `Spine` is a forest that is still
being written: the nodes that are open, and at each level the trees that are complete.
-/

namespace Xpact.Library

inductive Tree (φ ν : Type) where
  | leaf (n : ν)
  | node (f : φ) (children : List (Tree φ ν))

/-- How leaves and nodes are written as tokens. -/
structure Spelling (φ ν μ : Type) where
  leaf : ν → List μ
  opening : φ → List μ
  closing : φ → List μ

section

variable {φ ν μ : Type} (w : Spelling φ ν μ)

mutual

def Tree.flatten : Tree φ ν → List μ
  | .leaf n => w.leaf n
  | .node f children => w.opening f ++ flattenForest children ++ w.closing f

def flattenForest : List (Tree φ ν) → List μ
  | [] => []
  | t :: ts => t.flatten ++ flattenForest ts

end

theorem flattenForest_append (ts us : List (Tree φ ν)) :
    flattenForest w (ts ++ us) = flattenForest w ts ++ flattenForest w us := by
  induction ts with
  | nil => rfl
  | cons t ts ih => rw [List.cons_append, flattenForest, flattenForest, ih, List.append_assoc]

theorem flattenForest_singleton (t : Tree φ ν) : flattenForest w [t] = t.flatten w := by
  rw [flattenForest, flattenForest, List.append_nil]

/-! ## Spines -/

/-- A forest with open nodes. -/
inductive Spine (φ ν : Type) where
  | root (siblings : List (Tree φ ν))
  | inside (f : φ) (parent : Spine φ ν) (siblings : List (Tree φ ν))

namespace Spine

/-- The open nodes, innermost first. -/
def frames : Spine φ ν → List φ
  | .root _ => []
  | .inside f parent _ => f :: parent.frames

/-- The complete trees outside every open node. -/
def roots : Spine φ ν → List (Tree φ ν)
  | .root siblings => siblings
  | .inside _ parent _ => parent.roots

/-- The complete trees in the innermost open node. -/
def siblings : Spine φ ν → List (Tree φ ν)
  | .root siblings => siblings
  | .inside _ _ siblings => siblings

def flatten : Spine φ ν → List μ
  | .root siblings => flattenForest w siblings
  | .inside f parent siblings => parent.flatten ++ w.opening f ++ flattenForest w siblings

/-- Complete some more trees in the innermost open node. -/
def add (ts : List (Tree φ ν)) : Spine φ ν → Spine φ ν
  | .root siblings => .root (siblings ++ ts)
  | .inside f parent siblings => .inside f parent (siblings ++ ts)

/-- Open a node. -/
def push (f : φ) (s : Spine φ ν) : Spine φ ν := .inside f s []

/-- Close the innermost open node. -/
def pop : Spine φ ν → Spine φ ν
  | .root siblings => .root siblings
  | .inside f parent siblings => parent.add [.node f siblings]

@[simp] theorem frames_add (ts : List (Tree φ ν)) (s : Spine φ ν) : (s.add ts).frames = s.frames := by
  cases s <;> rfl

@[simp] theorem frames_push (f : φ) (s : Spine φ ν) : (s.push f).frames = f :: s.frames := rfl

@[simp] theorem frames_pop (s : Spine φ ν) : s.pop.frames = s.frames.tail := by
  cases s with
  | root siblings => rfl
  | inside f parent siblings => exact frames_add _ parent

theorem flatten_add (ts : List (Tree φ ν)) (s : Spine φ ν) :
    (s.add ts).flatten w = s.flatten w ++ flattenForest w ts := by
  cases s with
  | root siblings => exact flattenForest_append w siblings ts
  | inside f parent siblings =>
    rw [add, flatten, flatten, flattenForest_append, ← List.append_assoc]

theorem flatten_push (f : φ) (s : Spine φ ν) :
    (s.push f).flatten w = s.flatten w ++ w.opening f := by
  rw [push, flatten, flattenForest, List.append_nil]

/-- What the last step wrote is the closing of the node that it closed. -/
theorem flatten_pop {f : φ} {rest : List φ} {s : Spine φ ν} (h : s.frames = f :: rest) :
    s.pop.flatten w = s.flatten w ++ w.closing f := by
  cases s with
  | root siblings => cases h
  | inside g parent siblings =>
    obtain ⟨rfl, -⟩ := List.cons.inj h
    rw [pop, flatten_add, flattenForest_singleton, Tree.flatten, flatten]
    simp only [List.append_assoc]

theorem roots_add_inside {f : φ} {rest : List φ} {s : Spine φ ν} (h : s.frames = f :: rest)
    (ts : List (Tree φ ν)) : (s.add ts).roots = s.roots := by
  cases s with
  | root siblings => cases h
  | inside g parent siblings => rfl

/-- A spine without open nodes is a forest. -/
theorem eq_root {s : Spine φ ν} (h : s.frames = []) : s = .root s.roots := by
  cases s with
  | root siblings => rfl
  | inside f parent siblings => cases h

end Spine

end

end Xpact.Library
