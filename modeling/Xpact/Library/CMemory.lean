import Mathlib.Data.List.Basic

/-!
# The memory of a C program

Blocks of bytes are allocated and freed, and accesses stay inside of a block that is alive.  What
the language leaves undefined, such as an access outside of a block or the overflow of a signed
number, has no value.
-/

namespace Xpact.Library

/-- A step that is defined is taken. -/
theorem bind_of_eq_some {α β : Type} {x : Option α} {a : α} (h : x = some a) (f : α → Option β) :
    (x >>= f) = f a := by
  rw [h]
  rfl

/-! ## Numbers -/

/-- The value of an `int` expression. -/
def int (n : Int) : Option Int := if -2147483648 ≤ n ∧ n ≤ 2147483647 then some n else none

theorem int_eq {n : Int} (hlow : -2147483648 ≤ n) (hhigh : n ≤ 2147483647) : int n = some n :=
  if_pos ⟨hlow, hhigh⟩

/-! ## Overwriting a part -/

section

variable {α : Type}

/-- `data` in place of what stands at `offset`. -/
def overwrite (bytes : List α) (offset : Nat) (data : List α) : List α :=
  bytes.take offset ++ (data ++ bytes.drop (offset + data.length))

variable {bytes data : List α} {offset : Nat}

theorem length_overwrite (h : offset + data.length ≤ bytes.length) :
    (overwrite bytes offset data).length = bytes.length := by
  unfold overwrite
  rw [List.length_append, List.length_append, List.length_take, List.length_drop]
  omega

/-- What stands in front stays. -/
theorem take_overwrite {n : Nat} (hn : n ≤ offset) (h : offset ≤ bytes.length) :
    (overwrite bytes offset data).take n = bytes.take n := by
  unfold overwrite
  rw [List.take_append_of_le_length, List.take_take, Nat.min_eq_left hn]
  rw [List.length_take]
  omega

/-- Up to its end the data follow what stands in front. -/
theorem take_overwrite_end (h : offset ≤ bytes.length) :
    (overwrite bytes offset data).take (offset + data.length) = bytes.take offset ++ data := by
  unfold overwrite
  rw [← List.append_assoc, List.take_left']
  rw [List.length_append, List.length_take]
  omega

end

/-! ## Memory -/

/-- An address in or beside a block. -/
structure Pointer where
  block : Nat
  offset : Int
  deriving DecidableEq, Repr

/-- The blocks that have been allocated; one that has been freed is `none`. -/
structure Memory where
  blocks : List (Option (List UInt8))
  deriving DecidableEq, Repr

/-- What the allocator answers to the requests, which it counts. -/
structure Allocator where
  allocates : Nat → Int → Bool
  /-- What a new block holds. -/
  garbage : Nat → Nat → UInt8

namespace Memory

variable (m : Memory)

def block (b : Nat) : Option (List UInt8) := m.blocks[b]?.join

/-- `b` holds `bytes` from now on. -/
def put (b : Nat) (bytes : Option (List UInt8)) : Memory := ⟨m.blocks.set b bytes⟩

/-- The `n` bytes at `p`. -/
def load (p : Pointer) (n : Int) : Option (List UInt8) := do
  let bytes ← m.block p.block
  if 0 ≤ p.offset ∧ 0 ≤ n ∧ p.offset + n ≤ bytes.length then
    some ((bytes.drop p.offset.toNat).take n.toNat)
  else
    none

def store (p : Pointer) (data : List UInt8) : Option Memory := do
  let bytes ← m.block p.block
  if 0 ≤ p.offset ∧ p.offset + data.length ≤ bytes.length then
    some (m.put p.block (some (overwrite bytes p.offset.toNat data)))
  else
    none

/-- `memmove`. -/
def memmove (target source : Pointer) (n : Int) : Option Memory := do
  let data ← m.load source n
  m.store target data

/-- `memcpy`, which is not defined for ranges that overlap. -/
def memcpy (target source : Pointer) (n : Int) : Option Memory :=
  if target.block = source.block ∧ target.offset < source.offset + n ∧
      source.offset < target.offset + n then
    none
  else
    m.memmove target source n

/-- A block of `size` bytes with `bytes` at its beginning. -/
def allocate (A : Allocator) (size : Int) (bytes : List UInt8) : Memory :=
  ⟨m.blocks ++ [some (bytes.take size.toNat ++
    (List.range (size.toNat - bytes.length)).map (A.garbage m.blocks.length))]⟩

/-- The block that is allocated next. -/
def next : Nat := m.blocks.length

/-- `malloc`. -/
def malloc (A : Allocator) (size : Int) : Option Nat × Memory :=
  if A.allocates m.next size then (some m.next, m.allocate A size []) else (none, m)

/-- `free`; there is nothing to do for a null pointer. -/
def free : Option Nat → Option Memory
  | none => some m
  | some b => do
    let _ ← m.block b
    some (m.put b none)

/-- `realloc` of a block that is not null. -/
def realloc (A : Allocator) (b : Nat) (size : Int) : Option (Option Nat × Memory) := do
  let bytes ← m.block b
  if A.allocates m.next size then
    let m' ← (m.allocate A size bytes).free (some b)
    some (some m.next, m')
  else
    some (none, m)

/-! ## What the operations do -/

section

variable {m} {b c : Nat} {bytes data : List UInt8} {p : Pointer}
  {n offset size : Int} {A : Allocator}

theorem lt_next (h : m.block b = some bytes) : b < m.next := by
  unfold block at h
  unfold next
  by_contra hout
  rw [List.getElem?_eq_none (by omega)] at h
  cases h

theorem block_put (h : m.block b = some bytes) (new : Option (List UInt8)) :
    (m.put b new).block b = new := by
  have hlt := lt_next h
  unfold next at hlt
  unfold block put
  rw [List.getElem?_set_self hlt]
  rfl

theorem block_put_of_ne (hne : b ≠ c) (new : Option (List UInt8)) :
    (m.put b new).block c = m.block c := by
  unfold block put
  rw [List.getElem?_set_ne hne]

theorem load_eq (h : m.block b = some bytes) (hoffset : 0 ≤ offset) (hn : 0 ≤ n)
    (hin : offset + n ≤ bytes.length) :
    m.load ⟨b, offset⟩ n = some ((bytes.drop offset.toNat).take n.toNat) := by
  unfold load
  rw [bind_of_eq_some h, if_pos ⟨hoffset, hn, hin⟩]

theorem store_eq (h : m.block b = some bytes) (hoffset : 0 ≤ offset)
    (hin : offset + data.length ≤ bytes.length) :
    m.store ⟨b, offset⟩ data = some (m.put b (some (overwrite bytes offset.toNat data))) := by
  unfold store
  rw [bind_of_eq_some h, if_pos ⟨hoffset, hin⟩]

theorem exists_of_load (h : m.load p n = some data) :
    ∃ bytes, m.block p.block = some bytes ∧ 0 ≤ p.offset ∧ 0 ≤ n ∧ p.offset + n ≤ bytes.length ∧
      data = (bytes.drop p.offset.toNat).take n.toNat := by
  unfold load at h
  rw [Option.bind_eq_bind, Option.bind_eq_some_iff] at h
  obtain ⟨bytes, hblock, h⟩ := h
  split at h
  · rename_i hin
    exact ⟨bytes, hblock, hin.1, hin.2.1, hin.2.2, (Option.some.inj h).symm⟩
  · cases h

theorem exists_of_store {m' : Memory} (h : m.store p data = some m') :
    ∃ bytes, m.block p.block = some bytes ∧ 0 ≤ p.offset ∧
      p.offset + data.length ≤ bytes.length ∧
        m' = m.put p.block (some (overwrite bytes p.offset.toNat data)) := by
  unfold store at h
  rw [Option.bind_eq_bind, Option.bind_eq_some_iff] at h
  obtain ⟨bytes, hblock, h⟩ := h
  split at h
  · rename_i hin
    exact ⟨bytes, hblock, hin.1, hin.2, (Option.some.inj h).symm⟩
  · cases h

/-- What is loaded has been asked for. -/
theorem length_load (h : m.load p n = some data) : 0 ≤ n ∧ (data.length : Int) = n := by
  obtain ⟨bytes, -, hoffset, hn, hin, rfl⟩ := exists_of_load h
  rw [List.length_take, List.length_drop]
  omega

/-- A load reads its block only. -/
theorem load_congr {m' : Memory} (h : m'.block p.block = m.block p.block) (n : Int) :
    m'.load p n = m.load p n := by
  unfold load
  rw [h]

/-- Bytes that are stored right behind others follow them. -/
theorem exists_store_behind {stored : List UInt8} (h : m.block b = some bytes)
    (htake : bytes.take stored.length = stored)
    (hfits : stored.length + data.length ≤ bytes.length) :
    ∃ m' bytes', m.store ⟨b, stored.length⟩ data = some m' ∧ m'.block b = some bytes' ∧
      bytes'.length = bytes.length ∧
      bytes'.take (stored.length + data.length) = stored ++ data ∧
        ∀ c, b ≠ c → m'.block c = m.block c := by
  refine ⟨_, _, store_eq h (Int.natCast_nonneg _) (by omega), block_put h _, ?_, ?_, fun c hc ↦ ?_⟩
  · rw [Int.toNat_natCast, length_overwrite hfits]
  · rw [Int.toNat_natCast, take_overwrite_end (by omega), htake]
  · exact block_put_of_ne hc _

/-- Bytes that are stored at the beginning of a block. -/
theorem exists_store_first (h : m.block b = some bytes) (hfits : data.length ≤ bytes.length) :
    ∃ m' bytes', m.store ⟨b, 0⟩ data = some m' ∧ m'.block b = some bytes' ∧
      bytes'.length = bytes.length ∧ bytes'.take data.length = data ∧
        ∀ c, b ≠ c → m'.block c = m.block c := by
  obtain ⟨m', bytes', hstore, hblock, hlength, htake, hother⟩ :=
    exists_store_behind h (show bytes.take ([] : List UInt8).length = [] from rfl)
      (show ([] : List UInt8).length + data.length ≤ bytes.length by
        rwa [List.length_nil, Nat.zero_add])
  rw [List.length_nil, Nat.zero_add, List.nil_append] at htake
  exact ⟨m', bytes', hstore, hblock, hlength, htake, hother⟩

theorem block_allocate (h : b < m.next) (size : Int) (bytes : List UInt8) :
    (m.allocate A size bytes).block b = m.block b := by
  unfold block allocate
  rw [List.getElem?_append_left h]

theorem block_allocate_next (size : Int) (bytes : List UInt8) :
    (m.allocate A size bytes).block m.next =
      some (bytes.take size.toNat ++
        (List.range (size.toNat - bytes.length)).map (A.garbage m.next)) := by
  unfold block allocate next
  rw [List.getElem?_append_right (Nat.le_refl _), Nat.sub_self]
  rfl

theorem free_eq (h : m.block b = some bytes) : m.free (some b) = some (m.put b none) := by
  unfold free
  dsimp only
  rw [h]
  rfl

end

end Memory

end Xpact.Library
