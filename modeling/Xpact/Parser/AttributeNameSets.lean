import Mathlib.Algebra.Ring.Nat
import Xpact.Library.OpenAddressing
import Xpact.Parser.AttributeNames

/-!
# The table of attribute names

`XP_ATTRIBUTE_NAME_RANGE_SET` is an open-addressing table: an entry is a range with the hash of its
text, and the hash tells its home.  A name is found when a range with the same text was inserted,
also when the table has grown meanwhile.
-/

namespace Xpact

open Library OpenAddressing

/-! ## Hashes -/

/-- A hash has 32 bits. -/
theorem rangeHash_lt (text : String8) : rangeHash text < 2 ^ 32 := by
  unfold rangeHash
  cases text.eq_nil_or_concat with
  | inl h =>
    rw [h]
    decide
  | inr h =>
    obtain ⟨front, c, rfl⟩ := h
    rw [List.concat_eq_append, List.foldl_concat]
    exact Nat.mod_lt _ (by decide)

/-- No 64-bit product of the hash overflows. -/
theorem rangeHash_step_lt (text : String8) (c : Character8) :
    (rangeHash text ^^^ c.toNat) * 16777619 < 2 ^ 64 := by
  have hc : c.toNat < 2 ^ 32 := Nat.lt_of_lt_of_le c.toNat_lt (by decide)
  have hxor := Nat.xor_lt_two_pow (rangeHash_lt text) hc
  omega

theorem probeRange_eq (isKey : NameRange × Nat → Bool) (slots : RangeSlots) (n slot : Nat) :
    probeRange isKey slots n slot = probe isKey slots n slot := by
  induction n generalizing slot with
  | zero => rfl
  | succ n ih =>
    unfold probeRange probe
    cases slots.getD slot none with
    | none => rfl
    | some entry =>
      dsimp only
      rw [ih]

namespace AttributeNameRangeSet

theorem place_eq (slots : RangeSlots) (entry : NameRange × Nat) :
    place slots entry = OpenAddressing.place Prod.snd slots entry := by
  unfold place OpenAddressing.place
  dsimp only
  rw [probeRange_eq]

/-! ## What a set holds -/

/-- The names in the set. -/
def names (s : AttributeNameRangeSet) (input : String8) : List String8 :=
  (entries s.slots).map fun e ↦ e.1.text input

/-- The set after a sequence of calls. -/
def insertAll (s : AttributeNameRangeSet) (input : String8) (ranges : List NameRange) :
    AttributeNameRangeSet :=
  ranges.foldl (fun s r ↦ (s.hasOrInsert input r).1) s

/-- A new table. -/
def empty (k : Nat) : AttributeNameRangeSet := ⟨List.replicate (2 ^ (k + 5)) none, 0⟩

/-- At most half of the slots are taken, each entry carries its hash and is within reach, and no
name is there twice. -/
structure Valid (s : AttributeNameRangeSet) (input : String8) : Prop where
  placed : Placed Prod.snd s.slots
  hashes : ∀ e ∈ entries s.slots, e.2 = rangeHash (e.1.text input)
  nodup : (s.names input).Nodup
  count : s.count = (entries s.slots).length
  half : s.count ≤ s.capacity / 2
  capacity : ∃ k, s.capacity = 2 ^ (k + 5)

variable {s : AttributeNameRangeSet} {input : String8}

theorem Valid.room (h : s.Valid input) : (entries s.slots).length < s.slots.length := by
  obtain ⟨k, hk⟩ := h.capacity
  have hcount := h.count
  have hhalf := h.half
  have hpositive := Nat.two_pow_pos (k + 5)
  unfold AttributeNameRangeSet.capacity at hk hhalf
  omega

theorem length_names (s : AttributeNameRangeSet) (input : String8) :
    (s.names input).length = (entries s.slots).length := List.length_map _

/-! ## Growing -/

theorem grow_slots (s : AttributeNameRangeSet) :
    s.grow.slots = (entries s.slots).foldl (OpenAddressing.place Prod.snd)
      (List.replicate (s.capacity * 2) none) := by
  have hplace : place = OpenAddressing.place Prod.snd := funext fun slots ↦ funext (place_eq slots)
  unfold grow
  rw [hplace]
  rfl

/-- A table that grows keeps its names. -/
theorem Valid.grow (h : s.Valid input) : s.grow.Valid input ∧
    (s.grow.names input).Perm (s.names input) ∧ s.grow.capacity = s.capacity * 2 := by
  have hroom := h.room
  have hcapacity : s.capacity = s.slots.length := rfl
  have hfits : (entries s.slots).length +
      (entries (List.replicate (s.capacity * 2) (none : Option (NameRange × Nat)))).length ≤
        (List.replicate (s.capacity * 2) (none : Option (NameRange × Nat))).length := by
    rw [entries_replicate, List.length_replicate, List.length_nil]
    omega
  obtain ⟨hlength, hplaced, hperm⟩ :=
    Placed.foldl_place (placed_replicate Prod.snd (s.capacity * 2)) hfits
  rw [List.length_replicate] at hlength
  rw [entries_replicate, List.append_nil] at hperm
  rw [← grow_slots] at hlength hplaced hperm
  have hnames : (s.grow.names input).Perm (s.names input) := hperm.map _
  have hgrown : s.grow.capacity = s.capacity * 2 := hlength
  refine ⟨⟨hplaced, fun e he ↦ h.hashes e (hperm.mem_iff.1 he), hnames.nodup_iff.2 h.nodup, ?_, ?_,
    ?_⟩, hnames, hgrown⟩
  · rw [hperm.length_eq]
    exact h.count
  · have hhalf := h.half
    show s.count ≤ _
    omega
  · obtain ⟨k, hk⟩ := h.capacity
    refine ⟨k + 1, ?_⟩
    rw [hgrown, hk, show k + 1 + 5 = k + 5 + 1 by omega, Nat.pow_succ 2 (k + 5)]

/-- The search for each place in the grown table ends at a free slot. -/
theorem Valid.grow_ends (h : s.Valid input) {front back : List (NameRange × Nat)}
    {e : NameRange × Nat} (hsplit : s.slots.filterMap id = front ++ e :: back) :
    let slots := front.foldl place (List.replicate (s.capacity * 2) none)
    Ends (fun _ ↦ false) slots
      (probeRange (fun _ ↦ false) slots slots.length (e.2 % slots.length)) := by
  intro slots
  have hroom := h.room
  have hcapacity : s.capacity = s.slots.length := rfl
  have hlength : (entries s.slots).length = front.length + (back.length + 1) := by
    unfold entries
    rw [hsplit, List.length_append, List.length_cons]
  have hplace : place = OpenAddressing.place Prod.snd := funext fun t ↦ funext (place_eq t)
  have hfits : front.length +
      (entries (List.replicate (s.capacity * 2) (none : Option (NameRange × Nat)))).length ≤
        (List.replicate (s.capacity * 2) (none : Option (NameRange × Nat))).length := by
    rw [entries_replicate, List.length_replicate, List.length_nil]
    omega
  obtain ⟨hsize, -, hperm⟩ :=
    Placed.foldl_place (placed_replicate Prod.snd (s.capacity * 2)) hfits
  rw [← hplace, List.length_replicate] at hsize
  rw [← hplace, entries_replicate, List.append_nil] at hperm
  rw [probeRange_eq]
  refine (exists_probe ?_ _ _).1
  show (entries (front.foldl place _)).length < (front.foldl place _).length
  rw [hperm.length_eq, hsize]
  omega

/-! ## One call -/

/-- The table in which a call searches. -/
def roomy (s : AttributeNameRangeSet) : AttributeNameRangeSet :=
  if s.capacity / 2 ≤ s.count then s.grow else s

/-- Does an entry hold the name? -/
def isName (input : String8) (r : NameRange) (e : NameRange × Nat) : Bool :=
  e.2 == rangeHash (r.text input) && r.text input == e.1.text input

theorem Valid.roomy (h : s.Valid input) : s.roomy.Valid input ∧
    (s.roomy.names input).Perm (s.names input) ∧ s.roomy.count < s.roomy.capacity / 2 := by
  unfold AttributeNameRangeSet.roomy
  by_cases hfull : s.capacity / 2 ≤ s.count
  · rw [if_pos hfull]
    obtain ⟨hvalid, hnames, hcapacity⟩ := h.grow
    obtain ⟨k, hk⟩ := h.capacity
    have hhalf := h.half
    have hpositive : 1 ≤ 2 ^ k := Nat.one_le_two_pow
    refine ⟨hvalid, hnames, ?_⟩
    show s.count < _
    rw [Nat.pow_add] at hk
    omega
  · rw [if_neg hfull]
    exact ⟨h, List.Perm.refl _, by omega⟩

theorem hasOrInsert_eq (s : AttributeNameRangeSet) (input : String8) (r : NameRange) :
    s.hasOrInsert input r =
      let slots := s.roomy.slots
      let hash := rangeHash (r.text input)
      let found := probe (isName input r) slots slots.length (hash % slots.length)
      if found.2 = true then (s.roomy, true)
      else (⟨slots.set found.1 (some (r, hash)), s.roomy.count + 1⟩, false) := by
  unfold hasOrInsert
  simp only [probeRange_eq]
  rfl

/-- The loop of `has_or_insert` ends within its variant. -/
theorem Valid.hasOrInsert_ends (h : s.Valid input) (r : NameRange) :
    Ends (isName input r) s.roomy.slots (probeRange (isName input r) s.roomy.slots s.roomy.capacity
      (rangeHash (r.text input) % s.roomy.capacity)) := by
  rw [probeRange_eq]
  exact (exists_probe h.roomy.1.room _ _).1

/-- The answer tells whether the name is there, and afterwards it is. -/
theorem Valid.hasOrInsert (h : s.Valid input) (r : NameRange) :
    (s.hasOrInsert input r).1.Valid input ∧
      ((s.hasOrInsert input r).2 = true ↔ r.text input ∈ s.names input) ∧
      ((s.hasOrInsert input r).1.names input).Perm
        (if r.text input ∈ s.names input then s.names input
          else r.text input :: s.names input) := by
  obtain ⟨hvalid, hnames, hcount⟩ := h.roomy
  have hroom := hvalid.room
  have hkey (e : NameRange × Nat) (he : isName input r e = true) :
      e.2 = rangeHash (r.text input) := by
    unfold isName at he
    rw [Bool.and_eq_true, beq_iff_eq] at he
    exact he.1
  have hfound := probe_found_iff hvalid.placed hroom hkey
  have hthere : (∃ e ∈ entries s.roomy.slots, isName input r e = true) ↔
      r.text input ∈ s.names input := by
    rw [← hnames.mem_iff]
    unfold names
    rw [List.mem_map]
    refine exists_congr fun e ↦ and_congr_right fun he ↦ ?_
    unfold isName
    rw [Bool.and_eq_true, beq_iff_eq, beq_iff_eq, hvalid.hashes e he]
    exact ⟨fun hsame ↦ hsame.2.symm, fun hsame ↦ ⟨by rw [hsame], hsame.symm⟩⟩
  rw [hthere] at hfound
  rw [hasOrInsert_eq]
  dsimp only
  by_cases hmem : r.text input ∈ s.names input
  · rw [if_pos (hfound.2 hmem), if_pos hmem]
    exact ⟨hvalid, iff_of_true rfl hmem, hnames⟩
  have hnot := fun htrue ↦ hmem (hfound.1 htrue)
  rw [if_neg hnot, if_neg hmem]
  obtain ⟨hplaced, hperm⟩ := hvalid.placed.set hroom (e := (r, rangeHash (r.text input)))
    (Bool.eq_false_iff.2 hnot)
  have hlast : (AttributeNameRangeSet.names ⟨_, s.roomy.count + 1⟩ input).Perm
      (r.text input :: s.names input) := (hperm.map _).trans (hnames.cons _)
  refine ⟨⟨hplaced, ?_, hlast.nodup_iff.2 (List.nodup_cons.2 ⟨hmem, h.nodup⟩), ?_, ?_, ?_⟩,
    iff_of_false (fun hfalse ↦ nomatch hfalse) hmem, hlast⟩
  · intro e he
    rcases List.mem_cons.1 (hperm.mem_iff.1 he) with rfl | hold
    · rfl
    · exact hvalid.hashes e hold
  · rw [hperm.length_eq, List.length_cons, ← hvalid.count]
  · unfold AttributeNameRangeSet.capacity at hcount ⊢
    rw [List.length_set]
    exact hcount
  · unfold AttributeNameRangeSet.capacity
    rw [List.length_set]
    exact hvalid.capacity

/-! ## Sequences of calls -/

/-- After any calls the set holds what was there and what they have brought. -/
theorem Valid.insertAll (h : s.Valid input) (ranges : List NameRange) :
    (s.insertAll input ranges).Valid input ∧
      ∀ name, name ∈ (s.insertAll input ranges).names input ↔
        name ∈ s.names input ∨ name ∈ ranges.map (·.text input) := by
  induction ranges generalizing s with
  | nil => exact ⟨h, fun name ↦ ⟨.inl, fun hname ↦ hname.resolve_right List.not_mem_nil⟩⟩
  | cons r ranges ih =>
    obtain ⟨hnext, -, hnames⟩ := h.hasOrInsert r
    obtain ⟨hlast, hmem⟩ := ih hnext
    refine ⟨hlast, fun name ↦ (hmem name).trans ?_⟩
    have hstep : name ∈ (s.hasOrInsert input r).1.names input ↔
        name ∈ s.names input ∨ name = r.text input := by
      rw [hnames.mem_iff]
      by_cases hold : r.text input ∈ s.names input
      · rw [if_pos hold]
        exact ⟨.inl, fun hname ↦ hname.elim id fun heq ↦ heq ▸ hold⟩
      · rw [if_neg hold, List.mem_cons, or_comm]
    rw [hstep, List.map_cons, List.mem_cons, or_assoc]

theorem initialCapacity_eq (later n j : Nat) :
    ∃ k, initialCapacity later n (2 ^ (j + 5)) = 2 ^ (k + 5) := by
  induction n generalizing j with
  | zero => exact ⟨j, rfl⟩
  | succ n ih =>
    unfold initialCapacity
    split
    · exact ⟨j, rfl⟩
    · rw [← Nat.pow_succ, show (j + 5).succ = j + 1 + 5 by omega]
      exact ih (j + 1)

theorem make_eq (input : String8) (ranges : List NameRange) :
    ∃ k, make input ranges = (empty k).insertAll input ranges := by
  obtain ⟨k, hk⟩ := initialCapacity_eq (ranges.length - 1) ranges.length 0
  refine ⟨k, ?_⟩
  unfold empty
  rw [← hk]
  rfl

theorem names_empty (input : String8) (k : Nat) : (empty k).names input = [] := by
  unfold names empty
  rw [entries_replicate]
  rfl

theorem valid_empty (input : String8) (k : Nat) : (empty k).Valid input := by
  refine ⟨placed_replicate _ _, ?_, ?_, ?_, Nat.zero_le _, k, List.length_replicate⟩
  · unfold empty
    rw [entries_replicate]
    exact fun e he ↦ absurd he List.not_mem_nil
  · rw [names_empty]
    exact List.nodup_nil
  · unfold empty
    rw [entries_replicate]
    rfl

/-- A table that was new holds what was inserted. -/
theorem insertAll_empty (input : String8) (k : Nat) (ranges : List NameRange) :
    ((empty k).insertAll input ranges).Valid input ∧
      ∀ name, name ∈ ((empty k).insertAll input ranges).names input ↔
        name ∈ ranges.map (·.text input) := by
  obtain ⟨hvalid, hnames⟩ := (valid_empty input k).insertAll ranges
  refine ⟨hvalid, fun name ↦ (hnames name).trans ?_⟩
  rw [names_empty]
  exact or_iff_right List.not_mem_nil

/-- Seeded with distinct names, a new set holds each of them once. -/
theorem make_names {input : String8} {ranges : List NameRange}
    (h : (ranges.map (·.text input)).Nodup) :
    (make input ranges).Valid input ∧
      ((make input ranges).names input).Perm (ranges.map (·.text input)) := by
  obtain ⟨k, hk⟩ := make_eq input ranges
  obtain ⟨hvalid, hnames⟩ := insertAll_empty input k ranges
  rw [hk]
  exact ⟨hvalid, (List.perm_ext_iff_of_nodup hvalid.nodup h).2 hnames⟩

/-- The set holds exactly the names of `inserted`, each once; it finds them, keeps them when it
grows, is at most half full, and its searches end within the capacity. -/
structure Serves (s : AttributeNameRangeSet) (input : String8) (inserted : List NameRange) :
    Prop where
  holds : ∀ name, name ∈ s.names input ↔ name ∈ inserted.map (·.text input)
  nodup : (s.names input).Nodup
  count : s.count = (s.names input).length
  half : s.count ≤ s.capacity / 2
  answers : ∀ r, (s.hasOrInsert input r).2 = true ↔ r.text input ∈ inserted.map (·.text input)
  grows : (s.grow.names input).Perm (s.names input)
  searchEnds : ∀ r, Ends (isName input r) s.roomy.slots
    (probeRange (isName input r) s.roomy.slots s.roomy.capacity
      (rangeHash (r.text input) % s.roomy.capacity))
  growEnds : ∀ front e back, s.slots.filterMap id = front ++ e :: back →
    let slots := front.foldl place (List.replicate (s.capacity * 2) none)
    Ends (fun _ ↦ false) slots
      (probeRange (fun _ ↦ false) slots slots.length (e.2 % slots.length))

theorem serves_insertAll (input : String8) (k : Nat) (ranges : List NameRange) :
    ((empty k).insertAll input ranges).Serves input ranges := by
  obtain ⟨hvalid, hnames⟩ := insertAll_empty input k ranges
  refine ⟨hnames, hvalid.nodup, ?_, hvalid.half, fun r ↦ ?_, hvalid.grow.2.1,
    hvalid.hasOrInsert_ends, fun front e back hsplit ↦ hvalid.grow_ends hsplit⟩
  · rw [length_names]
    exact hvalid.count
  · exact (hvalid.hasOrInsert r).2.1.trans (hnames _)

end AttributeNameRangeSet

end Xpact
