import Mathlib.Data.List.Perm.Basic

/-!
# Open addressing

A table of slots is searched from the home of a key on, one slot after the other and around its end,
up to the key or to a free slot.  Nothing is removed, so an entry stays within reach of its home.
-/

namespace Xpact.Library.OpenAddressing

variable {α : Type}

/-- The slot at which the search for a key ends, from `slot` on and within `n` rounds, and whether
the key is there. -/
def probe (isKey : α → Bool) (slots : List (Option α)) : Nat → Nat → Nat × Bool
  | 0, slot => (slot, false)
  | n + 1, slot =>
    match slots.getD slot none with
    | none => (slot, false)
    | some entry =>
      if isKey entry then (slot, true) else probe isKey slots n ((slot + 1) % slots.length)

/-- Put an entry into the first free slot from its home on. -/
def place (home : α → Nat) (slots : List (Option α)) (entry : α) : List (Option α) :=
  slots.set (probe (fun _ ↦ false) slots slots.length (home entry % slots.length)).1 (some entry)

def entries (slots : List (Option α)) : List α := slots.filterMap id

/-- Every entry is reached from its home over slots that are taken. -/
def Placed (home : α → Nat) (slots : List (Option α)) : Prop :=
  ∀ s e, slots.getD s none = some e → ∃ d < slots.length, s = (home e + d) % slots.length ∧
    ∀ j < d, slots.getD ((home e + j) % slots.length) none ≠ none

/-- The search has ended at the key or at a free slot. -/
def Ends (isKey : α → Bool) (slots : List (Option α)) (r : Nat × Bool) : Prop :=
  if r.2 = true then ∃ e, slots.getD r.1 none = some e ∧ isKey e = true
  else r.1 < slots.length ∧ slots.getD r.1 none = none

variable {isKey : α → Bool} {home : α → Nat} {slots : List (Option α)} {e : α} {a n s : Nat}

/-! ## Entries -/

theorem mem_entries : e ∈ entries slots ↔ ∃ s, slots.getD s none = some e := by
  unfold entries
  rw [List.mem_filterMap]
  constructor
  · intro h
    obtain ⟨o, ho, rfl⟩ := h
    obtain ⟨s, hs⟩ := List.mem_iff_getElem?.1 ho
    exact ⟨s, by rw [List.getD_eq_getElem?_getD, hs]; rfl⟩
  · intro h
    obtain ⟨s, hs⟩ := h
    refine ⟨some e, ?_, rfl⟩
    rw [List.getD_eq_getElem?_getD] at hs
    cases hget : slots[s]? with
    | none =>
      rw [hget] at hs
      cases hs
    | some o =>
      rw [hget] at hs
      exact List.mem_iff_getElem?.2 ⟨s, hget.trans (congrArg some hs)⟩

theorem getD_replicate (c s : Nat) : (List.replicate c (none : Option α)).getD s none = none := by
  rw [List.getD_eq_getElem?_getD, List.getElem?_replicate]
  split <;> rfl

theorem entries_replicate (c : Nat) : entries (List.replicate c (none : Option α)) = [] := by
  rw [List.eq_nil_iff_forall_not_mem]
  intro e he
  obtain ⟨s, hs⟩ := mem_entries.1 he
  rw [getD_replicate] at hs
  cases hs

theorem placed_replicate (home : α → Nat) (c : Nat) : Placed home (List.replicate c none) := by
  intro s e hs
  rw [getD_replicate] at hs
  cases hs

/-- A table that is not full has a free slot. -/
theorem exists_free (h : (entries slots).length < slots.length) :
    ∃ s < slots.length, slots.getD s none = none := by
  obtain ⟨o, ho, hnone⟩ := List.length_filterMap_lt_length_iff_exists.1 h
  obtain ⟨s, hs⟩ := List.mem_iff_getElem?.1 ho
  refine ⟨s, (List.getElem?_eq_some_iff.1 hs).1, ?_⟩
  rw [List.getD_eq_getElem?_getD, hs]
  exact hnone

/-- A free slot takes an entry. -/
theorem entries_set (hs : s < slots.length) (hfree : slots.getD s none = none) :
    (entries (slots.set s (some e))).Perm (e :: entries slots) := by
  have hitem : slots[s] = none := by
    rw [List.getD_eq_getElem?_getD, List.getElem?_eq_getElem hs] at hfree
    exact hfree
  have hsplit : slots = slots.take s ++ none :: slots.drop (s + 1) := by
    rw [← hitem, List.getElem_cons_drop, List.take_append_drop]
  have hold : entries slots = entries (slots.take s) ++ entries (slots.drop (s + 1)) := by
    conv_lhs => rw [hsplit]
    unfold entries
    rw [List.filterMap_append]
    rfl
  rw [hold, List.set_eq_take_append_cons_drop, if_pos hs]
  unfold entries
  rw [List.filterMap_append]
  exact List.perm_middle

/-! ## Searching -/

/-- Every slot is reached from every home. -/
theorem exists_reach (hs : s < slots.length) (a : Nat) :
    ∃ j < slots.length, (a + j) % slots.length = s := by
  have ha := Nat.mod_lt a (Nat.lt_of_le_of_lt (Nat.zero_le s) hs)
  by_cases hle : a % slots.length ≤ s
  · refine ⟨s - a % slots.length, by omega, ?_⟩
    rw [← Nat.mod_add_mod, Nat.add_sub_cancel' hle, Nat.mod_eq_of_lt hs]
  · refine ⟨s + slots.length - a % slots.length, by omega, ?_⟩
    rw [← Nat.mod_add_mod, show a % slots.length + (s + slots.length - a % slots.length) =
      s + slots.length by omega, Nat.add_mod_right, Nat.mod_eq_of_lt hs]

/-- A search passes entries that are not the key, and ends unless its rounds are used up. -/
theorem probe_spec (isKey : α → Bool) (slots : List (Option α)) (n a : Nat) :
    ∃ d ≤ n, (probe isKey slots n (a % slots.length)).1 = (a + d) % slots.length ∧
      (∀ j < d, ∃ e, slots.getD ((a + j) % slots.length) none = some e ∧ isKey e = false) ∧
      (d = n ∨ d < n ∧
        ((probe isKey slots n (a % slots.length)).2 = true ∧
            (∃ e, slots.getD ((a + d) % slots.length) none = some e ∧ isKey e = true) ∨
          (probe isKey slots n (a % slots.length)).2 = false ∧
            slots.getD ((a + d) % slots.length) none = none)) := by
  induction n generalizing a with
  | zero => exact ⟨0, Nat.le_refl 0, rfl, fun j hj ↦ absurd hj (Nat.not_lt_zero j), .inl rfl⟩
  | succ n ih =>
    unfold probe
    cases hslot : slots.getD (a % slots.length) none with
    | none =>
      exact ⟨0, Nat.zero_le _, rfl, fun j hj ↦ absurd hj (Nat.not_lt_zero j),
        .inr ⟨Nat.succ_pos n, .inr ⟨rfl, hslot⟩⟩⟩
    | some e =>
      dsimp only
      by_cases hkey : isKey e = true
      · rw [if_pos hkey]
        exact ⟨0, Nat.zero_le _, rfl, fun j hj ↦ absurd hj (Nat.not_lt_zero j),
          .inr ⟨Nat.succ_pos n, .inl ⟨rfl, e, hslot, hkey⟩⟩⟩
      rw [if_neg hkey, Nat.mod_add_mod]
      obtain ⟨d, hd, hresult, hpassed, hend⟩ := ih (a + 1)
      have hshift (j : Nat) : a + 1 + j = a + (j + 1) := by omega
      rw [hshift] at hresult hend
      refine ⟨d + 1, Nat.succ_le_succ hd, hresult, fun j hj ↦ ?_,
        hend.imp (congrArg (· + 1)) fun h ↦ ⟨Nat.succ_lt_succ h.1, h.2⟩⟩
      cases j with
      | zero => exact ⟨e, hslot, by simpa using hkey⟩
      | succ j =>
        rw [← hshift]
        exact hpassed j (Nat.lt_of_succ_lt_succ hj)

/-- With a free slot, one round for each slot suffices. -/
theorem exists_probe (h : (entries slots).length < slots.length) (isKey : α → Bool) (a : Nat) :
    Ends isKey slots (probe isKey slots slots.length (a % slots.length)) ∧
      ∃ d < slots.length,
        (probe isKey slots slots.length (a % slots.length)).1 = (a + d) % slots.length ∧
        ∀ j < d, ∃ e, slots.getD ((a + j) % slots.length) none = some e ∧ isKey e = false := by
  obtain ⟨d, hd, hresult, hpassed, hend⟩ := probe_spec isKey slots slots.length a
  rcases hend with rfl | ⟨hlt, hend⟩
  · obtain ⟨s, hs, hfree⟩ := exists_free h
    obtain ⟨j, hj, rfl⟩ := exists_reach hs a
    obtain ⟨e, he, -⟩ := hpassed j hj
    cases hfree.symm.trans he
  refine ⟨?_, d, hlt, hresult, hpassed⟩
  unfold Ends
  rw [hresult]
  rcases hend with ⟨hfound, hkey⟩ | ⟨hfound, hfree⟩
  · rw [if_pos hfound]
    exact hkey
  · rw [if_neg (by rw [hfound]; exact Bool.false_ne_true)]
    exact ⟨Nat.mod_lt _ (by omega), hfree⟩

/-- The key is found when it is an entry. -/
theorem probe_found_iff (hplaced : Placed home slots)
    (h : (entries slots).length < slots.length) (hkey : ∀ e, isKey e = true → home e = a) :
    (probe isKey slots slots.length (a % slots.length)).2 = true ↔
      ∃ e ∈ entries slots, isKey e = true := by
  obtain ⟨hends, d, hd, hresult, hpassed⟩ := exists_probe h isKey a
  unfold Ends at hends
  constructor
  · intro hfound
    rw [if_pos hfound] at hends
    obtain ⟨e, he, hisKey⟩ := hends
    exact ⟨e, mem_entries.2 ⟨_, he⟩, hisKey⟩
  · rintro ⟨e, he, hisKey⟩
    by_contra hfound
    rw [if_neg hfound, hresult] at hends
    obtain ⟨s, hs⟩ := mem_entries.1 he
    obtain ⟨k, -, rfl, hreach⟩ := hplaced s e hs
    rw [hkey e hisKey] at hs hreach
    -- The entry stands in front of the free slot, there, or behind it.
    rcases Nat.lt_trichotomy k d with hlt | rfl | hgt
    · obtain ⟨other, hother, hnot⟩ := hpassed k hlt
      cases hs.symm.trans hother
      rw [hisKey] at hnot
      cases hnot
    · cases hs.symm.trans hends.2
    · exact hreach d hgt hends.2

/-! ## Inserting -/

theorem getD_set (hs : s < slots.length) (e : α) (i : Nat) :
    (slots.set s (some e)).getD i none = if i = s then some e else slots.getD i none := by
  rw [List.getD_eq_getElem?_getD, List.getD_eq_getElem?_getD, List.getElem?_set]
  by_cases hi : s = i
  · rw [if_pos hi, if_pos hs, if_pos hi.symm]
    rfl
  · rw [if_neg hi, if_neg (Ne.symm hi)]

/-- An entry may be put where the search for it has ended. -/
theorem Placed.set (hplaced : Placed home slots) (h : (entries slots).length < slots.length)
    (hfound : (probe isKey slots slots.length (home e % slots.length)).2 = false) :
    let s := (probe isKey slots slots.length (home e % slots.length)).1
    Placed home (slots.set s (some e)) ∧
      (entries (slots.set s (some e))).Perm (e :: entries slots) := by
  intro s
  obtain ⟨hends, d, hd, hresult, hpassed⟩ := exists_probe h isKey (home e)
  unfold Ends at hends
  rw [if_neg (by rw [hfound]; exact Bool.false_ne_true)] at hends
  have hs : s < slots.length := hends.1
  refine ⟨?_, entries_set hs hends.2⟩
  intro i f hi
  rw [List.length_set]
  have htaken {j : Nat} (hj : slots.getD j none ≠ none) :
      (slots.set s (some e)).getD j none ≠ none := by
    rw [getD_set hs]
    split
    · exact fun h ↦ nomatch h
    · exact hj
  rw [getD_set hs] at hi
  split at hi
  · rename_i heq
    cases hi
    refine ⟨d, hd, heq.trans hresult, fun j hj ↦ htaken ?_⟩
    obtain ⟨other, hother, -⟩ := hpassed j hj
    rw [hother]
    exact fun h ↦ nomatch h
  · obtain ⟨k, hk, hreach, hbefore⟩ := hplaced i f hi
    exact ⟨k, hk, hreach, fun j hj ↦ htaken (hbefore j hj)⟩

theorem length_place (home : α → Nat) (slots : List (Option α)) (e : α) :
    (place home slots e).length = slots.length := List.length_set

theorem probe_never (n slot : Nat) : (probe (fun _ : α ↦ false) slots n slot).2 = false := by
  induction n generalizing slot with
  | zero => rfl
  | succ n ih =>
    unfold probe
    split
    · rfl
    · exact ih _

theorem Placed.place (hplaced : Placed home slots) (h : (entries slots).length < slots.length)
    (e : α) :
    Placed home (place home slots e) ∧ (entries (place home slots e)).Perm (e :: entries slots) :=
  hplaced.set h (probe_never _ _)

/-- A table that is large enough takes a list of entries. -/
theorem Placed.foldl_place {es : List α} (hplaced : Placed home slots)
    (h : es.length + (entries slots).length ≤ slots.length) :
    (es.foldl (OpenAddressing.place home) slots).length = slots.length ∧
      Placed home (es.foldl (OpenAddressing.place home) slots) ∧
      (entries (es.foldl (OpenAddressing.place home) slots)).Perm (es ++ entries slots) := by
  induction es generalizing slots with
  | nil => exact ⟨rfl, hplaced, List.Perm.refl _⟩
  | cons e es ih =>
    rw [List.length_cons] at h
    obtain ⟨hnext, hperm⟩ := hplaced.place (by omega) e
    have hlength := hperm.length_eq
    rw [List.length_cons] at hlength
    obtain ⟨hsame, hlast, hall⟩ := ih hnext (by rw [length_place]; omega)
    refine ⟨hsame.trans (length_place home slots e), hlast, hall.trans ?_⟩
    exact (hperm.append_left es).trans List.perm_middle

end Xpact.Library.OpenAddressing
