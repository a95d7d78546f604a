import Mathlib.Data.List.AList

/-!
# Tables whose first binding stands

A table is an association list without duplicate keys, in the order in which the keys were first
bound.  Writing never replaces a binding: `put` and the union of two tables keep what the left one
has.  A `delta` keeps only the keys that a base table lacks; joining it onto any table that already
has the keys of the base is the same as joining the whole table (`union_delta`).
-/

namespace Xpact.Library

abbrev Table (κ ν : Type) := AList fun _ : κ ↦ ν

namespace Table

variable {κ ν μ : Type} [DecidableEq κ]

/-- Tables are compared by their entries; unlike the general instance, this one evaluates. -/
instance [DecidableEq ν] : DecidableEq (Table κ ν) := fun t u ↦
  decidable_of_iff (t.entries = u.entries) AList.ext_iff.symm

/-- Bind `k` unless it is already bound. -/
def put (t : Table κ ν) (k : κ) (v : ν) : Table κ ν := t ∪ AList.singleton k v

/-- The bindings whose keys satisfy `keep`. -/
def restrict (keep : κ → Bool) (t : Table κ ν) : Table κ ν where
  entries := t.entries.filter fun e ↦ keep e.1
  nodupKeys := t.nodupKeys.sublist List.filter_sublist

/-- The bindings of `t` whose keys the base does not have. -/
def delta (t : Table κ ν) (base : Table κ μ) : Table κ ν :=
  restrict (fun k ↦ decide (k ∉ base)) t

/-! ## Lookups -/

theorem lookup_union (t u : Table κ ν) (k : κ) :
    (t ∪ u).lookup k = (t.lookup k).or (u.lookup k) := by
  by_cases hk : k ∈ t
  · obtain ⟨v, hv⟩ := Option.isSome_iff_exists.1 (AList.lookup_isSome.2 hk)
    rw [AList.lookup_union_left hk, hv, Option.some_or]
  · rw [AList.lookup_union_right hk, AList.lookup_eq_none.2 hk, Option.none_or]

/-- A union never changes a lookup that succeeded on the left. -/
theorem lookup_union_of_eq_some {t u : Table κ ν} {k : κ} {v : ν} (h : t.lookup k = some v) :
    (t ∪ u).lookup k = some v := by
  rw [lookup_union, h, Option.some_or]

theorem lookup_singleton (k j : κ) (v : ν) :
    (AList.singleton k v : Table κ ν).lookup j = if j = k then some v else none := by
  by_cases h : j = k
  · subst h
    rw [if_pos rfl]
    exact List.dlookup_cons_eq ..
  · rw [if_neg h, AList.lookup_eq_none, AList.mem_keys, AList.keys_singleton]
    simpa using h

theorem lookup_put (t : Table κ ν) (k j : κ) (v : ν) :
    (put t k v).lookup j = (t.lookup j).or (if j = k then some v else none) := by
  rw [put, lookup_union, lookup_singleton]

theorem mem_put {t : Table κ ν} {k j : κ} {v : ν} : j ∈ put t k v ↔ j ∈ t ∨ j = k := by
  have hsingle : j ∈ (AList.singleton k v : Table κ ν) ↔ j = k := by
    rw [AList.mem_keys, AList.keys_singleton, List.mem_singleton]
  rw [put, AList.mem_union, hsingle]

omit [DecidableEq κ] in
theorem mem_restrict {keep : κ → Bool} {t : Table κ ν} {k : κ} :
    k ∈ restrict keep t ↔ k ∈ t ∧ keep k = true := by
  simp only [AList.mem_keys, AList.keys, List.keys, restrict, List.mem_map, List.mem_filter]
  constructor
  · rintro ⟨e, ⟨he, hkeep⟩, rfl⟩
    exact ⟨⟨e, he, rfl⟩, hkeep⟩
  · rintro ⟨⟨e, he, rfl⟩, hkeep⟩
    exact ⟨e, ⟨he, hkeep⟩, rfl⟩

theorem mem_delta {t : Table κ ν} {base : Table κ μ} {k : κ} :
    k ∈ delta t base ↔ k ∈ t ∧ k ∉ base := by
  rw [delta, mem_restrict, decide_eq_true_iff]

/-! ## Entries of a union -/

theorem kerase_eq_filter {m : List (Sigma fun _ : κ ↦ ν)} (hm : m.NodupKeys) (a : κ) :
    List.kerase a m = m.filter fun e ↦ decide (e.1 ≠ a) := by
  induction m with
  | nil => rfl
  | cons e m ih =>
    obtain ⟨hfresh, htail⟩ := List.nodupKeys_cons.1 hm
    by_cases h : a = e.1
    · have hrest : (m.filter fun e ↦ decide (e.1 ≠ a)) = m := by
        refine List.filter_eq_self.2 fun x hx ↦ decide_eq_true fun hxa ↦ hfresh ?_
        rw [← h, ← hxa]
        exact List.mem_keys_of_mem hx
      rw [List.kerase_cons_eq h, List.filter_cons_of_neg (by simp [h]), hrest]
    · rw [List.kerase_cons_ne h, ih htail, List.filter_cons_of_pos (by simp [Ne.symm h])]

theorem kunion_eq_append_filter {l m : List (Sigma fun _ : κ ↦ ν)} (hm : m.NodupKeys) :
    List.kunion l m = l ++ m.filter fun e ↦ decide (e.1 ∉ l.keys) := by
  induction l generalizing m with
  | nil => simp
  | cons a l ih =>
    have hfilter : ((m.filter fun e ↦ decide (e.1 ≠ a.1)).filter fun e ↦ decide (e.1 ∉ l.keys))
        = m.filter fun e ↦ decide (e.1 ∉ (a :: l).keys) := by
      rw [List.filter_filter]
      exact List.filter_congr fun e _ ↦ by simp [List.keys_cons, Bool.and_comm]
    rw [List.kunion_cons, ih (hm.kerase a.1), kerase_eq_filter hm, hfilter, List.cons_append]

/-- The union is the left table followed by the bindings that only the right one has. -/
theorem union_entries (t u : Table κ ν) :
    (t ∪ u).entries = t.entries ++ u.entries.filter fun e ↦ decide (e.1 ∉ t) := by
  rw [AList.union_entries, kunion_eq_append_filter u.nodupKeys]
  congr 1
  exact List.filter_congr fun e _ ↦ by simp only [AList.mem_keys, AList.keys]

/-! ## Joining less is joining the same -/

/-- Bindings that the left table already has can be left out on the right. -/
theorem union_restrict {t u : Table κ ν} {keep : κ → Bool}
    (h : ∀ k ∈ u, keep k = false → k ∈ t) : t ∪ restrict keep u = t ∪ u := by
  refine AList.ext ?_
  rw [union_entries, union_entries, restrict, List.filter_filter]
  congr 1
  refine List.filter_congr fun e he ↦ ?_
  have hmem : e.1 ∈ u := List.mem_keys_of_mem he
  cases hkeep : keep e.1 with
  | true => simp
  | false => simp [h e.1 hmem hkeep]

theorem union_delta {t u : Table κ ν} {base : Table κ μ} (h : ∀ k ∈ base, k ∈ t) :
    t ∪ delta u base = t ∪ u :=
  union_restrict fun k _ hk ↦ h k (by simpa using hk)

theorem union_union_self (t u : Table κ ν) : t ∪ u ∪ u = t ∪ u := by
  refine AList.ext ?_
  rw [union_entries (t ∪ u) u, List.filter_eq_nil_iff.2, List.append_nil]
  intro e he
  have hmem : e.1 ∈ t ∪ u := AList.mem_union.2 (.inr (List.mem_keys_of_mem he))
  simp [hmem]

theorem union_eq_left {t u : Table κ ν} (h : ∀ k ∈ u, k ∈ t) : t ∪ u = t := by
  refine AList.ext ?_
  rw [union_entries, List.filter_eq_nil_iff.2, List.append_nil]
  intro e he
  simp [h e.1 (List.mem_keys_of_mem he)]

theorem mem_of_union_eq_left {t u : Table κ ν} (h : t ∪ u = t) {k : κ} (hk : k ∈ u) : k ∈ t := by
  rw [← h]
  exact AList.mem_union.2 (.inr hk)

/-- A table that has every binding has every key. -/
theorem mem_of_lookup {t u : Table κ ν} (h : ∀ k v, t.lookup k = some v → u.lookup k = some v)
    {k : κ} (hk : k ∈ t) : k ∈ u := by
  obtain ⟨v, hv⟩ := Option.isSome_iff_exists.1 (AList.lookup_isSome.2 hk)
  exact AList.lookup_isSome.1 (Option.isSome_iff_exists.2 ⟨v, h k v hv⟩)

/-! ## Tables of tables -/

section Nested

variable {ι : Type} [DecidableEq ι]

/-- The inner table of an entry, joined with what `u` binds to the same key. -/
def joined (u : Table κ (Table ι ν)) (e : Sigma fun _ : κ ↦ Table ι ν) :
    Sigma fun _ : κ ↦ Table ι ν :=
  ⟨e.1, match u.lookup e.1 with
    | some inner => e.2 ∪ inner
    | none => e.2⟩

/-- Join what `u` binds into the inner tables of `t`. -/
def deepen (t u : Table κ (Table ι ν)) : Table κ (Table ι ν) where
  entries := t.entries.map (joined u)
  nodupKeys := by
    rw [List.NodupKeys, List.keys, List.map_map]
    exact t.nodupKeys

/-- Join two tables of tables key by key. -/
def join (t u : Table κ (Table ι ν)) : Table κ (Table ι ν) := deepen t u ∪ u

/-- The value bound to the inner key of the table bound to the outer one. -/
def lookup₂ (t : Table κ (Table ι ν)) (k : κ) (i : ι) : Option ν :=
  (t.lookup k).bind fun inner ↦ inner.lookup i

theorem deepen_entries (t u : Table κ (Table ι ν)) :
    (deepen t u).entries = t.entries.map (joined u) := rfl

theorem keys_deepen (t u : Table κ (Table ι ν)) : (deepen t u).keys = t.keys := by
  simp only [AList.keys, List.keys, deepen_entries, List.map_map]
  rfl

theorem mem_deepen {t u : Table κ (Table ι ν)} {k : κ} : k ∈ deepen t u ↔ k ∈ t := by
  rw [AList.mem_keys, AList.mem_keys, keys_deepen]

theorem dlookup_map_joined (u : Table κ (Table ι ν)) (k : κ)
    (l : List (Sigma fun _ : κ ↦ Table ι ν)) :
    (l.map (joined u)).dlookup k = (l.dlookup k).map fun a ↦ (joined u ⟨k, a⟩).2 := by
  induction l with
  | nil => rfl
  | cons e l ih =>
    obtain ⟨j, a⟩ := e
    by_cases h : k = j
    · subst h
      rw [List.map_cons, List.dlookup_cons_eq]
      exact List.dlookup_cons_eq ..
    · rw [List.map_cons, List.dlookup_cons_ne _ (joined u ⟨j, a⟩) h, ih,
        List.dlookup_cons_ne _ (⟨j, a⟩ : Sigma fun _ : κ ↦ Table ι ν) h]

theorem lookup_deepen (t u : Table κ (Table ι ν)) (k : κ) :
    (deepen t u).lookup k = (t.lookup k).map fun a ↦ (joined u ⟨k, a⟩).2 :=
  dlookup_map_joined u k t.entries

theorem lookup₂_join (t u : Table κ (Table ι ν)) (k : κ) (i : ι) :
    lookup₂ (join t u) k i = (lookup₂ t k i).or (lookup₂ u k i) := by
  rw [lookup₂, lookup₂, lookup₂, join, lookup_union, lookup_deepen]
  cases t.lookup k with
  | none => simp
  | some a =>
    cases hu : u.lookup k with
    | none => simp [joined, hu]
    | some b => simp [joined, hu, lookup_union]

theorem mem_join {t u : Table κ (Table ι ν)} {k : κ} : k ∈ join t u ↔ k ∈ t ∨ k ∈ u := by
  rw [join, AList.mem_union, mem_deepen]

theorem empty_join (u : Table κ (Table ι ν)) : join ∅ u = u := AList.empty_union

theorem join_empty (t : Table κ (Table ι ν)) : join t ∅ = t := by
  have hfix : ∀ e ∈ t.entries, joined ∅ e = e := fun _ _ ↦ rfl
  refine AList.ext ?_
  rw [join, AList.union_empty, deepen_entries, List.map_congr_left hfix, List.map_id']

/-- Joining the same tables again changes nothing. -/
theorem join_join_self (t u : Table κ (Table ι ν)) : join (join t u) u = join t u := by
  have hsub : ∀ k ∈ u, k ∈ deepen (join t u) u := fun k hk ↦ mem_deepen.2 (mem_join.2 (.inr hk))
  rw [join, union_eq_left hsub]
  refine AList.ext ?_
  have hfix : ∀ e ∈ (join t u).entries, joined u e = e := by
    intro e he
    cases hu : u.lookup e.1 with
    | none => simp only [joined, hu]
    | some b =>
      have hjoin : (join t u).lookup e.1 = some e.2 := AList.mem_lookup_iff.2 he
      rw [join, lookup_union, lookup_deepen, hu] at hjoin
      have habsorb : e.2 ∪ b = e.2 := by
        cases ht : t.lookup e.1 with
        | none =>
          rw [ht, Option.map_none, Option.none_or, Option.some.injEq] at hjoin
          rw [← hjoin, union_eq_left fun _ h ↦ h]
        | some a =>
          rw [ht, Option.map_some, Option.some_or, Option.some.injEq] at hjoin
          rw [← hjoin]
          simp only [joined, hu]
          exact union_union_self a b
      simp only [joined, hu, habsorb]
  rw [deepen_entries, List.map_congr_left hfix, List.map_id']

end Nested

end Table

end Xpact.Library
