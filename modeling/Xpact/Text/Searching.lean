import Xpact.Text.Scanning
import Xpact.Library.Delimiters

/-!
# Searches in a text that grows

What is found in a text is found at the same place when more bytes arrive.  The searches that step
over quotes, comments and processing instructions are searches for a visible delimiter.
-/

namespace Xpact

open Library

/-! ## More bytes -/

theorem findMarkupEndIn_append {rest : String8} {quote : Option Character8} {i close : Nat}
    (h : findMarkupEndIn quote rest i = close) (hclose : close ≠ 0) (more : String8) :
    findMarkupEndIn quote (rest ++ more) i = close := by
  induction rest generalizing quote i with
  | nil =>
    cases quote <;> exact absurd h.symm hclose
  | cons c rest ih =>
    cases quote with
    | some q => exact ih h
    | none =>
      rw [List.cons_append]
      unfold findMarkupEndIn at h ⊢
      split
      · rename_i hquote
        rw [if_pos hquote] at h
        exact ih h
      rename_i hquote
      rw [if_neg hquote] at h
      split
      · rename_i hend
        rwa [if_pos hend] at h
      · rename_i hend
        rw [if_neg hend] at h
        exact ih h

theorem findMarkupEndIn_le {rest : String8} {quote : Option Character8} {i : Nat} (hi : 0 < i) :
    findMarkupEndIn quote rest i ≠ 0 →
      i ≤ findMarkupEndIn quote rest i ∧ findMarkupEndIn quote rest i < i + rest.length := by
  induction rest generalizing quote i with
  | nil =>
    intro h
    cases quote <;> exact absurd rfl h
  | cons c rest ih =>
    have hnext {quote : Option Character8} (h : findMarkupEndIn quote rest (i + 1) ≠ 0) :
        i ≤ findMarkupEndIn quote rest (i + 1) ∧
          findMarkupEndIn quote rest (i + 1) < i + (rest.length + 1) := by
      have := ih (by omega) h
      omega
    cases quote with
    | some q => exact hnext
    | none =>
      unfold findMarkupEndIn
      rw [List.length_cons]
      split
      · exact hnext
      split
      · intro _
        omega
      · exact hnext

theorem findSequenceIn_le {marker rest : String8} {i : Nat} (hi : 0 < i) :
    findSequenceIn marker rest i ≠ 0 →
      i ≤ findSequenceIn marker rest i ∧
        findSequenceIn marker rest i + marker.length ≤ i + rest.length := by
  induction rest generalizing i with
  | nil =>
    intro h
    exact absurd rfl h
  | cons c rest ih =>
    unfold findSequenceIn
    split
    · rename_i hpre
      intro _
      have := (List.isPrefixOf_iff_prefix.1 hpre).length_le
      omega
    · intro h
      have := ih (by omega) h
      rw [List.length_cons]
      omega

/-- A marker that is found is found at the same place when more bytes arrive. -/
theorem findSequenceIn_append {marker rest : String8} {i : Nat}
    (h : findSequenceIn marker rest i ≠ 0) (more : String8) :
    findSequenceIn marker (rest ++ more) i = findSequenceIn marker rest i := by
  induction rest generalizing i with
  | nil => exact absurd rfl h
  | cons c rest ih =>
    rw [List.cons_append]
    unfold findSequenceIn at h ⊢
    by_cases hpre : marker.isPrefixOf (c :: rest) = true
    · rw [if_pos hpre, if_pos]
      rw [List.isPrefixOf_iff_prefix] at hpre ⊢
      exact hpre.trans (List.prefix_append (c :: rest) more)
    · rw [if_neg hpre] at h ⊢
      -- The marker stands in `rest`, so what arrived later is no part of an earlier one.
      have hle := findSequenceIn_le (Nat.succ_pos i) h
      rw [if_neg, ih h]
      intro hlate
      rw [List.isPrefixOf_iff_prefix] at hpre hlate
      apply hpre
      apply List.prefix_of_prefix_length_le hlate (List.prefix_append (c :: rest) more)
      rw [List.length_cons]
      omega

/-- A search that found nothing need not look again where a whole marker would have been seen. -/
theorem findSequenceIn_resume {marker text : String8} (hmarker : marker ≠ []) {i j : Nat}
    (hi : 0 < i) (h : findSequenceIn marker text i = 0)
    (hj : j = 0 ∨ j + marker.length ≤ text.length + 1) (more : String8) :
    findSequenceIn marker (text ++ more) i =
      findSequenceIn marker ((text ++ more).drop j) (i + j) := by
  have hpositive := List.length_pos_iff.2 hmarker
  induction j generalizing text i with
  | zero => rfl
  | succ j ih =>
    have hfits : j + 1 + marker.length ≤ text.length + 1 := hj.resolve_left (by omega)
    cases text with
    | nil =>
      rw [List.length_nil] at hfits
      omega
    | cons c rest =>
      rw [List.length_cons] at hfits
      by_cases hpre : marker.isPrefixOf (c :: rest) = true
      · unfold findSequenceIn at h
        rw [if_pos hpre] at h
        omega
      · unfold findSequenceIn at h
        rw [if_neg hpre] at h
        have hlate : ¬ marker.isPrefixOf (c :: (rest ++ more)) = true := by
          rw [List.isPrefixOf_iff_prefix] at hpre ⊢
          intro hlate
          apply hpre
          apply List.prefix_of_prefix_length_le hlate (List.prefix_append (c :: rest) more)
          rw [List.length_cons]
          omega
        rw [List.cons_append, List.drop_succ_cons, show i + (j + 1) = i + 1 + j by omega,
          ← ih (by omega) h (by omega)]
        conv_lhs => unfold findSequenceIn
        rw [if_neg hlate]

/-- Nothing ends the markup where no `>` stands. -/
theorem findMarkupEndIn_eq_zero {text : String8} (h : ('>' : Character8) ∉ text)
    (quote : Option Character8) (i : Nat) : findMarkupEndIn quote text i = 0 := by
  induction text generalizing quote i with
  | nil => cases quote <;> rfl
  | cons c rest ih =>
    have hrest := ih (fun hmem ↦ h (List.mem_cons_of_mem c hmem))
    have hc : c ≠ '>' := fun hc ↦ h (hc ▸ List.mem_cons_self)
    cases quote with
    | some q => exact hrest _ _
    | none =>
      unfold findMarkupEndIn
      rw [if_neg hc]
      split <;> exact hrest _ _

/-! ## A closer and a search for it -/

theorem drop_eq_item_cons {input : String8} {i : Nat} (hi : 1 ≤ i) (hin : i ≤ input.length) :
    input.drop (i - 1) = input.item i :: input.drop i := by
  have hlt : i - 1 < input.length := by omega
  rw [List.drop_eq_getElem_cons hlt, show i - 1 + 1 = i by omega]
  unfold String8.item
  rw [List.getD_eq_getElem?_getD, List.getElem?_eq_getElem hlt, Option.getD_some]

/-- A block ends where the search for its closer finds it. -/
theorem scan_block_eq {σ : Type} (D : Delimiters Character8 σ) {closer : String8}
    (hcloser : closer ≠ []) (s : σ) (text : String8) {i : Nat} (hi : 1 ≤ i) :
    D.scan (.block closer) s 0 text i =
      if findSequenceIn closer text i = 0 then none
      else D.scan .visible s 0 (text.drop (findSequenceIn closer text i + closer.length - i))
        (findSequenceIn closer text i + closer.length) := by
  induction text generalizing i with
  | nil => rfl
  | cons c rest ih =>
    rw [Delimiters.scan_block_cons]
    unfold findSequenceIn
    by_cases hpre : closer.isPrefixOf (c :: rest) = true
    · have hpositive := List.length_pos_iff.2 hcloser
      rw [if_pos hpre, if_pos hpre, if_neg (by omega), D.scan_skip,
        show i + closer.length - i = closer.length - 1 + 1 by omega, List.drop_succ_cons,
        show i + 1 + (closer.length - 1) = i + closer.length by omega]
    · rw [if_neg hpre, if_neg hpre, ih (by omega)]
      split
      · rfl
      · rename_i hfound
        have hle := findSequenceIn_le (show 0 < i + 1 by omega) hfound
        rw [show findSequenceIn closer rest (i + 1) + closer.length - i =
          findSequenceIn closer rest (i + 1) + closer.length - (i + 1) + 1 by omega,
          List.drop_succ_cons]

/-- A search in the first `m` characters finds what ends there. -/
theorem findSequenceIn_take {marker : String8} (hmarker : marker ≠ []) (text : String8) (m : Nat)
    {i : Nat} (hi : 1 ≤ i) :
    findSequenceIn marker (text.take m) i =
      if findSequenceIn marker text i + marker.length ≤ i + m then findSequenceIn marker text i
      else 0 := by
  have hpositive := List.length_pos_iff.2 hmarker
  -- Nothing is found before the index at which the search begins.
  have hnone {k : Nat} (h : k = 0 ∨ i + m < k + marker.length) :
      0 = if k + marker.length ≤ i + m then k else 0 := by
    split <;> omega
  induction text generalizing m i with
  | nil =>
    rw [List.take_nil]
    exact hnone (Or.inl rfl)
  | cons c rest ih =>
    by_cases hpre : marker.isPrefixOf (c :: rest) = true
    · have hwhole : findSequenceIn marker (c :: rest) i = i := by
        unfold findSequenceIn
        rw [if_pos hpre]
      rw [hwhole]
      by_cases hfits : marker.length ≤ m
      · obtain ⟨k, rfl⟩ : ∃ k, m = k + 1 := ⟨m - 1, by omega⟩
        have hcut : marker.isPrefixOf (c :: rest.take k) = true := by
          rw [List.isPrefixOf_iff_prefix] at hpre ⊢
          exact (List.prefix_take_iff (i := k + 1)).2 ⟨hpre, hfits⟩
        rw [List.take_succ_cons, if_pos (by omega)]
        unfold findSequenceIn
        rw [if_pos hcut]
      · rw [if_neg (by omega)]
        by_contra hfound
        have hle := findSequenceIn_le hi hfound
        rw [List.length_take] at hle
        omega
    · have hwhole : findSequenceIn marker (c :: rest) i = findSequenceIn marker rest (i + 1) := by
        conv_lhs => unfold findSequenceIn
        rw [if_neg hpre]
      rw [hwhole]
      cases m with
      | zero =>
        apply hnone
        by_cases hfound : findSequenceIn marker rest (i + 1) = 0
        · exact Or.inl hfound
        · have hle := findSequenceIn_le (show 0 < i + 1 by omega) hfound
          omega
      | succ m =>
        have hcut : ¬ marker.isPrefixOf (c :: rest.take m) = true := by
          rw [List.isPrefixOf_iff_prefix] at hpre ⊢
          exact fun h ↦ hpre (h.trans (List.take_prefix (m + 1) (c :: rest)))
        rw [List.take_succ_cons]
        conv_lhs => unfold findSequenceIn
        rw [if_neg hcut, ih m (by omega) (fun h ↦ by split <;> omega),
          show i + 1 + m = i + (m + 1) by omega]

/-! ## Where a marker stands -/

/-- A marker that is found stands there. -/
theorem exists_of_findSequenceIn {marker text : String8} {i : Nat}
    (h : findSequenceIn marker text i ≠ 0) :
    ∃ u v, text = u ++ (marker ++ v) ∧ findSequenceIn marker text i = i + u.length := by
  induction text generalizing i with
  | nil => exact absurd rfl h
  | cons c rest ih =>
    unfold findSequenceIn at h ⊢
    by_cases hpre : marker.isPrefixOf (c :: rest) = true
    · obtain ⟨v, hv⟩ := List.isPrefixOf_iff_prefix.1 hpre
      rw [if_pos hpre]
      exact ⟨[], v, hv.symm, rfl⟩
    · rw [if_neg hpre] at h ⊢
      obtain ⟨u, v, hrest, hfound⟩ := ih h
      refine ⟨c :: u, v, by rw [hrest]; rfl, ?_⟩
      rw [hfound, List.length_cons]
      omega

/-- A marker that stands somewhere is found, there or before. -/
theorem findSequenceIn_inside {marker u v : String8} (hmarker : marker ≠ []) {i : Nat}
    (hi : 0 < i) :
    0 < findSequenceIn marker (u ++ (marker ++ v)) i ∧
      findSequenceIn marker (u ++ (marker ++ v)) i ≤ i + u.length := by
  induction u generalizing i with
  | nil =>
    obtain ⟨c, rest, rfl⟩ := List.exists_cons_of_ne_nil hmarker
    rw [List.nil_append, List.cons_append, findSequenceIn, if_pos]
    · exact ⟨hi, by omega⟩
    · exact List.isPrefixOf_iff_prefix.2 ⟨v, rfl⟩
  | cons c u ih =>
    rw [List.cons_append, findSequenceIn, List.length_cons]
    split
    · exact ⟨hi, by omega⟩
    · have := @ih (i + 1) (by omega)
      omega

/-- A marker is not found in a part without one of its characters. -/
theorem findSequenceIn_skip {marker u v : String8} {c : Character8} {k i : Nat}
    (hc : marker[k]? = some c) (hu : c ∉ u) (hv : c ∉ v.take k) :
    findSequenceIn marker (u ++ v) i = findSequenceIn marker v (i + u.length) := by
  induction u generalizing i with
  | nil => rfl
  | cons d u ih =>
    rw [List.mem_cons, not_or] at hu
    rw [List.cons_append, findSequenceIn, if_neg, ih hu.2, List.length_cons]
    · congr 1
      omega
    · intro hpre
      obtain ⟨w, hw⟩ := List.isPrefixOf_iff_prefix.1 hpre
      -- The character would stand in the part, or close behind it.
      have hat : (d :: (u ++ v))[k]? = some c := by
        rw [← hw, List.getElem?_append_left (List.getElem?_eq_some_iff.1 hc).1, hc]
      have hmem : c ∈ (d :: (u ++ v)).take (k + 1) := by
        apply List.mem_of_getElem? (i := k)
        rw [List.getElem?_take, if_pos (Nat.lt_succ_self k), hat]
      rw [List.take_succ_cons, List.mem_cons] at hmem
      rcases hmem with hmem | hmem
      · exact hu.1 hmem
      rw [List.take_append, List.mem_append] at hmem
      rcases hmem with hmem | hmem
      · exact hu.2 (List.mem_of_mem_take hmem)
      · exact hv ((List.take_subset_take_left v (Nat.sub_le k u.length)) hmem)

end Xpact
