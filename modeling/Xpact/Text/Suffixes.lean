import Xpact.Text.Scanning

/-!
# What is left to read

A scanner knows an index, a grammar the text from there on.  The searches of the parser are stated
for an index whose remaining text is known.
-/

namespace Xpact

/-- `rest` is what stands in `input` from `i` on. -/
structure RestAt (input : String8) (i : Nat) (rest : String8) : Prop where
  pos : 1 ≤ i
  index : i + rest.length = input.length + 1
  drop : input.drop (i - 1) = rest

namespace RestAt

variable {input rest u v : String8} {i : Nat} {c : Character8}

theorem of_index (hi : 1 ≤ i) (hin : i ≤ input.length + 1) :
    RestAt input i (input.drop (i - 1)) := by
  refine ⟨hi, ?_, rfl⟩
  rw [List.length_drop]
  omega

theorem append (h : RestAt input i (u ++ v)) : RestAt input (i + u.length) v := by
  have hindex := h.index
  rw [List.length_append] at hindex
  have hpos := h.pos
  refine ⟨by omega, by omega, ?_⟩
  rw [show i + u.length - 1 = i - 1 + u.length by omega, ← List.drop_drop, h.drop, List.drop_left]

theorem cons (h : RestAt input i (c :: v)) : RestAt input (i + 1) v := append (u := [c]) h

theorem le (h : RestAt input i (c :: v)) : i ≤ input.length := by
  have hindex := h.index
  rw [List.length_cons] at hindex
  omega

theorem lt_of_nil (h : RestAt input i []) : input.length < i := by
  have hindex := h.index
  rw [List.length_nil] at hindex
  omega

theorem item (h : RestAt input i (c :: v)) : input.item i = c := by
  have hfirst : (input.drop (i - 1))[0]? = some c := by rw [h.drop, List.getElem?_cons_zero]
  rw [List.getElem?_drop, Nat.add_zero] at hfirst
  unfold String8.item
  rw [List.getD_eq_getElem?_getD, hfirst, Option.getD_some]

theorem exists_cons (h : RestAt input i rest) (hin : i ≤ input.length) :
    ∃ v, rest = input.item i :: v := by
  cases hrest : rest with
  | nil =>
    rw [hrest] at h
    exact absurd h.lt_of_nil (by omega)
  | cons c v =>
    rw [hrest] at h
    exact ⟨v, by rw [h.item]⟩

theorem hasAt_iff (h : RestAt input i rest) (marker : String8) :
    hasAt input i marker = true ↔ marker <+: rest := by
  unfold hasAt
  rw [List.isPrefixOf_iff_prefix, h.drop]

theorem substring (h : RestAt input i (u ++ v)) : input.substring i (i + u.length - 1) = u := by
  have hpos := h.pos
  have hindex := h.index
  rw [List.length_append] at hindex
  unfold String8.substring
  by_cases hu : u = []
  · rw [if_neg (by rw [hu, List.length_nil]; omega), hu]
  · have hlength := List.length_pos_iff.2 hu
    rw [if_pos (by omega), h.drop, show i + u.length - 1 + 1 - i = u.length by omega,
      List.take_left]

/-- The rest is the substring up to the end. -/
theorem substring_length (h : RestAt input i (c :: v)) :
    input.substring i input.length = c :: v := by
  have hindex := h.index
  have hsub := substring (v := []) (by rw [List.append_nil]; exact h)
  rwa [show i + (c :: v).length - 1 = input.length by omega] at hsub

/-- What a substring shows of the rest. -/
theorem of_substring (h : RestAt input i rest) {j : Nat} (hij : i ≤ j) (hj : j ≤ input.length + 1) :
    rest = input.substring i (j - 1) ++ input.drop (j - 1) ∧
      j = i + (input.substring i (j - 1)).length := by
  have hpos := h.pos
  have hindex := h.index
  have hsplit : rest = rest.take (j - i) ++ input.drop (j - 1) := by
    rw [show j - 1 = i - 1 + (j - i) by omega, ← List.drop_drop, h.drop, List.take_append_drop]
  have hlength : (rest.take (j - i)).length = j - i := by
    rw [List.length_take]
    omega
  have hpart : input.substring i (j - 1) = rest.take (j - i) := by
    rw [hsplit] at h
    have hsub := h.substring
    rwa [hlength, show i + (j - i) - 1 = j - 1 by omega] at hsub
  rw [hpart, hlength]
  exact ⟨hsplit, by omega⟩

/-! ## White space -/

theorem takeWhile_spaces (hspaces : ∀ c ∈ u, isXmlSpace c = true)
    (hends : ∀ c ∈ v.head?, isXmlSpace c = false) : (u ++ v).takeWhile isXmlSpace = u := by
  rw [List.takeWhile_append_of_pos hspaces]
  cases v with
  | nil => rw [List.takeWhile_nil, List.append_nil]
  | cons c v =>
    rw [List.takeWhile_cons_of_neg (by rw [hends c rfl]; exact Bool.false_ne_true), List.append_nil]

theorem skipSpaces (h : RestAt input i (u ++ v)) (hspaces : ∀ c ∈ u, isXmlSpace c = true)
    (hends : ∀ c ∈ v.head?, isXmlSpace c = false) : skipSpaces input i = i + u.length := by
  unfold Xpact.skipSpaces
  rw [h.drop, takeWhile_spaces hspaces hends]

/-- The white space at an index, and where a scanner goes on. -/
theorem exists_spaces (h : RestAt input i rest) :
    ∃ u v, rest = u ++ v ∧ (∀ c ∈ u, isXmlSpace c = true) ∧
      (∀ c ∈ v.head?, isXmlSpace c = false) ∧ Xpact.skipSpaces input i = i + u.length ∧
        RestAt input (Xpact.skipSpaces input i) v := by
  have hsplit := List.takeWhile_append_dropWhile (p := isXmlSpace) (l := rest)
  have hskip : Xpact.skipSpaces input i = i + (rest.takeWhile isXmlSpace).length := by
    unfold Xpact.skipSpaces
    rw [h.drop]
  refine ⟨rest.takeWhile isXmlSpace, rest.dropWhile isXmlSpace, hsplit.symm, ?_, ?_, hskip, ?_⟩
  · exact List.all_eq_true.1 List.all_takeWhile
  · intro c hc
    have hhead := List.head?_dropWhile_not isXmlSpace rest
    rw [Option.mem_def.1 hc] at hhead
    exact hhead
  · rw [hskip]
    exact append (by rw [hsplit]; exact h)

end RestAt

theorem le_skipSpaces (input : String8) (i : Nat) : i ≤ skipSpaces input i := Nat.le_add_right i _

theorem skipSpaces_le_length {input : String8} {i : Nat} (hi : i ≤ input.length + 1) :
    skipSpaces input i ≤ input.length + 1 := by
  have hlength := (List.takeWhile_prefix (l := input.drop (i - 1)) isXmlSpace).length_le
  rw [List.length_drop] at hlength
  unfold skipSpaces
  omega

/-- A marker lies in the text. -/
theorem add_length_le_of_hasAt {input marker : String8} {i : Nat}
    (h : hasAt input i marker = true) (hmarker : 0 < marker.length) (hi : 1 ≤ i) :
    i + marker.length ≤ input.length + 1 := by
  have hlength := (List.isPrefixOf_iff_prefix.1 h).length_le
  rw [List.length_drop] at hlength
  omega

/-- White space ends before every character that is none. -/
theorem skipSpaces_le {input : String8} {i close : Nat} (hpos : 1 ≤ i) (hi : i ≤ close)
    (hin : close ≤ input.length) (hclose : isXmlSpace (input.item close) = false) :
    skipSpaces input i ≤ close := by
  have hat : RestAt input i (input.drop (i - 1)) := .of_index hpos (by omega)
  obtain ⟨u, v, hrest, hspaces, -, hskip, -⟩ := hat.exists_spaces
  rw [hskip]
  apply Nat.le_of_not_lt
  intro hlt
  have hitem : u[close - i]? = some (input.item close) := by
    have hpart : (u ++ v)[close - i]? = u[close - i]? := List.getElem?_append_left (by omega)
    rw [← hpart, ← hrest, List.getElem?_drop, show i - 1 + (close - i) = close - 1 by omega,
      List.getElem?_eq_getElem (by omega)]
    unfold String8.item
    rw [List.getD_eq_getElem?_getD, List.getElem?_eq_getElem (by omega), Option.getD_some]
  rw [hspaces _ (List.mem_of_getElem? hitem)] at hclose
  cases hclose

namespace RestAt

variable {input rest u v : String8} {i : Nat} {c : Character8}

/-! ## A character -/

theorem findCharacter (h : RestAt input i (u ++ c :: v)) (hc : c ∉ u) :
    findCharacter input c i = i + u.length := by
  have hfirst : (u ++ c :: v).findIdx? (· == c) = some u.length := by
    rw [List.findIdx?_append, List.findIdx?_eq_none_iff.2, Option.none_or, List.findIdx?_cons,
      beq_self_eq_true]
    · simp
    · intro d hd
      exact beq_false_of_ne fun hdc ↦ hc (hdc ▸ hd)
  unfold Xpact.findCharacter String8.indexOf
  rw [h.drop, hfirst]

theorem findCharacter_eq_zero (h : RestAt input i rest) (hc : c ∉ rest) :
    Xpact.findCharacter input c i = 0 := by
  have hnone : rest.findIdx? (· == c) = none := by
    rw [List.findIdx?_eq_none_iff]
    intro d hd
    exact beq_false_of_ne fun hdc ↦ hc (hdc ▸ hd)
  unfold Xpact.findCharacter String8.indexOf
  rw [h.drop, hnone]

theorem exists_of_findCharacter (h : RestAt input i rest)
    (hfound : Xpact.findCharacter input c i ≠ 0) :
    ∃ u v, rest = u ++ c :: v ∧ c ∉ u ∧ Xpact.findCharacter input c i = i + u.length := by
  by_cases hc : c ∈ rest
  · obtain ⟨u, v, hrest, hu⟩ := List.eq_append_cons_of_mem hc
    rw [hrest] at h
    exact ⟨u, v, hrest, hu, h.findCharacter hu⟩
  · exact absurd (h.findCharacter_eq_zero hc) hfound

end RestAt

end Xpact
