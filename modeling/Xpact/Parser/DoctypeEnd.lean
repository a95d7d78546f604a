import Xpact.Grammar.Coverage
import Xpact.Text.Searching

/-!
# The end of a document type declaration

`find_doctype_end` and `find_subset_end` look for a closing delimiter character by character.  Both
are searches for a visible delimiter, so they find the one of the grammar.
-/

namespace Xpact

open Library Grammar Computability

/-! ## The two searches -/

/-- The delimiters of `find_doctype_end`; the state is the bracket depth. -/
def doctypeDelimiters : Delimiters Character8 Nat where
  isQuote := isQuote
  blocks depth := if 0 < depth then subsetBlocks else []
  next depth c :=
    if c = '[' then some (depth + 1)
    else if c = ']' ∧ 0 < depth then some (depth - 1)
    else if c = '>' ∧ depth = 0 then none
    else some depth

/-- The delimiters of `find_subset_end`. -/
def subsetDelimiters : Delimiters Character8 Unit where
  isQuote := isQuote
  blocks _ := subsetBlocks
  next _ c := if c = ']' then none else some ()

theorem readsText_doctype : ReadsText doctypeDelimiters 0 where
  isQuote := rfl
  blocks := by
    intro b hb
    cases hb
  next := by
    intro c hc
    have hopen : c ≠ ('[' : Character8) := ne_of_isOrdinary hc (by decide)
    have hclose : c ≠ ('>' : Character8) := ne_of_isOrdinary hc (by decide)
    simp [doctypeDelimiters, hopen, hclose]

theorem readsMarkup_doctype (depth : Nat) : ReadsMarkup doctypeDelimiters (depth + 1) where
  isQuote := rfl
  blocks := by
    show ∀ b ∈ subsetBlocks, _
    decide
  next := by
    intro c hc
    have hopen : c ≠ ('[' : Character8) := ne_of_isOrdinary hc (by decide)
    have hclose : c ≠ (']' : Character8) := ne_of_isOrdinary hc (by decide)
    simp [doctypeDelimiters, hopen, hclose]
  blocks_eq := rfl
  angle := by
    intro c hc
    have hopen : ∀ d ∈ str "<>", d ≠ ('[' : Character8) := by decide
    have hclose : ∀ d ∈ str "<>", d ≠ (']' : Character8) := by decide
    simp [doctypeDelimiters, hopen c hc, hclose c hc]

theorem readsMarkup_subset : ReadsMarkup subsetDelimiters () where
  isQuote := rfl
  blocks := by
    show ∀ b ∈ subsetBlocks, _
    decide
  next := by
    intro c hc
    have hclose : c ≠ (']' : Character8) := ne_of_isOrdinary hc (by decide)
    simp [subsetDelimiters, hclose]
  blocks_eq := rfl
  angle := by
    intro c hc
    have hclose : ∀ d ∈ str "<>", d ≠ (']' : Character8) := by decide
    simp [subsetDelimiters, hclose c hc]

/-! ## Comments and processing instructions -/

section

variable {σ : Type} {D : Delimiters Character8 σ} {s : σ}

/-- Passing over a block in the first `stop` characters. -/
theorem scan_block_at (opener closer : String8) {input : String8} {i stop : Nat}
    (hblock : ∀ rest, D.blockAt s (opener ++ rest) = some (opener, closer))
    (hcut : ∀ p, p <+: opener → p ≠ opener → D.scan .visible s 0 p i = none)
    (hopener : opener ≠ []) (hcloser : closer ≠ []) (hi : 1 ≤ i) (hstop : stop ≤ input.length)
    (hat : hasAt input i opener = true) :
    D.scan .visible s 0 ((input.take stop).drop (i - 1)) i =
      if 0 < findSequence input closer (i + opener.length) ∧
          findSequence input closer (i + opener.length) + closer.length ≤ stop + 1 then
        D.scan .visible s 0
          ((input.take stop).drop
            (findSequence input closer (i + opener.length) + closer.length - 1))
          (findSequence input closer (i + opener.length) + closer.length)
      else none := by
  unfold hasAt at hat
  rw [List.isPrefixOf_iff_prefix] at hat
  have hpositive := List.length_pos_iff.2 hcloser
  have hfirst := List.length_pos_iff.2 hopener
  have hbehind : findSequence input closer (i + opener.length) ≠ 0 →
      i + opener.length ≤ findSequence input closer (i + opener.length) :=
    fun h ↦ (findSequenceIn_le (by omega) h).1
  by_cases hfits : i - 1 + opener.length ≤ stop
  · have htext : (input.take stop).drop (i - 1) =
        opener ++ (input.take stop).drop (i + opener.length - 1) := by
      have hopen : opener <+: (input.take stop).drop (i - 1) := by
        rw [List.drop_take]
        exact List.prefix_take_iff.2 ⟨hat, by omega⟩
      rw [← List.prefix_iff_eq_append.1 hopen, List.drop_drop,
        show i - 1 + opener.length = i + opener.length - 1 by omega]
    have hsearch : findSequenceIn closer ((input.take stop).drop (i + opener.length - 1))
        (i + opener.length) =
          if findSequence input closer (i + opener.length) + closer.length ≤ stop + 1 then
            findSequence input closer (i + opener.length)
          else 0 := by
      rw [List.drop_take, findSequenceIn_take hcloser _ _ (by omega),
        show i + opener.length + (stop - (i + opener.length - 1)) = stop + 1 by omega]
      rfl
    rw [htext, D.scan_visible_block (hblock _) hopener, List.drop_left,
      scan_block_eq D hcloser s _ (by omega), hsearch]
    generalize findSequence input closer (i + opener.length) = close at *
    by_cases hfound : 0 < close ∧ close + closer.length ≤ stop + 1
    · have hstart := hbehind (by omega)
      rw [if_pos hfound, if_pos hfound.2, if_neg (by omega), List.drop_drop,
        show i + opener.length - 1 + (close + closer.length - (i + opener.length)) =
          close + closer.length - 1 by omega]
    · rw [if_neg hfound, if_pos]
      split <;> omega
  · -- The text stops within the opener.
    have hshort : (input.take stop).drop (i - 1) <+: opener := by
      rw [List.drop_take]
      refine List.prefix_of_prefix_length_le (List.take_prefix _ _) hat ?_
      rw [List.length_take]
      omega
    rw [hcut _ hshort, if_neg]
    · omega
    · intro heq
      have hlength := congrArg List.length heq
      rw [List.length_drop, List.length_take] at hlength
      omega

theorem find_subsetBlocks (text : String8) :
    subsetBlocks.find? (fun b ↦ b.1.isPrefixOf text) =
      if (str "<!--").isPrefixOf text then some (str "<!--", str "-->")
      else if (str "<?").isPrefixOf text then some (str "<?", str "?>")
      else none := by
  unfold subsetBlocks
  rw [List.find?_cons, List.find?_cons, List.find?_nil]
  cases (str "<!--").isPrefixOf text <;> cases (str "<?").isPrefixOf text <;> rfl

/-- `index_after_subset_comment_or_pi` leads to where the search is visible again. -/
theorem Grammar.ReadsMarkup.scan_comment_or_pi (h : ReadsMarkup D s) {input : String8} {i stop : Nat}
    (hi : 1 ≤ i) (hstop : stop ≤ input.length) (hat : beginsCommentOrPi input i = true) :
    D.scan .visible s 0 ((input.take stop).drop (i - 1)) i =
      D.scan .visible s 0
        ((input.take stop).drop (indexAfterSubsetCommentOrPi input i stop - 1))
        (indexAfterSubsetCommentOrPi input i stop) := by
  have hover : D.scan .visible s 0 ((input.take stop).drop (stop + 1 - 1)) (stop + 1) = none := by
    rw [Nat.add_sub_cancel, List.drop_eq_nil_of_le (by rw [List.length_take]; omega), D.scan_nil]
  unfold indexAfterSubsetCommentOrPi
  by_cases hcomment : hasAt input i (str "<!--") = true
  · have hscan := scan_block_at (D := D) (s := s) (i := i) (str "<!--") (str "-->")
      ?_ ?_ (by decide) (by decide) hi hstop hcomment
    · have hopener : (str "<!--").length = 4 := by decide
      have hcloser : (str "-->").length = 3 := by decide
      rw [hopener, hcloser] at hscan
      rw [if_pos hcomment, hscan]
      by_cases hfound : 0 < findSequence input (str "-->") (i + 4) ∧
          findSequence input (str "-->") (i + 4) + 2 ≤ stop
      · rw [if_pos hfound, if_pos (by omega)]
      · rw [if_neg hfound, if_neg (by omega), hover]
    · intro rest
      unfold Delimiters.blockAt
      rw [h.blocks_eq]
      rfl
    · exact fun p hp hne ↦ h.scan_cut (w := str "!--") (by decide) (by decide) p hp hne i
  · have hpi : hasAt input i (str "<?") = true := by
      unfold beginsCommentOrPi at hat
      rw [Bool.or_eq_true] at hat
      exact hat.resolve_left hcomment
    have hscan := scan_block_at (D := D) (s := s) (i := i) (str "<?") (str "?>")
      ?_ ?_ (by decide) (by decide) hi hstop hpi
    · have hopener : (str "<?").length = 2 := by decide
      have hcloser : (str "?>").length = 2 := by decide
      rw [hopener, hcloser] at hscan
      rw [if_neg hcomment, hscan]
      by_cases hfound : 0 < findSequence input (str "?>") (i + 2) ∧
          findSequence input (str "?>") (i + 2) + 1 ≤ stop
      · rw [if_pos hfound, if_pos (by omega)]
      · rw [if_neg hfound, if_neg (by omega), hover]
    · intro rest
      unfold Delimiters.blockAt
      rw [h.blocks_eq]
      rfl
    · exact fun p hp hne ↦ h.scan_cut (w := str "?") (by decide) (by decide) p hp hne i

end

/-! ## The scanners are these searches -/

/-- The mode in which a scanner is that keeps an open quote. -/
def scanMode : Option Character8 → ScanMode Character8
  | none => .visible
  | some q => .quoted q

theorem beginsCommentOrPi_iff {input : String8} {i : Nat} :
    beginsCommentOrPi input i = true ↔
      subsetBlocks.find? (fun b ↦ b.1.isPrefixOf (input.drop (i - 1))) ≠ none := by
  rw [find_subsetBlocks]
  unfold beginsCommentOrPi hasAt
  cases (str "<!--").isPrefixOf (input.drop (i - 1)) <;>
    cases (str "<?").isPrefixOf (input.drop (i - 1)) <;> simp

theorem beginsCommentOrPi_head {input : String8} {i : Nat} {c : Character8} {rest : String8}
    (hdrop : input.drop (i - 1) = c :: rest) (h : beginsCommentOrPi input i = true) :
    c = ('<' : Character8) := by
  unfold beginsCommentOrPi hasAt at h
  rw [hdrop, Bool.or_eq_true, List.isPrefixOf_iff_prefix, List.isPrefixOf_iff_prefix] at h
  cases h with
  | inl h => exact (List.cons_prefix_cons.1 h).1.symm
  | inr h => exact (List.cons_prefix_cons.1 h).1.symm

theorem hasAt_of_take {input marker : String8} {stop i : Nat}
    (h : hasAt (input.take stop) i marker = true) : hasAt input i marker = true := by
  unfold hasAt at h ⊢
  rw [List.isPrefixOf_iff_prefix] at h ⊢
  rw [List.drop_take] at h
  exact h.trans (List.take_prefix _ _)

theorem beginsCommentOrPi_of_take {input : String8} {stop i : Nat}
    (h : beginsCommentOrPi (input.take stop) i = true) : beginsCommentOrPi input i = true := by
  unfold beginsCommentOrPi at h ⊢
  rw [Bool.or_eq_true] at h ⊢
  cases h with
  | inl h => exact Or.inl (hasAt_of_take h)
  | inr h => exact Or.inr (hasAt_of_take h)

/-- The scan always gets on. -/
theorem lt_indexAfterSubsetCommentOrPi {input : String8} {i stop : Nat} (hstop : i ≤ stop) :
    i < indexAfterSubsetCommentOrPi input i stop := by
  have hafter {marker : String8} {n : Nat} (hn : 0 < n)
      (h : 0 < findSequence input marker (i + n)) : i + n ≤ findSequence input marker (i + n) :=
    (findSequenceIn_le (show 0 < i + n by omega) (by unfold findSequence at h; omega)).1
  unfold indexAfterSubsetCommentOrPi
  by_cases hcomment : hasAt input i (str "<!--") = true
  · rw [if_pos hcomment]
    by_cases hfound : 0 < findSequence input (str "-->") (i + 4) ∧
        findSequence input (str "-->") (i + 4) + 2 ≤ stop
    · have hle := hafter (by omega) hfound.1
      rw [if_pos hfound]
      omega
    · rw [if_neg hfound]
      omega
  · rw [if_neg hcomment]
    by_cases hfound : 0 < findSequence input (str "?>") (i + 2) ∧
        findSequence input (str "?>") (i + 2) + 1 ≤ stop
    · have hle := hafter (by omega) hfound.1
      rw [if_pos hfound]
      omega
    · rw [if_neg hfound]
      omega

theorem findDoctypeEndFrom_eq (input : String8) {n i : Nat} (quote : Option Character8)
    (depth : Nat) (hi : 1 ≤ i) (hn : input.length + 2 ≤ n + i) :
    findDoctypeEndFrom input n quote depth i =
      (doctypeDelimiters.scan (scanMode quote) depth 0 (input.drop (i - 1)) i).getD 0 := by
  induction n generalizing quote depth i with
  | zero =>
    rw [List.drop_eq_nil_of_le (by omega), Delimiters.scan_nil]
    rfl
  | succ n ih =>
    unfold findDoctypeEndFrom
    by_cases hin : input.length < i
    · rw [if_pos hin, List.drop_eq_nil_of_le (by omega), Delimiters.scan_nil]
      rfl
    rw [if_neg hin]
    have hdrop := drop_eq_item_cons hi (Nat.le_of_not_lt hin)
    have hnext (quote : Option Character8) (depth : Nat) :
        findDoctypeEndFrom input n quote depth (i + 1) =
          (doctypeDelimiters.scan (scanMode quote) depth 0 (input.drop i) (i + 1)).getD 0 :=
      ih quote depth (by omega) (by omega)
    cases quote with
    | some q =>
      dsimp only
      rw [hnext, hdrop]
      unfold scanMode
      rw [Delimiters.scan_quoted_cons]
      by_cases hclose : input.item i = q
      · rw [if_pos hclose, if_pos hclose]
      · rw [if_neg hclose, if_neg hclose]
    | none =>
      dsimp only
      by_cases hblock : 0 < depth ∧ input.item i = ('<' : Character8) ∧ beginsCommentOrPi input i
      · obtain ⟨depth, rfl⟩ : ∃ d, depth = d + 1 := ⟨depth - 1, by omega⟩
        have hafter := (readsMarkup_doctype depth).scan_comment_or_pi hi
          (Nat.le_refl input.length) hblock.2.2
        have hlt : i < indexAfterSubsetCommentOrPi input i input.length :=
          lt_indexAfterSubsetCommentOrPi (Nat.le_of_not_lt hin)
        rw [List.take_length] at hafter
        rw [if_pos hblock, ih none (depth + 1) (by omega) (by omega)]
        unfold scanMode
        rw [hafter]
      · rw [if_neg hblock, hnext, hnext, hnext, hnext, hdrop]
        unfold scanMode
        have hopen : doctypeDelimiters.blockAt depth (input.item i :: input.drop i) = none := by
          unfold Delimiters.blockAt
          by_cases hdepth : 0 < depth
          · show (if 0 < depth then subsetBlocks else []).find? _ = none
            rw [if_pos hdepth, ← hdrop]
            by_contra hfound
            have hbegins := beginsCommentOrPi_iff.2 hfound
            exact hblock ⟨hdepth, beginsCommentOrPi_head hdrop hbegins, hbegins⟩
          · show (if 0 < depth then subsetBlocks else []).find? _ = none
            rw [if_neg hdepth]
            rfl
        by_cases hquote : isQuote (input.item i) = true
        · rw [if_pos hquote, doctypeDelimiters.scan_visible_quote hopen hquote]
        have hquote' : doctypeDelimiters.isQuote (input.item i) = false :=
          Bool.eq_false_iff.2 hquote
        rw [if_neg hquote]
        by_cases hbracket : input.item i = ('[' : Character8)
        · rw [if_pos hbracket, doctypeDelimiters.scan_visible_step hopen hquote'
            (show doctypeDelimiters.next depth (input.item i) = some (depth + 1) by
              show (if _ then _ else _) = _
              rw [if_pos hbracket])]
        rw [if_neg hbracket]
        by_cases hclose : input.item i = (']' : Character8) ∧ 0 < depth
        · rw [if_pos hclose, doctypeDelimiters.scan_visible_step hopen hquote'
            (show doctypeDelimiters.next depth (input.item i) = some (depth - 1) by
              show (if _ then _ else _) = _
              rw [if_neg hbracket, if_pos hclose])]
        rw [if_neg hclose]
        by_cases hend : input.item i = ('>' : Character8) ∧ depth = 0
        · rw [if_pos hend, doctypeDelimiters.scan_visible_end hopen hquote'
            (show doctypeDelimiters.next depth (input.item i) = none by
              show (if _ then _ else _) = _
              rw [if_neg hbracket, if_neg hclose, if_pos hend])]
          rfl
        · rw [if_neg hend, doctypeDelimiters.scan_visible_step hopen hquote'
            (show doctypeDelimiters.next depth (input.item i) = some depth by
              show (if _ then _ else _) = _
              rw [if_neg hbracket, if_neg hclose, if_neg hend])]

theorem findSubsetEndFrom_eq (input : String8) {stop n i : Nat} (quote : Option Character8)
    (hi : 1 ≤ i) (hstop : stop ≤ input.length) (hn : stop + 2 ≤ n + i) :
    findSubsetEndFrom input stop n quote i =
      (subsetDelimiters.scan (scanMode quote) () 0 ((input.take stop).drop (i - 1)) i).getD 0 := by
  have hlength : (input.take stop).length = stop := by
    rw [List.length_take]
    omega
  induction n generalizing quote i with
  | zero =>
    rw [List.drop_eq_nil_of_le (by omega), Delimiters.scan_nil]
    rfl
  | succ n ih =>
    unfold findSubsetEndFrom
    by_cases hin : stop < i
    · rw [if_pos hin, List.drop_eq_nil_of_le (by omega), Delimiters.scan_nil]
      rfl
    rw [if_neg hin]
    have hitem : String8.item (input.take stop) i = input.item i := by
      unfold String8.item
      rw [List.getD_eq_getElem?_getD, List.getD_eq_getElem?_getD,
        List.getElem?_take_of_lt (by omega)]
    have hdrop := drop_eq_item_cons hi (show i ≤ (input.take stop).length by omega)
    rw [hitem] at hdrop
    have hnext (quote : Option Character8) :
        findSubsetEndFrom input stop n quote (i + 1) =
          (subsetDelimiters.scan (scanMode quote) () 0 ((input.take stop).drop i) (i + 1)).getD 0 :=
      ih quote (by omega) (by omega)
    cases quote with
    | some q =>
      dsimp only
      rw [hnext, hdrop]
      unfold scanMode
      rw [Delimiters.scan_quoted_cons]
      by_cases hclose : input.item i = q
      · rw [if_pos hclose, if_pos hclose]
      · rw [if_neg hclose, if_neg hclose]
    | none =>
      dsimp only
      by_cases hblock : input.item i = ('<' : Character8) ∧ beginsCommentOrPi input i
      · have hafter := readsMarkup_subset.scan_comment_or_pi hi hstop hblock.2
        have hlt : i < indexAfterSubsetCommentOrPi input i stop :=
          lt_indexAfterSubsetCommentOrPi (Nat.le_of_not_lt hin)
        rw [if_pos hblock, ih none (by omega) (by omega)]
        unfold scanMode
        rw [hafter]
      · rw [if_neg hblock, hnext, hnext, hdrop]
        unfold scanMode
        have hopen : subsetDelimiters.blockAt () (input.item i :: (input.take stop).drop i) = none := by
          show subsetBlocks.find? _ = none
          by_contra hfound
          rw [← hdrop] at hfound
          have hbegins := beginsCommentOrPi_iff.2 hfound
          exact hblock ⟨beginsCommentOrPi_head hdrop hbegins, beginsCommentOrPi_of_take hbegins⟩
        by_cases hquote : isQuote (input.item i) = true
        · rw [if_pos hquote, subsetDelimiters.scan_visible_quote hopen hquote]
        have hquote' : subsetDelimiters.isQuote (input.item i) = false :=
          Bool.eq_false_iff.2 hquote
        rw [if_neg hquote]
        by_cases hend : input.item i = (']' : Character8)
        · rw [if_pos hend, subsetDelimiters.scan_visible_end hopen hquote'
            (show subsetDelimiters.next () (input.item i) = none by
              show (if _ then _ else _) = _
              rw [if_pos hend])]
          rfl
        · rw [if_neg hend, subsetDelimiters.scan_visible_step hopen hquote'
            (show subsetDelimiters.next () (input.item i) = some () by
              show (if _ then _ else _) = _
              rw [if_neg hend])]

/-! ## Declarations of the grammar -/

section

variable {legacy : Bool}

theorem covers_doctypeHead : doctypeDelimiters.CoversAll 0 (doctypeHead legacy) := by
  have hD := readsText_doctype
  exact ((hD.space.mul (hD.name legacy)).mul
    (coversAll_optional (hD.space.mul hD.externalId))).mul hD.optionalSpace

/-- The brackets lead into the subset and out of it. -/
theorem covers_doctypeSubset : doctypeDelimiters.CoversAll 0 (doctypeSubset legacy) := by
  intro w hw
  obtain ⟨u, hu, tail, htail, rfl⟩ := Language.mem_mul.1 hw
  obtain ⟨v, hv, close, hclose, rfl⟩ := Language.mem_mul.1 hu
  obtain ⟨opened, hopen, subset, hsubset, rfl⟩ := Language.mem_mul.1 hv
  rw [Set.mem_singleton_iff.1 hopen, Set.mem_singleton_iff.1 hclose]
  have hin : doctypeDelimiters.Covers 0 (str "[") 1 :=
    Delimiters.Covers.char (readsText_doctype.blockAt (by decide)) (by decide) (by decide)
  have hout : doctypeDelimiters.Covers 1 (str "]") 0 :=
    Delimiters.Covers.char ((readsMarkup_doctype 0).blockAt (by decide)) (by decide) (by decide)
  exact ((hin.append ((readsMarkup_doctype 0).intSubset legacy subset hsubset)).append hout).append
    (readsText_doctype.optionalSpace tail htail)

/-- The part of a declaration that hides its end. -/
theorem covers_doctypeDecl {decl : String8} (h : decl ∈ doctypeDecl legacy) :
    ∃ body, decl = str "<!DOCTYPE" ++ (body ++ str ">") ∧ doctypeDelimiters.Covers 0 body 0 := by
  obtain ⟨front, hfront, close, hclose, rfl⟩ := Language.mem_mul.1 h
  obtain ⟨start, hstart, subset, hsubset, rfl⟩ := Language.mem_mul.1 hfront
  obtain ⟨opener, hopener, head, hhead, rfl⟩ := Language.mem_mul.1 hstart
  refine ⟨head ++ subset, ?_, (covers_doctypeHead head hhead).append
    (coversAll_optional covers_doctypeSubset subset hsubset)⟩
  rw [Set.mem_singleton_iff.1 hopener, Set.mem_singleton_iff.1 hclose]
  simp only [List.append_assoc]

theorem findDoctypeEnd_eq (before text : String8) :
    findDoctypeEnd (before ++ text) (before.length + 1) =
      (doctypeDelimiters.scan .visible 0 0 (text.drop 9) (before.length + 10)).getD 0 := by
  unfold findDoctypeEnd
  rw [findDoctypeEndFrom_eq _ none 0 (by omega) (by omega),
    show before.length + 1 + 9 - 1 = before.length + 9 by omega, List.drop_append]
  rw [List.drop_eq_nil_of_le (by omega), List.nil_append, Nat.add_sub_cancel_left]
  rfl

theorem findDoctypeEnd_prefix {decl p : String8} (h : decl ∈ doctypeDecl legacy) (hp : p <+: decl)
    (hne : p ≠ decl) (before : String8) :
    findDoctypeEnd (before ++ p) (before.length + 1) = 0 := by
  obtain ⟨body, rfl, hcovers⟩ := covers_doctypeDecl h
  have hopener : (str "<!DOCTYPE").length = 9 := by decide
  rw [findDoctypeEnd_eq]
  by_cases hshort : p.length ≤ 9
  · rw [List.drop_eq_nil_of_le hshort, Delimiters.scan_nil]
    rfl
  · obtain ⟨q, rfl⟩ := List.prefix_of_prefix_length_le
      (List.prefix_append (str "<!DOCTYPE") (body ++ str ">")) hp (by omega)
    have hq := (List.prefix_append_right_inj (str "<!DOCTYPE")).1 hp
    rw [← hopener, List.drop_left, hcovers.scan_cut (c := ('>' : Character8)) hq fun heq ↦
      hne (congrArg (str "<!DOCTYPE" ++ ·) heq)]
    rfl

/-- `find_doctype_end` and `find_subset_end` find the delimiters of the grammar. -/
theorem doctype_delimiters (legacy : Bool) (decl : String8) (h : decl ∈ doctypeDecl legacy)
    (before after : String8) :
    findDoctypeEnd (before ++ decl ++ after) (before.length + 1) = before.length + decl.length ∧
    (∀ p, p <+: decl → p ≠ decl → findDoctypeEnd (before ++ p) (before.length + 1) = 0) ∧
    ∀ head ∈ doctypeHead legacy, ∀ subset ∈ intSubset legacy, ∀ tail ∈ optionalSpace,
      decl = str "<!DOCTYPE" ++ head ++ str "[" ++ subset ++ str "]" ++ tail ++ str ">" →
      findSubsetEnd (before ++ decl ++ after) (before.length + 9 + head.length + 2)
        (before.length + decl.length) = before.length + 9 + head.length + 1 + subset.length + 1 := by
  refine ⟨?_, fun p hp hne ↦ findDoctypeEnd_prefix h hp hne before, ?_⟩
  · obtain ⟨body, rfl, hcovers⟩ := covers_doctypeDecl h
    have hopener : (str "<!DOCTYPE").length = 9 := by decide
    have hend := hcovers.scan_end (readsText_doctype.blockAt
      (show ('>' : Character8) ≠ ('<' : Character8) by decide) after) (by decide) (by decide)
      (before.length + 10)
    have htext : (str "<!DOCTYPE" ++ (body ++ str ">") ++ after).drop 9 =
        body ++ ('>' : Character8) :: after := by
      rw [List.append_assoc, ← hopener, List.drop_left, List.append_assoc]
      rfl
    rw [List.append_assoc, findDoctypeEnd_eq, htext, hend, Option.getD_some, List.length_append,
      List.length_append, hopener]
    show _ = before.length + (9 + (body.length + 1))
    omega
  · intro head hhead subset hsubset tail htail hdecl
    have hopener : (str "<!DOCTYPE").length = 9 := by decide
    have hbracket : (str "[").length = 1 := by decide
    have hstop : before.length + decl.length ≤ (before ++ decl ++ after).length := by
      rw [List.length_append, List.length_append]
      omega
    -- The declaration is read from behind its bracket on.
    have htext : ((before ++ decl ++ after).take (before.length + decl.length)).drop
        (before.length + 9 + head.length + 2 - 1) =
          subset ++ (']' : Character8) :: (tail ++ str ">") := by
      rw [← List.length_append, List.take_left, hdecl]
      rw [show before ++ (str "<!DOCTYPE" ++ head ++ str "[" ++ subset ++ str "]" ++ tail ++ str ">") =
        (before ++ str "<!DOCTYPE" ++ head ++ str "[") ++ (subset ++ str "]" ++ tail ++ str ">") by
          simp only [List.append_assoc]]
      rw [show before.length + 9 + head.length + 2 - 1 =
        (before ++ str "<!DOCTYPE" ++ head ++ str "[").length by
          simp only [List.length_append, hopener, hbracket]
          omega, List.drop_left]
      simp only [List.append_assoc]
      rfl
    have hend := (readsMarkup_subset.intSubset legacy subset hsubset).scan_end
      (readsMarkup_subset.blockAt (show (']' : Character8) ≠ ('<' : Character8) by decide)
        (tail ++ str ">")) (by decide) (by decide) (before.length + 9 + head.length + 2)
    unfold findSubsetEnd
    rw [findSubsetEndFrom_eq _ none (by omega) hstop (by omega), htext]
    unfold scanMode
    rw [hend, Option.getD_some]
    omega

theorem doctype_delimiters_comment :
    findDoctypeEnd (str "<!DOCTYPE a[<!--']>-->]>x") 1 = 24 ∧
      findDoctypeEnd (str "<!DOCTYPE a[<!--']>-->]") 1 = 0 ∧
      findSubsetEnd (str "<!DOCTYPE a[<!--']>-->]>x") 13 24 = 23 := by
  have hone {p : Nat → Bool} (code : Nat) (hcode : isXmlCharacterCode code = true)
      (hp : p code = true) : utf8Bytes code ∈ character p := ⟨code, hcode, hp, rfl⟩
  have hspace : str " " ∈ space :=
    Language.append_mem_mul (hone 32 (by decide) (by decide)) (Language.nil_mem_kstar _)
  have hname : str "a" ∈ name false :=
    Language.append_mem_mul (hone 97 (by decide) (by decide)) (Language.nil_mem_kstar _)
  have hnil {L : Language Character8} : [] ∈ optional L := Or.inl rfl
  have hhead : str " a" ∈ doctypeHead false :=
    Language.append_mem_mul (Language.append_mem_mul (Language.append_mem_mul hspace hname) hnil) hnil
  have hbody : str "']>" ∈ commentBody := by
    refine Language.mem_kstar.2 ⟨[str "'", str "]", str ">"], rfl, ?_⟩
    intro w hw
    simp only [List.mem_cons, List.not_mem_nil, or_false] at hw
    rcases hw with rfl | rfl | rfl
    · exact Or.inl (hone 39 (by decide) (by decide))
    · exact Or.inl (hone 93 (by decide) (by decide))
    · exact Or.inl (hone 62 (by decide) (by decide))
  have hcomment : str "<!--']>-->" ∈ comment :=
    Language.append_mem_mul (Language.append_mem_mul (show str "<!--" ∈ text "<!--" from rfl) hbody)
      (show str "-->" ∈ text "-->" from rfl)
  have hsubset : str "<!--']>-->" ∈ intSubset false :=
    Language.mem_kstar.2 ⟨[str "<!--']>-->"], rfl, by
      intro w hw
      rw [List.mem_singleton.1 hw]
      exact Or.inl (Or.inr hcomment)⟩
  have hdoctypeSubset : str "[" ++ str "<!--']>-->" ++ str "]" ++ [] ∈ doctypeSubset false :=
    Language.append_mem_mul (Language.append_mem_mul
      (Language.append_mem_mul (show str "[" ∈ text "[" from rfl) hsubset)
      (show str "]" ∈ text "]" from rfl)) hnil
  have hdecl : str "<!DOCTYPE" ++ str " a" ++ (str "[" ++ str "<!--']>-->" ++ str "]" ++ []) ++
      str ">" ∈ doctypeDecl false :=
    Language.append_mem_mul (Language.append_mem_mul
      (Language.append_mem_mul (show str "<!DOCTYPE" ∈ text "<!DOCTYPE" from rfl) hhead)
      (Or.inr hdoctypeSubset)) (show str ">" ∈ text ">" from rfl)
  have h := doctype_delimiters false _ hdecl [] (str "x")
  refine ⟨h.1, h.2.1 (str "<!DOCTYPE a[<!--']>-->]") ⟨str ">", rfl⟩ (by decide), ?_⟩
  exact h.2.2 (str " a") hhead (str "<!--']>-->") hsubset [] hnil rfl

end

end Xpact
