import Xpact.Grammar.Names
import Xpact.Library.Splicing
import Xpact.Parser.DeclaredNames
import Xpact.Parser.Recognizers

/-!
# Positions in a subset that is expanded

`process_dtd_subset` replaces the parameter entity references of a declaration in the text that it
processes, and keeps a list of the replacements to tell positions of the original subset.  What
takes the place of a reference begins and ends with a blank, and the name in a reference holds none,
so a reference that is replaced stands in the original text or comes from one reference there.
-/

namespace Xpact

open Library Program Routine

/-! ## References -/

/-- The text of a parameter entity reference. -/
def IsParameterReference (cfg : Config) (w : String8) : Prop :=
  ∃ name, cfg.isValidName name = true ∧ w = (37 : Character8) :: (name ++ [(';' : Character8)])

def IsBlank (c : Character8) : Prop := c = (' ' : Character8)

def SubsetEdit.splice (e : SubsetEdit) : Splice := ⟨e.referenceIndex, e.oldCount, e.newCount⟩

/-- `original_dtd_subset_index` goes back over the replacements. -/
theorem originalDtdSubsetIndex_eq (i : Nat) (edits : List SubsetEdit) :
    originalDtdSubsetIndex i edits = originalIndex i (edits.map SubsetEdit.splice) := by
  unfold originalDtdSubsetIndex originalIndex
  rw [List.foldl_map]
  rfl

section

variable {cfg : Config} {name rest v : String8} {legacy : Bool} {n i code : Nat}

theorem blank_not_mem_utf8Bytes (hcode : isXmlCharacterCode code = true)
    (hname : isNameCode legacy code = true) : (' ' : Character8) ∉ utf8Bytes code := by
  by_cases hascii : code < 128
  · rw [Grammar.utf8Bytes_ascii hascii, List.mem_singleton]
    intro hblank
    rw [isNameCode_ascii legacy code hascii] at hname
    have hvalue : code = 32 := by
      have hnat := congrArg UInt8.toNat hblank
      rw [toNat_byte (by omega)] at hnat
      exact hnat.symm
    rw [hvalue] at hname
    revert hname
    decide
  · intro hblank
    have hwide := Grammar.utf8Bytes_wide (isXmlCharacterCode_le hcode) (by omega) _ hblank
    revert hwide
    decide

/-- Induction on the characters that the test of a name goes through. -/
theorem blank_not_mem_of_isValidNameFrom (hat : RestAt name i rest)
    (h : isValidNameFrom legacy name n i = true) : (' ' : Character8) ∉ rest := by
  induction n generalizing i rest with
  | zero => cases h
  | succ n ih =>
    rw [isValidNameFrom] at h
    by_cases hend : name.length < i
    · have hindex := hat.index
      have hnil : rest = [] := List.length_eq_zero_iff.1 (by omega)
      rw [hnil]
      exact List.not_mem_nil
    rw [if_neg hend] at h
    cases hread : utf8CharacterLength name i with
    | malformed => simp [hread] at h
    | cutOff => simp [hread] at h
    | character length code =>
      obtain ⟨hcode, hlength, v, rfl⟩ := hat.of_character (by omega) hread
      simp only [hread, Bool.and_eq_true] at h
      have hname : isNameCode legacy code = true := by
        by_cases hfirst : i = 1
        · rw [if_pos hfirst] at h
          exact isNameCode_of_isNameStartCode h.1
        · rw [if_neg hfirst] at h
          exact h.1
      have hrest : (' ' : Character8) ∉ v := by
        apply ih (i := i + length) _ h.2
        rw [hlength]
        exact hat.append
      rw [List.mem_append]
      exact not_or.2 ⟨blank_not_mem_utf8Bytes hcode hname, hrest⟩

theorem blank_not_mem_of_isValidName (hname : cfg.isValidName name = true) :
    (' ' : Character8) ∉ name := by
  unfold Config.isValidName isValidName at hname
  rw [Bool.and_eq_true] at hname
  apply blank_not_mem_of_isValidNameFrom (i := 1) _ hname.2
  exact RestAt.of_index (Nat.le_refl 1) (by omega)

/-- A reference is in one piece: no blank stands in it. -/
theorem not_isBlank_of_reference {w : String8} (hw : IsParameterReference cfg w) :
    ∀ c ∈ w, ¬ IsBlank c := by
  obtain ⟨name, hname, rfl⟩ := hw
  have hnone := blank_not_mem_of_isValidName hname
  intro c hc hblank
  rw [hblank] at hc
  simp only [List.mem_cons, List.mem_append, List.not_mem_nil, or_false] at hc
  rcases hc with hc | hc | hc
  · revert hc
    decide
  · exact hnone hc
  · revert hc
    decide

end

/-! ## A replacement -/

/-- The scan for a reference ends at one. -/
theorem exists_of_nextParameterReferenceIn {conditional : Bool} {quote : Option Character8}
    {rest : String8} {i j : Nat} (h : nextParameterReferenceIn conditional quote rest i = j)
    (hj : 0 < j) : ∃ u v, rest = u ++ (37 : Character8) :: v ∧ j = i + u.length := by
  have hnext {c : Character8} {rest : String8} {i : Nat}
      (h : ∃ u v, rest = u ++ (37 : Character8) :: v ∧ j = i + 1 + u.length) :
      ∃ u v, c :: rest = u ++ (37 : Character8) :: v ∧ j = i + u.length := by
    obtain ⟨u, v, rfl, hu⟩ := h
    exact ⟨c :: u, v, rfl, by rw [List.length_cons]; omega⟩
  induction rest generalizing quote i with
  | nil =>
    cases quote <;> rw [nextParameterReferenceIn] at h <;> omega
  | cons c rest ih =>
    cases quote with
    | some q =>
      rw [nextParameterReferenceIn] at h
      exact hnext (ih h)
    | none =>
      rw [nextParameterReferenceIn] at h
      split at h
      · exact hnext (ih h)
      split at h
      · omega
      split at h
      · rename_i hpercent
        refine ⟨[], rest, ?_, by rw [← h]; rfl⟩
        rw [List.nil_append, ← UInt8.toNat_inj.1 (show c.toNat = (37 : Character8).toNat from
          hpercent.1)]
      · exact hnext (ih h)

/-- Where a reference is found, its sign stands. -/
theorem restAt_of_nextReference {subset : String8} {start reference : Nat}
    (h : nextDtdDeclarationParameterReference subset start = reference)
    (hreference : 0 < reference) :
    ∃ front rest, subset = front ++ (37 : Character8) :: rest ∧ reference = front.length + 1 := by
  unfold nextDtdDeclarationParameterReference at h
  obtain ⟨u, v, hdrop, hindex⟩ := exists_of_nextParameterReferenceIn h hreference
  refine ⟨subset.take (start + 2) ++ u, v, ?_, ?_⟩
  · rw [List.append_assoc, ← hdrop, List.take_append_drop]
  · have hlength := congrArg List.length hdrop
    rw [List.length_drop, List.length_append, List.length_cons] at hlength
    rw [List.length_append, List.length_take, hindex]
    omega

/-- `replacement` is `subset` with the reference at `reference` expanded. -/
def ExpandsReference (cfg : Config) (subset : String8) (reference : Nat) (replacement : String8) :
    Prop :=
  ∃ front name back value : String8, cfg.isValidName name = true ∧
    subset = front ++ ((37 : Character8) :: (name ++ [(';' : Character8)]) ++ back) ∧
    reference = front.length + 1 ∧
    findCharacter subset ';' (reference + 1) = reference + name.length + 1 ∧
    replacement =
      front ++ ((' ' : Character8) :: (value ++ [(' ' : Character8)]) ++ back)

section

variable {cfg : Config} (depth : Nat) {subset : String8} {reference : Nat}

theorem expandsReference_of_close {front rest value : String8}
    (hsubset : subset = front ++ (37 : Character8) :: rest)
    (hreference : reference = front.length + 1)
    (hclose : findCharacter subset ';' (reference + 1) ≠ 0)
    (hname : cfg.isValidName (subset.substring (reference + 1)
      (findCharacter subset ';' (reference + 1) - 1)) = true) :
    ExpandsReference cfg subset reference (subset.substring 1 (reference - 1) ++ str " " ++ value ++
      str " " ++
        subset.substring (findCharacter subset ';' (reference + 1) + 1) subset.length) := by
  have hlength : subset.length = front.length + (rest.length + 1) := by
    rw [hsubset, List.length_append, List.length_cons]
  have hat : RestAt subset reference ((37 : Character8) :: rest) := by
    refine ⟨by omega, by rw [List.length_cons]; omega, ?_⟩
    rw [hreference, Nat.add_sub_cancel, hsubset, List.drop_left]
  obtain ⟨name, back, hrest, -, hfound⟩ := hat.cons.exists_of_findCharacter hclose
  rw [hrest] at hat
  have hwritten := hat.cons.substring
  rw [hfound] at hname ⊢
  rw [hwritten] at hname
  have hfront : subset.substring 1 (reference - 1) = front := by
    have hstart : RestAt subset 1 (front ++ (37 : Character8) :: rest) :=
      ⟨Nat.le_refl 1, by rw [← hsubset]; omega, hsubset⟩
    have hpart := hstart.substring
    rwa [show 1 + front.length - 1 = reference - 1 by omega] at hpart
  have hback : subset.substring (reference + 1 + name.length + 1) subset.length = back := by
    have hend := hat.cons.append.cons
    cases back with
    | nil =>
      have hover := hend.lt_of_nil
      unfold String8.substring
      rw [if_neg (by omega)]
    | cons c back => exact hend.substring_length
  refine ⟨front, name, back, value, hname, ?_, hreference, ?_, ?_⟩
  · rw [hsubset, hrest]
    simp only [List.cons_append, List.append_assoc, List.nil_append]
  · rw [hfound]
    omega
  · rw [hfront, hback]
    have hblank : str " " = [(' ' : Character8)] := rfl
    simp only [hblank, List.cons_append, List.append_assoc, List.nil_append]

/-- A reference that is expanded is one to a name. -/
theorem returns_dtdSubsetWithParameterReference {front rest : String8}
    (hsubset : subset = front ++ (37 : Character8) :: rest)
    (hreference : reference = front.length + 1) :
    Parser.Returns cfg (fun r : Option String8 ↦ ∀ replacement, r = some replacement →
        ExpandsReference cfg subset reference replacement)
      (dtdSubsetWithParameterReference depth subset reference) := by
  have hnone : ∀ replacement : String8, (none : Option String8) = some replacement →
      ExpandsReference cfg subset reference replacement := by
    intro replacement h
    cases h
  unfold dtdSubsetWithParameterReference
  apply Parser.returns_bind Parser.returns_sight
  intro s hs
  by_cases hclose : findCharacter subset ';' (reference + 1) = 0
  · rw [if_pos hclose]
    exact Parser.returns_failAt hnone
  rw [if_neg hclose]
  apply YieldsFrom.ite (fun _ ↦ Parser.returns_failAt hnone)
  intro _
  apply YieldsFrom.ite (fun _ ↦ Parser.returns_failAt hnone)
  intro hvalid
  rw [Bool.not_eq_true', Bool.not_eq_false, hs] at hvalid
  apply Parser.returns_of_bind
  intro value
  cases value with
  | none => exact Parser.returns_pure hnone
  | some value =>
    apply Parser.returns_of_bind
    intro ongoing
    apply YieldsFrom.ite _ (fun _ ↦ Parser.returns_pure hnone)
    intro _
    apply Parser.returns_pure
    intro replacement h
    cases h
    exact expandsReference_of_close hsubset hreference hclose hvalid

/-! ## A round -/

/-- A round leaves the text as it is, or replaces one reference and records where. -/
def FollowsScan (cfg : Config) (s t : SubsetScan) : Prop :=
  t.subset = s.subset ∧ t.edits = s.edits ∨
    ∃ front name back value : String8, cfg.isValidName name = true ∧
      s.subset = front ++ ((37 : Character8) :: (name ++ [(';' : Character8)]) ++ back) ∧
      t.subset = front ++ ((' ' : Character8) :: (value ++ [(' ' : Character8)]) ++ back) ∧
      t.edits = ⟨front.length + 1, name.length + 2, value.length + 2⟩ :: s.edits

theorem ExpandsReference.followsScan {s : SubsetScan} {replacement : String8}
    (h : ExpandsReference cfg s.subset reference replacement) :
    FollowsScan cfg s { s with
      subset := replacement
      edits := ⟨reference, findCharacter s.subset ';' (reference + 1) - reference + 1,
        replacement.length + (findCharacter s.subset ';' (reference + 1) - reference + 1) -
          s.subset.length⟩ :: s.edits } := by
  obtain ⟨front, name, back, value, hname, hsubset, hreference, hclose, hreplacement⟩ := h
  refine .inr ⟨front, name, back, value, hname, hsubset, hreplacement, ?_⟩
  have hold : findCharacter s.subset ';' (reference + 1) - reference + 1 = name.length + 2 := by
    omega
  have hlength : s.subset.length = front.length + (name.length + 2 + back.length) := by
    rw [hsubset]
    simp only [List.length_append, List.length_cons, List.length_nil]
  have hnew : replacement.length = front.length + (value.length + 2 + back.length) := by
    rw [hreplacement]
    simp only [List.length_append, List.length_cons, List.length_nil]
  have hcount : front.length + (value.length + 2 + back.length) + (name.length + 2) -
      (front.length + (name.length + 2 + back.length)) = value.length + 2 := by omega
  rw [hold, hlength, hnew, hreference, hcount]

/-- The expansion of a reference in a round, and what follows it. -/
theorem returns_expanded {s : SubsetScan} {k : Option String8 → Routine SubsetScan}
    (hfound : (if beginsDeclaration s.subset s.index = true then
      nextDtdDeclarationParameterReference s.subset s.index else 0) = reference)
    (hk : ∀ expanded : Option String8, (∀ replacement, expanded = some replacement →
      ExpandsReference cfg s.subset reference replacement) →
        Parser.Returns cfg (FollowsScan cfg s) (k expanded))
    (c : Prop) [Decidable c] (position : Nat) :
    Parser.Returns cfg (FollowsScan cfg s)
      (if 0 < reference then
        if c then do
          notePosition position
          dtdSubsetWithParameterReference depth s.subset reference >>= k
        else dtdSubsetWithParameterReference depth s.subset reference >>= k
      else k none) := by
  apply YieldsFrom.ite
  · intro hpositive
    have hnext : nextDtdDeclarationParameterReference s.subset s.index = reference := by
      split at hfound
      · exact hfound
      · omega
    obtain ⟨front, rest, hsubset, hindex⟩ := restAt_of_nextReference hnext hpositive
    have hexpands := Parser.returns_bind
      (returns_dtdSubsetWithParameterReference depth hsubset hindex) hk
    apply YieldsFrom.ite _ (fun _ ↦ hexpands)
    intro _
    apply Parser.returns_of_bind
    intro _
    exact hexpands
  · intro _
    apply hk
    intro replacement h
    cases h

/-- What one round of the loop does to the text and to the list of the replacements. -/
theorem returns_processSubsetStep (processInternalSubset : String8 → Routine Unit)
    (allowTextDeclaration : Bool) (s : SubsetScan) :
    Parser.Returns cfg (FollowsScan cfg s)
      (processSubsetStep depth processInternalSubset allowTextDeclaration s) := by
  unfold processSubsetStep
  apply Parser.returns_of_bind
  intro f
  apply YieldsFrom.ite
  all_goals
    intro _
    apply Parser.returns_of_bind
    intro _
    apply returns_expanded depth rfl
    intro expanded hexpanded
    apply Parser.returns_of_bind
    intro ongoing
    apply YieldsFrom.ite
  -- The parse goes on: the reference is replaced, or a token is processed.
  case hm.hm | hn.hm =>
    intro _
    cases expanded with
    | some replacement => exact Parser.returns_pure (hexpanded replacement rfl).followsScan
    | none =>
      apply Parser.returns_of_bind
      intro i
      exact Parser.returns_pure (.inl ⟨rfl, rfl⟩)
  all_goals
    intro _
    exact Parser.returns_pure (.inl ⟨rfl, rfl⟩)

end

/-! ## Runs -/

section

variable {cfg : Config} {subset : String8} {s t : SubsetScan}

/-- A round continues the account of where each character comes from. -/
theorem FollowsScan.exists_spliced (h : FollowsScan cfg s t) {text : List (Character8 × Origin)}
    (htext : text.map Prod.fst = s.subset)
    (hspliced : Spliced IsBlank (IsParameterReference cfg) subset text
      (s.edits.map SubsetEdit.splice)) :
    ∃ text : List (Character8 × Origin), text.map Prod.fst = t.subset ∧
      Spliced IsBlank (IsParameterReference cfg) subset text (t.edits.map SubsetEdit.splice) := by
  rcases h with ⟨hsame, hedits⟩ | ⟨front, name, back, value, hname, hbefore, hafter, hedits⟩
  · exact ⟨text, htext.trans hsame.symm, by rw [hedits]; exact hspliced⟩
  rw [hbefore] at htext
  obtain ⟨tracedFront, rest, rfl, hfront, hrest⟩ := List.map_eq_append_iff.1 htext
  obtain ⟨traced, tracedBack, rfl, hreference, hback⟩ := List.map_eq_append_iff.1 hrest
  obtain ⟨⟨c, o⟩, reference, rfl, hsign, hname'⟩ := List.map_eq_cons_iff.1 hreference
  have hwhole : c :: reference.map Prod.fst =
      (37 : Character8) :: (name ++ [(';' : Character8)]) := by
    rw [← hsign, ← hname']
  have href : IsParameterReference cfg (c :: reference.map Prod.fst) := ⟨name, hname, hwhole⟩
  have hblank : IsBlank ' ' := rfl
  have hnext := @Spliced.replace _ IsBlank _ subset _ _ _ _ _ _ o value _ hspliced href
    (not_isBlank_of_reference href) hblank hblank
  have hlength : reference.length + 1 = name.length + 2 := by
    have hcount := congrArg List.length hname'
    rw [List.length_map, List.length_append, List.length_singleton] at hcount
    omega
  have hstart : tracedFront.length = front.length := by rw [← hfront, List.length_map]
  rw [hlength, hstart] at hnext
  refine ⟨_, ?_, by rw [hedits, List.map_cons]; exact hnext⟩
  have hinserted (w : String8) :
      (w.map fun d ↦ (d, Origin.produced o.index)).map Prod.fst = w := by
    rw [List.map_map]
    exact List.map_id w
  rw [hafter, List.map_append, List.map_append, hinserted, hfront, hback]

/-- Where the characters of the text in a round come from. -/
theorem exists_spliced_of_rounds {bound : Nat} {processInternalSubset : String8 → Routine Unit}
    {allowTextDeclaration : Bool} {p q : Parser}
    (h : Rounds Parser.routineMachine subsetFinished
      (processSubsetStep bound processInternalSubset allowTextDeclaration) { subset } p s q) :
    q.config = p.config ∧ ∃ text : List (Character8 × Origin), text.map Prod.fst = s.subset ∧
      Spliced IsBlank (IsParameterReference p.config) subset text
        (s.edits.map SubsetEdit.splice) := by
  induction h with
  | start => exact ⟨rfl, traceFrom 1 subset, map_traceFrom 1 subset, .start⟩
  | @next s t q q' r _ htest hbody ih =>
    obtain ⟨hconfig, text, htext, hspliced⟩ := ih
    have htested : q'.config = p.config := Parser.preserves_config _ hconfig htest
    have hfollows := (returns_processSubsetStep bound processInternalSubset allowTextDeclaration
      s).of_run htested hbody
    exact ⟨Parser.preserves_config _ htested hbody, hfollows.exists_spliced htext hspliced⟩

end

/-- In every round, going back over the replacements leads from a character of the original subset
that is still there to its own place, and from one that replacements have produced to the reference
in the original subset that they began with, or that held theirs; this keeps the order and stays
inside the original subset. -/
theorem originalDtdSubsetIndex_correct {bound : Nat} {allowTextDeclaration : Bool}
    {subset : String8} {s : SubsetScan} {p q : Parser}
    (h : Rounds Parser.routineMachine subsetFinished
      (processSubsetStep bound (processDtdSubset bound · false) allowTextDeclaration) { subset } p
        s q) :
    (∃ text : List (Character8 × Origin), text.map Prod.fst = s.subset ∧
      Spliced IsBlank (IsParameterReference p.config) subset text
        (s.edits.map SubsetEdit.splice) ∧
      ∀ j c o, text[j]? = some (c, o) →
        originalDtdSubsetIndex (j + 1) s.edits = o.index ∧
          1 ≤ o.index ∧ o.index ≤ subset.length ∧
          match o with
          | .kept i => subset.item i = c
          | .produced i => ∃ w, IsParameterReference p.config w ∧ w <+: subset.drop (i - 1)) ∧
    (∀ i j, i ≤ j → originalDtdSubsetIndex i s.edits ≤ originalDtdSubsetIndex j s.edits) ∧
    originalDtdSubsetIndex (s.subset.length + 1) s.edits = subset.length + 1 := by
  obtain ⟨-, text, htext, hspliced⟩ := exists_spliced_of_rounds h
  obtain ⟨hindex, hend⟩ := hspliced.originalIndex_eq
  obtain ⟨hkept, hproduced⟩ := hspliced.origins
  refine ⟨⟨text, htext, hspliced, fun j c o hj ↦ ?_⟩, fun i j hij ↦ ?_, ?_⟩
  · have hmem : (c, o) ∈ text := List.mem_of_getElem? hj
    rw [originalDtdSubsetIndex_eq, hindex j c o hj]
    cases o with
    | kept i =>
      obtain ⟨hpositive, hitem⟩ := hkept c i hmem
      have hin : i - 1 < subset.length := (List.getElem?_eq_some_iff.1 hitem).1
      show i = i ∧ 1 ≤ i ∧ i ≤ subset.length ∧ subset.item i = c
      refine ⟨rfl, hpositive, by omega, ?_⟩
      unfold String8.item
      rw [List.getD_eq_getElem?_getD, hitem, Option.getD_some]
    | produced i =>
      obtain ⟨hpositive, w, href, hne, hprefix⟩ := hproduced c i hmem
      have hin := hprefix.length_le
      have hw := List.length_pos_iff.2 hne
      rw [List.length_drop] at hin
      show i = i ∧ 1 ≤ i ∧ i ≤ subset.length ∧ _
      exact ⟨rfl, hpositive, by omega, w, href, hprefix⟩
  · rw [originalDtdSubsetIndex_eq, originalDtdSubsetIndex_eq]
    exact originalIndex_mono _ hij
  · have hlength : s.subset.length = text.length := by rw [← htext, List.length_map]
    rw [originalDtdSubsetIndex_eq, hlength]
    exact hend

/-- A parser that reads an external subset. -/
def inExternalSubset : Parser :=
  let p := (Parser.make {} .null).start .document
  { p with core := { p.core with flags := { p.core.flags with externalDtdDepth := 1 } } }

/-- The second reference of a declaration has moved when it is replaced. -/
theorem originalDtdSubsetIndex_correct_twice :
    let subset := str "<!ENTITY % a 'xyz'><!ENTITY c %a;%a;>"
    ∃ s q, Rounds Parser.routineMachine subsetFinished
        (processSubsetStep 9 (processDtdSubset 9 · false) false) { subset } inExternalSubset s q ∧
      s.edits = [⟨36, 3, 5⟩, ⟨31, 3, 5⟩] ∧ originalDtdSubsetIndex 40 s.edits = 34 ∧
        originalDtdSubsetIndex (s.subset.length + 1) s.edits = subset.length + 1 := by
  intro subset
  let run := (loop subsetFinished (processSubsetStep 9 (processDtdSubset 9 · false) false) 12
    { subset }).run Parser.routineMachine inExternalSubset
  have hedits : run.map (fun r ↦ r.1.edits) = some [⟨36, 3, 5⟩, ⟨31, 3, 5⟩] := by decide +kernel
  obtain ⟨⟨s, q⟩, hrun, hs⟩ := Option.map_eq_some_iff.1 hedits
  obtain ⟨r, hrounds, -⟩ := Rounds.start.of_run_loop hrun
  have hs' : s.edits = [⟨36, 3, 5⟩, ⟨31, 3, 5⟩] := hs
  refine ⟨s, r, hrounds, hs', ?_, (originalDtdSubsetIndex_correct hrounds).2.2⟩
  rw [hs']
  decide

end Xpact
