import Xpact.Library.Attempts
import Xpact.Parser.ContentModels
import Xpact.Parser.Recognizers
import Xpact.Text.Suffixes

/-!
# Rounds of the content model loops

The loops of `parse_content_particle` and `parse_mixed_content_particle` change nothing but their
variables and the error of the parser.  A round is therefore a function of its variables, which
returns the message of the error it sets, and the loop comes to what its rounds lead to.
-/

namespace Xpact

open Library Program Routine

/-! ## Names -/

/-- What `scan_name` returns, and the message of its error. -/
def scannedName (cfg : Config) (input : String8) (start : Nat) : Nat × Option String :=
  let scan := scanNameFrom cfg input start (input.length + 1) start
  (scan.1, if scan.2 then some "invalid name character" else none)

section

variable {cfg : Config} {input : String8} {start stop n i : Nat}

theorem le_scanNameFrom : i ≤ (scanNameFrom cfg input start n i).1 := by
  induction n generalizing i with
  | zero => exact Nat.le_refl i
  | succ n ih =>
    unfold scanNameFrom
    split
    · exact Nat.le_refl i
    split
    · split
      · split
        · exact Nat.le_trans (Nat.le_add_right i _) ih
        · exact Nat.le_max_left i _
      · omega
      · exact Nat.le_max_left i _
    split
    · exact Nat.le_trans (Nat.le_succ i) ih
    · exact Nat.le_max_left i _

theorem scanNameFrom_le (hin : start ≤ input.length) (hi : i ≤ input.length + 1) :
    (scanNameFrom cfg input start n i).1 ≤ input.length + 1 := by
  induction n generalizing i with
  | zero => exact hi
  | succ n ih =>
    unfold scanNameFrom
    split
    · exact hi
    rename_i hnotEnd
    split
    · split
      · rename_i length code hread
        have hend := (utf8CharacterLength_bytes (Nat.le_of_not_lt hnotEnd) hread).2.1
        split
        · exact ih hend
        · dsimp only
          omega
      · exact Nat.le_refl _
      · dsimp only
        omega
    split
    · exact ih (by omega)
    · dsimp only
      omega

/-- A name has at least one byte, also where its first character is an error. -/
theorem lt_scannedName (hin : start ≤ input.length) : start < (scannedName cfg input start).1 := by
  unfold scannedName scanNameFrom
  dsimp only
  rw [if_neg (Nat.not_lt.2 hin)]
  split
  · split
    · rename_i length code hread
      have hpositive := (utf8CharacterLength_bytes hin hread).1
      split
      · exact Nat.lt_of_lt_of_le (by omega) le_scanNameFrom
      · exact Nat.le_max_right start _
    · exact Nat.lt_succ_of_le hin
    · exact Nat.le_max_right start _
  split
  · exact le_scanNameFrom
  · exact Nat.le_max_right start _

theorem scannedName_le (hin : start ≤ input.length) :
    (scannedName cfg input start).1 ≤ input.length + 1 :=
  scanNameFrom_le hin (Nat.le_succ_of_le hin)

theorem scannedName_of_scan
    (h : scanNameFrom cfg input start (input.length + 1) start = (stop, false)) :
    scannedName cfg input start = (stop, none) := by
  unfold scannedName
  rw [h]
  rfl

theorem scan_of_scannedName (h : (scannedName cfg input start).2 = none) :
    scanNameFrom cfg input start (input.length + 1) start =
      ((scannedName cfg input start).1, false) := by
  unfold scannedName at h ⊢
  generalize scanNameFrom cfg input start (input.length + 1) start = scan at h ⊢
  obtain ⟨stop, failed⟩ := scan
  cases failed with
  | false => rfl
  | true => cases h

end

/-! ## The parser after a round -/

/-- Set the error, if there is one. -/
def Parser.raise (p : Parser) : Option String → Parser
  | none => p
  | some message => p.setError message

@[simp] theorem Parser.raise_none (p : Parser) : p.raise none = p := rfl

theorem Parser.raise_hasError {p : Parser} (hp : p.core.hasError = false) (e : Option String) :
    (p.raise e).core.hasError = e.isSome := by
  cases e with
  | none => exact hp
  | some message => exact Parser.setError_hasError p message

theorem run_hasError_raise {p : Parser} (hp : p.core.hasError = false) (e : Option String) :
    hasError.run Parser.routineMachine (p.raise e) = some (e.isSome, p.raise e) := by
  rw [run_hasError, Parser.raise_hasError hp]

theorem run_scannedName {p : Parser} (input : String8) (start : Nat) :
    (scanName input start).run Parser.routineMachine p =
      some ((scannedName p.config input start).1,
        p.raise (scannedName p.config input start).2) := by
  rw [run_scanName]
  unfold scannedName
  dsimp only
  split <;> rfl

/-! ## Rounds -/

section

variable (cfg : Config) (subset : String8) (stop : Nat)

/-- The round of `parse_content_particle` that reads a particle at `i`. -/
def childRound (s : ContentScan) (i : Nat) : ContentScan × Option String :=
  if subset.item i = '(' then
    let group : ContentModel := .node .sequence .none none []
    ({ s with index := i + 1, groups := (group, (' ' : Character8)) :: s.groups }, none)
  else if isNameStartCharacter (subset.item i) then
    let scan := scannedName cfg subset i
    if scan.2.isSome then (s, scan.2)
    else
      let nameEnd := min scan.1 (stop + 1)
      let next :=
        applyContentQuantifier (nameModel (subset.substring i (nameEnd - 1))) subset nameEnd stop
      (s.finish next.1 next.2, none)
  else
    (s, some "invalid element content particle")

/-- The round that reads a separator or the end of the innermost group at `i`. -/
def separatorRound (s : ContentScan) (i : Nat) : ContentScan × Option String :=
  let c := subset.item i
  match s.groups with
  | [] => (s, some "invalid element content separator")
  | (group, separator) :: outer =>
    if c = ',' ∨ c = '|' then
      let next := { s with index := i + 1, expectsChild := true }
      if separator = ' ' then
        let group := if c = '|' then .node .choice .none none (group.children.take 1) else group
        ({ next with groups := (group, c) :: outer }, none)
      else if separator ≠ c then
        (next, some "invalid element content separator")
      else
        (next, none)
    else if c = ')' then
      let next := applyContentQuantifier group subset (i + 1) stop
      ({ s with groups := outer }.finish next.1 next.2, none)
    else
      (s, some "invalid element content separator")

def contentRound (s : ContentScan) : ContentScan × Option String :=
  let i := min (skipSpaces subset s.index) (stop + 1)
  if stop < i then ({ s with index := i }, some "unterminated element content model")
  else if s.expectsChild then childRound cfg subset stop s i
  else separatorRound subset stop s i

/-- The round of `parse_mixed_content_particle` that reads a name behind a bar. -/
def mixedNameRound (s : MixedScan) (i : Nat) : MixedScan × Option String :=
  if i ≤ stop ∧ isNameStartCharacter (subset.item i) then
    let scan := scannedName cfg subset i
    let nameEnd := min scan.1 (stop + 1)
    ({ s with
      index := min (skipSpaces subset nameEnd) (stop + 1)
      names := s.names ++ [subset.substring i (nameEnd - 1)] }, scan.2)
  else
    ({ s with index := stop + 1 }, some "invalid mixed content model")

def mixedRound (s : MixedScan) : MixedScan × Option String :=
  if s.index ≤ stop ∧ subset.item s.index = ')' then
    ({ s with index := s.index + 1, isDone := true }, none)
  else if s.index ≤ stop ∧ subset.item s.index = '|' then
    mixedNameRound cfg subset stop s (min (skipSpaces subset (s.index + 1)) (stop + 1))
  else
    ({ s with index := stop + 1 }, some "invalid mixed content model")

end

section

variable {p : Parser} (hp : p.core.hasError = false) (subset : String8) (stop : Nat)

include hp

theorem run_contentScanStep (s : ContentScan) :
    (contentScanStep subset stop s).run Parser.routineMachine p =
      some ((contentRound p.config subset stop s).1,
        p.raise (contentRound p.config subset stop s).2) := by
  unfold contentScanStep contentRound
  dsimp only
  split
  · rfl
  split
  · unfold childRound
    split
    · rfl
    split
    · rw [run_bind, run_scannedName, Option.bind_some, run_bind, run_hasError_raise hp,
        Option.bind_some]
      dsimp only
      split
      · rfl
      · rename_i hnone
        rw [Bool.not_eq_true, Option.isSome_eq_false_iff, Option.isNone_iff_eq_none] at hnone
        rw [hnone]
        rfl
    · rfl
  · unfold separatorRound
    dsimp only
    cases hgroups : s.groups with
    | nil => rfl
    | cons innermost outer =>
      dsimp only
      split
      · split
        · rfl
        split <;> rfl
      split <;> rfl

omit hp in
theorem run_mixedScanStep (s : MixedScan) :
    (mixedScanStep subset stop s).run Parser.routineMachine p =
      some ((mixedRound p.config subset stop s).1,
        p.raise (mixedRound p.config subset stop s).2) := by
  unfold mixedScanStep mixedRound
  dsimp only
  split
  · rfl
  split
  · unfold mixedNameRound
    split
    · rw [run_bind, run_scannedName, Option.bind_some]
      rfl
    · rfl
  · rfl

end

/-! ## Progress -/

section

variable {cfg : Config} {subset : String8} {start stop i : Nat} {model : ContentModel}

theorem applyContentQuantifier_bounds (model : ContentModel) (subset : String8)
    (hi : i ≤ stop + 1) :
    i ≤ (applyContentQuantifier model subset i stop).1 ∧
      (applyContentQuantifier model subset i stop).1 ≤ stop + 1 := by
  unfold applyContentQuantifier
  split
  · exact ⟨Nat.le_refl i, hi⟩
  split
  · dsimp only
    omega
  split
  · dsimp only
    omega
  split <;> dsimp only <;> omega

theorem ContentModel.children_addChild (child : ContentModel) :
    (model.addChild child).children = model.children ++ [child] := by
  cases model
  rfl

/-- The indices stay behind `start`, and a group that waits for a separator has a member. -/
structure ContentScan.Within (start stop : Nat) (s : ContentScan) : Prop where
  ge : start ≤ s.index
  le : s.index ≤ stop + 1
  result : s.result.isSome = true → start < s.index
  member : s.expectsChild = false → s.result = none →
    ∃ group separator outer, s.groups = (group, separator) :: outer ∧ group.children ≠ []

theorem ContentScan.within_finish {s : ContentScan} (hi : start < i) (hle : i ≤ stop + 1) :
    (s.finish i model).Within start stop := by
  unfold ContentScan.finish
  cases hgroups : s.groups with
  | nil =>
    refine ⟨Nat.le_of_lt hi, hle, fun _ ↦ hi, fun _ hnone ↦ ?_⟩
    cases hnone
  | cons innermost outer =>
    obtain ⟨group, separator⟩ := innermost
    refine ⟨Nat.le_of_lt hi, hle, fun _ ↦ hi, fun _ _ ↦ ⟨_, _, _, rfl, ?_⟩⟩
    rw [ContentModel.children_addChild]
    exact List.append_ne_nil_of_right_ne_nil _ (List.cons_ne_nil _ _)

@[simp] theorem ContentScan.index_finish (s : ContentScan) : (s.finish i model).index = i := by
  unfold ContentScan.finish
  split <;> rfl

/-- What a round leaves: variables in the same bounds, behind `i` unless the round has failed. -/
def ContentScan.Goes (start stop i : Nat) (r : ContentScan × Option String) : Prop :=
  r.1.Within start stop ∧ (r.2 = none → i < r.1.index)

theorem childRound_goes {s : ContentScan} (hs : s.Within start stop) (hi : start ≤ i)
    (hle : i ≤ stop) (hin : stop < subset.length) (hexpects : s.expectsChild = true) :
    ContentScan.Goes start stop i (childRound cfg subset stop s i) := by
  unfold childRound
  split
  · refine ⟨⟨by dsimp only; omega, by dsimp only; omega, ?_, ?_⟩, fun _ ↦ Nat.lt_succ_self i⟩
    · exact fun _ ↦ Nat.lt_succ_of_le hi
    · intro hnot
      rw [hexpects] at hnot
      cases hnot
  split
  · dsimp only
    have hlater : i < (scannedName cfg subset i).1 := lt_scannedName (by omega)
    split
    · rename_i hfailed
      refine ⟨hs, fun hnone ↦ ?_⟩
      rw [hnone] at hfailed
      cases hfailed
    · have hbounds := applyContentQuantifier_bounds
        (nameModel (subset.substring i (min (scannedName cfg subset i).1 (stop + 1) - 1))) subset
        (Nat.min_le_right (scannedName cfg subset i).1 (stop + 1))
      refine ⟨ContentScan.within_finish (by omega) hbounds.2, fun _ ↦ ?_⟩
      rw [ContentScan.index_finish]
      omega
  · exact ⟨hs, fun hnone ↦ nomatch hnone⟩

theorem separatorRound_goes {s : ContentScan} (hs : s.Within start stop) (hi : start ≤ i)
    (hle : i ≤ stop) : ContentScan.Goes start stop i (separatorRound subset stop s i) := by
  have hnext (groups : List (ContentModel × Character8)) (e : Option String) :
      ContentScan.Goes start stop i
        ({ s with index := i + 1, expectsChild := true, groups := groups }, e) :=
    ⟨⟨Nat.le_succ_of_le hi, Nat.succ_le_succ hle, fun _ ↦ Nat.lt_succ_of_le hi,
      fun hnot ↦ nomatch hnot⟩, fun _ ↦ Nat.lt_succ_self i⟩
  have hfails (message : String) : ContentScan.Goes start stop i (s, some message) :=
    ⟨hs, fun hnone ↦ nomatch hnone⟩
  unfold separatorRound
  cases hgroups : s.groups with
  | nil => exact hfails _
  | cons innermost outer =>
    obtain ⟨group, separator⟩ := innermost
    dsimp only
    split
    · split
      · exact hnext _ _
      split
      · rw [← hgroups]
        exact hnext s.groups _
      · rw [← hgroups]
        exact hnext s.groups _
    split
    · have hbounds := applyContentQuantifier_bounds group subset (Nat.add_le_add_right hle 1)
      refine ⟨ContentScan.within_finish (by omega) hbounds.2, fun _ ↦ ?_⟩
      rw [ContentScan.index_finish]
      omega
    · exact hfails _

theorem contentRound_goes (cfg : Config) {s : ContentScan} (hs : s.Within start stop)
    (hin : stop < subset.length) (hresult : s.result = none) :
    ContentScan.Goes start stop s.index (contentRound cfg subset stop s) := by
  have hskip : s.index ≤ skipSpaces subset s.index := le_skipSpaces _ _
  have hge := hs.ge
  have hle := hs.le
  unfold contentRound
  dsimp only
  split
  · refine ⟨⟨by dsimp only; omega, by dsimp only; omega, ?_, hs.member⟩, fun hnone ↦ nomatch hnone⟩
    intro hsome
    rw [hresult] at hsome
    cases hsome
  have hlater {r : ContentScan × Option String}
      (h : ContentScan.Goes start stop (min (skipSpaces subset s.index) (stop + 1)) r) :
      ContentScan.Goes start stop s.index r :=
    ⟨h.1, fun hnone ↦ by have := h.2 hnone; omega⟩
  split
  · rename_i hexpects
    exact hlater (childRound_goes hs (by omega) (by omega) hin hexpects)
  · exact hlater (separatorRound_goes hs (by omega) (by omega))

/-- The test of the loop of `parse_content_particle`. -/
def ContentScan.isDone (s : ContentScan) : Bool := s.result.isSome

theorem ContentScan.result_of_isDone {s : ContentScan} (h : s.isDone = false) :
    s.result = none := by
  unfold ContentScan.isDone at h
  rwa [Option.isSome_eq_false_iff, Option.isNone_iff_eq_none] at h

theorem contentRound_progresses (cfg : Config) (hin : stop < subset.length) :
    Progresses ContentScan.isDone (contentRound cfg subset stop)
      (ContentScan.Within start stop) (fun s ↦ stop + 1 - s.index) where
  keeps s hs hdone := (contentRound_goes cfg hs hin (ContentScan.result_of_isDone hdone)).1
  decreases s hs hdone hnone := by
    have hgoes := contentRound_goes cfg hs hin (ContentScan.result_of_isDone hdone)
    have hless := hgoes.2 hnone
    have hle := hgoes.1.le
    omega

/-- The index of the mixed loop. -/
def MixedScan.Within (start stop : Nat) (s : MixedScan) : Prop :=
  start < s.index ∧ s.index ≤ stop + 1

theorem mixedRound_goes (cfg : Config) {s : MixedScan} (hs : s.Within start stop)
    (hin : stop < subset.length) (hstart : start ≤ stop) :
    (mixedRound cfg subset stop s).1.Within start stop ∧
      (s.index ≤ stop → s.index < (mixedRound cfg subset stop s).1.index) ∧
      (stop < s.index → (mixedRound cfg subset stop s).1.index = stop + 1 ∧
        (mixedRound cfg subset stop s).2.isSome = true) := by
  obtain ⟨hge, hle⟩ := hs
  unfold mixedRound MixedScan.Within
  split
  · dsimp only
    omega
  split
  · rename_i hbar
    have hskip : s.index + 1 ≤ skipSpaces subset (s.index + 1) := le_skipSpaces _ _
    unfold mixedNameRound
    split
    · have hlater : min (skipSpaces subset (s.index + 1)) (stop + 1) <
          (scannedName cfg subset (min (skipSpaces subset (s.index + 1)) (stop + 1))).1 :=
        lt_scannedName (by omega)
      have hbehind : min (scannedName cfg subset
          (min (skipSpaces subset (s.index + 1)) (stop + 1))).1 (stop + 1) ≤
          skipSpaces subset (min (scannedName cfg subset
            (min (skipSpaces subset (s.index + 1)) (stop + 1))).1 (stop + 1)) :=
        le_skipSpaces _ _
      dsimp only
      omega
    · dsimp only
      omega
  · refine ⟨by dsimp only; omega, fun _ ↦ by dsimp only; omega, fun _ ↦ ⟨rfl, rfl⟩⟩

theorem mixedRound_progresses (cfg : Config) (hin : stop < subset.length) (hstart : start ≤ stop) :
    Progresses MixedScan.isDone (mixedRound cfg subset stop) (MixedScan.Within start stop)
      (fun s ↦ stop + 1 - s.index) where
  keeps s hs _ := (mixedRound_goes cfg hs hin hstart).1
  decreases s hs _ hnone := by
    obtain ⟨hwithin, hless, hstuck⟩ := mixedRound_goes cfg hs hin hstart
    have hle := hwithin.2
    have hat : s.index ≤ stop := by
      apply Nat.le_of_not_lt
      intro hend
      have hfailed := (hstuck hend).2
      rw [hnone] at hfailed
      cases hfailed
    have hlater := hless hat
    omega

end

/-! ## Particles -/

/-- What `parse_content_particle` returns with its model, and the message of its error. -/
abbrev ContentOutcome : Type := (Nat × Option ContentModel) × Option String

section

variable (cfg : Config) (subset : String8) (start stop : Nat)

/-- The test by which `parse_content_particle` hands over to `parse_mixed_content_particle`. -/
def startsMixed : Prop :=
  subset.item start = '(' ∧ hasAt subset (skipSpaces subset (start + 1)) (str "#PCDATA") = true

instance : Decidable (startsMixed subset start) := inferInstanceAs (Decidable (_ ∧ _))

def contentOutcome (s : ContentScan) (e : Option String) : ContentOutcome :=
  if e.isSome then ((stop + 1, none), e) else ((s.index, s.result), none)

def mixedModel (names : List String8) (q : Quantifier) : ContentModel :=
  .node .mixed q none (names.map nameModel)

def mixedOutcome (s : MixedScan) (e : Option String) : ContentOutcome :=
  let c := subset.item s.index
  if e.isSome then ((stop + 1, none), e)
  else if s.index ≤ stop ∧ c = '*' then
    ((s.index + 1, some (mixedModel s.names .repetition)), none)
  else if !s.names.isEmpty then
    ((stop + 1, none), some "mixed content with element names must end with )*")
  else if s.index ≤ stop ∧ (c = '?' ∨ c = '+') then
    ((stop + 1, none), some "invalid quantifier on mixed content")
  else
    ((s.index, some (mixedModel s.names .none)), none)

/-- The variables with which the loop of mixed content begins. -/
def mixedStart : MixedScan :=
  { index :=
      min (skipSpaces subset (min (skipSpaces subset (start + 1)) (stop + 1) + 7)) (stop + 1) }

/-- What the particle at `start` comes to. -/
inductive ParticleEnds : ContentOutcome → Prop where
  | mixed {s : MixedScan} {e : Option String} : startsMixed subset start →
      Leads MixedScan.isDone (mixedRound cfg subset stop) (mixedStart subset start stop) s e →
      Ended MixedScan.isDone s e → ParticleEnds (mixedOutcome subset stop s e)
  | content {s : ContentScan} {e : Option String} : ¬ startsMixed subset start →
      Leads ContentScan.isDone (contentRound cfg subset stop) { index := start } s e →
      Ended ContentScan.isDone s e → ParticleEnds (contentOutcome stop s e)

end

section

variable {cfg : Config} {subset : String8} {start stop : Nat} {r : ContentOutcome}

theorem mixedStart_within (hstop : start ≤ stop) :
    (mixedStart subset start stop).Within start stop := by
  have hfirst : start + 1 ≤ skipSpaces subset (start + 1) := le_skipSpaces _ _
  have hsecond : min (skipSpaces subset (start + 1)) (stop + 1) + 7 ≤
      skipSpaces subset (min (skipSpaces subset (start + 1)) (stop + 1) + 7) :=
    le_skipSpaces _ _
  unfold mixedStart MixedScan.Within
  dsimp only
  omega

theorem contentStart_within (hstop : start ≤ stop) :
    ({ index := start } : ContentScan).Within start stop :=
  ⟨Nat.le_refl start, Nat.le_succ_of_le hstop, fun h ↦ (nomatch h), fun h ↦ nomatch h⟩

theorem exists_particleEnds (cfg : Config) (hstop : start ≤ stop) (hin : stop < subset.length) :
    ∃ r, ParticleEnds cfg subset start stop r := by
  by_cases hmixed : startsMixed subset start
  · obtain ⟨s, e, hleads, hend⟩ :=
      (mixedRound_progresses cfg hin hstop).exists_end (mixedStart_within hstop)
    exact ⟨_, .mixed hmixed hleads hend⟩
  · obtain ⟨s, e, hleads, hend⟩ :=
      (contentRound_progresses cfg hin).exists_end (contentStart_within hstop)
    exact ⟨_, .content hmixed hleads hend⟩

theorem run_parseMixedContentParticle {p : Parser} {s : MixedScan} {e : Option String}
    (hp : p.core.hasError = false) (hstop : start ≤ stop) (hin : stop < subset.length)
    (hleads : Leads MixedScan.isDone (mixedRound p.config subset stop)
      (mixedStart subset start stop) s e) (hend : Ended MixedScan.isDone s e) :
    (parseMixedContentParticle subset start stop).run Parser.routineMachine p =
      some ((mixedOutcome subset stop s e).1, p.raise (mixedOutcome subset stop s e).2) := by
  have hfirst := (mixedStart_within hstop : (mixedStart subset start stop).Within start stop)
  have hloop : (loop (fun s : MixedScan ↦ do return s.isDone || (← hasError))
      (mixedScanStep subset stop) (stop + 3 - start) (mixedStart subset start stop)).run
      Parser.routineMachine (p.raise none) = some (s, p.raise e) :=
    (mixedRound_progresses p.config hin hstop).run_loop
      (fun s e ↦ by rw [run_bind, run_hasError_raise hp]; rfl)
      (fun s _ _ ↦ run_mixedScanStep subset stop s) hfirst (by have := hfirst.1; omega) hleads
      hend
  unfold parseMixedContentParticle
  dsimp only
  rw [run_bind]
  refine (congrArg (fun o ↦ Option.bind o _) hloop).trans ?_
  rw [Option.bind_some]
  dsimp only
  rw [run_bind, run_hasError_raise hp, Option.bind_some]
  unfold mixedOutcome
  dsimp only
  split
  · rfl
  · rename_i hnone
    rw [Bool.not_eq_true, Option.isSome_eq_false_iff, Option.isNone_iff_eq_none] at hnone
    subst hnone
    split
    · rfl
    split
    · rfl
    split <;> rfl

/-- The routine comes to what its rounds lead to. -/
theorem run_parseContentParticle {p : Parser} (hp : p.core.hasError = false) (hstop : start ≤ stop)
    (hin : stop < subset.length) (h : ParticleEnds p.config subset start stop r) :
    (parseContentParticle subset start stop).run Parser.routineMachine p =
      some (r.1, p.raise r.2) := by
  unfold parseContentParticle
  cases h with
  | mixed hmixed hleads hend =>
    rw [if_pos (show _ ∧ _ from hmixed)]
    exact run_parseMixedContentParticle hp hstop hin hleads hend
  | @content s e hmixed hleads hend =>
    have hloop : (loop (fun s : ContentScan ↦ do return s.result.isSome || (← hasError))
        (contentScanStep subset stop) (stop + 3 - start) { index := start }).run
        Parser.routineMachine (p.raise none) = some (s, p.raise e) :=
      (contentRound_progresses p.config hin).run_loop
        (fun s e ↦ by rw [run_bind, run_hasError_raise hp]; rfl)
        (fun s _ _ ↦ run_contentScanStep hp subset stop s) (contentStart_within hstop)
        (by dsimp only; omega) hleads hend
    rw [if_neg (show ¬ (_ ∧ _) from hmixed), run_bind]
    refine (congrArg (fun o ↦ Option.bind o _) hloop).trans ?_
    rw [Option.bind_some]
    dsimp only
    rw [run_bind, run_hasError_raise hp, Option.bind_some]
    unfold contentOutcome
    split
    · rfl
    · rename_i hnone
      rw [Bool.not_eq_true, Option.isSome_eq_false_iff, Option.isNone_iff_eq_none] at hnone
      subst hnone
      rfl

end

end Xpact
