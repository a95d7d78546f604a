import Xpact.Grammar.Names
import Xpact.Sessions.ExpatPort
import Xpact.Sessions.Incremental
import Xpact.Text.Contracts

/-!
# Contracts of the sessions

The routines of the two sessions once more, with indices into the buffer as their classes have them,
and with what their contracts ask: preconditions on indices, valid indices of strings, and variants.
Without a violation they come to what the routines without checks come to.
-/

namespace Xpact

open Library Checked

namespace Session

/-! ## Reading a tag -/

section

-- `stop` is the index of the `>` of the tag.  That it is one of the buffer is asked by the routines
-- of one of the sessions only, where `asksStop` is set.
variable (asksStop : Bool) (buffer : String8) (stop : Nat)

/-- The loop over characters with `p`, before `stop`. -/
def scanWhile (p : Character8 → Bool) (start : Nat) : Checked Nat :=
  loop (fun i : Nat ↦ (stop : Int) - i)
    (fun i ↦ if stop ≤ i then .ok true else do return !p (← itemAt buffer i))
    (fun i ↦ .ok (i + 1)) start

/-- `i < stop` and then `p (buffer.item (i))`. -/
def holdsAt (p : Character8 → Bool) (i : Nat) : Checked Bool :=
  if i < stop then do return p (← itemAt buffer i) else .ok false

/-- `skip_spaces`. -/
def checkedSkipSpaces (start : Nat) : Checked Nat := do
  require (1 ≤ start ∧ start ≤ stop)
  require (asksStop = true → stop ≤ buffer.length)
  scanWhile buffer stop isXmlSpace start

/-- The variables of the loop of `parse_attributes`. -/
structure AttributeScan where
  index : Nat
  attributes : Attributes
  error : Option String := none
  done : Bool := false
  doneIndex : Nat := 0
  deriving DecidableEq

def AttributeScan.fail (k : AttributeScan) (i : Nat) (message : String) : AttributeScan :=
  { k with index := i, error := some message }

/-- The attribute whose name begins at `start`. -/
def checkedAttribute (k : AttributeScan) (start : Nat) : Checked AttributeScan := do
  let nameEnd ← scanWhile buffer stop isNameCharacter (start + 1)
  let name ← substringAt buffer start (nameEnd - 1)
  let i ← checkedSkipSpaces asksStop buffer stop nameEnd
  if !(← holdsAt buffer stop (· == '=') i) then
    return k.fail i "invalid attribute"
  else do
    let i ← checkedSkipSpaces asksStop buffer stop (i + 1)
    if !(← holdsAt buffer stop isQuote i) then
      return k.fail i "invalid attribute"
    else do
      let quote ← itemAt buffer i
      let valueEnd ← scanWhile buffer stop (· != quote) (i + 1)
      if stop ≤ valueEnd then
        return k.fail valueEnd "invalid attribute"
      else do
        let value ← substringAt buffer (i + 1) (valueEnd - 1)
        if k.attributes.has name then
          return k.fail (valueEnd + 1) "duplicate attribute"
        else
          return { k with index := valueEnd + 1, attributes := k.attributes.put name value }

/-- A round of `parse_attributes`. -/
def checkedAttributeStep (k : AttributeScan) : Checked AttributeScan := do
  let i ← checkedSkipSpaces asksStop buffer stop k.index
  if ← holdsAt buffer stop (· == '/') i then
    return { k with index := stop, done := true, doneIndex := i }
  else if i < stop then do
    if !isNameStartCharacter (← itemAt buffer i) then
      return k.fail i "invalid attribute"
    else
      checkedAttribute asksStop buffer stop k i
  else
    return { k with index := i }

/-- The loop of `parse_attributes`. -/
def checkedAttributeLoop (k : AttributeScan) : Checked AttributeScan :=
  loop (fun k : AttributeScan ↦ (stop : Int) - k.index)
    (fun k ↦ .ok (stop ≤ k.index || k.error.isSome || k.done))
    (checkedAttributeStep asksStop buffer stop) k

/-- The index that `parse_attributes` returns. -/
def AttributeScan.result (k : AttributeScan) : Nat :=
  if 0 < k.doneIndex then k.doneIndex else k.index

/-- `parse_attributes`. -/
def checkedParseAttributes (start : Nat) : Checked AttributeScan := do
  require (2 ≤ start ∧ start ≤ stop)
  require (asksStop = true → stop ≤ buffer.length)
  checkedAttributeLoop asksStop buffer stop { index := start, attributes := .make }

/-- The first part of `advance_start_tag` and `process_start_tag`. -/
def checkedReadStartTag : Checked (Except String StartTag) := do
  require (3 ≤ stop ∧ stop ≤ buffer.length)
  if !isNameStartCharacter (← itemAt buffer 2) then
    return .error "invalid start tag"
  else do
    let nameEnd ← scanWhile buffer stop isNameCharacter 3
    let name ← substringAt buffer 2 (nameEnd - 1)
    let k ← checkedParseAttributes asksStop buffer stop nameEnd
    match k.error with
    | some message => return .error message
    | none =>
      let i ← checkedSkipSpaces asksStop buffer stop k.result
      let isEmpty ← holdsAt buffer stop (· == '/') i
      let i ← if isEmpty then checkedSkipSpaces asksStop buffer stop (i + 1) else pure i
      if i = stop then
        return .ok ⟨name, k.attributes, isEmpty⟩
      else
        return .error "invalid start tag"

/-- The first part of `advance_end_tag` and `process_end_tag`. -/
def checkedReadEndTag : Checked (Except String String8) := do
  require (4 ≤ stop ∧ stop ≤ buffer.length)
  if !(← holdsAt buffer stop isNameStartCharacter 3) then
    return .error "invalid end tag"
  else do
    let nameEnd ← scanWhile buffer stop isNameCharacter 4
    let name ← substringAt buffer 3 (nameEnd - 1)
    let i ← checkedSkipSpaces asksStop buffer stop nameEnd
    if i = stop then
      return .ok name
    else
      return .error "invalid end tag"

end

/-- The variables of the loop of `complete_markup_end`. -/
structure MarkupSearch where
  index : Nat
  quote : Option Character8
  result : Nat

def checkedMarkupEndStep (buffer : String8) (k : MarkupSearch) : Checked MarkupSearch := do
  let c ← itemAt buffer k.index
  let next : MarkupSearch := { k with index := k.index + 1 }
  match k.quote with
  | some q => return { next with quote := if c = q then none else some q }
  | none =>
    if isQuote c then return { next with quote := some c }
    else if c = '>' then return { next with result := k.index }
    else return next

def checkedMarkupEndLoop (buffer : String8) (k : MarkupSearch) : Checked MarkupSearch :=
  loop (fun k : MarkupSearch ↦ (buffer.length : Int) - k.index + 1)
    (fun k ↦ .ok (buffer.length < k.index || 0 < k.result)) (checkedMarkupEndStep buffer) k

/-- `complete_markup_end`. -/
def checkedCompleteMarkupEnd (buffer : String8) : Checked Nat := do
  let k ← checkedMarkupEndLoop buffer ⟨2, none, 0⟩
  return k.result

/-- The lines and columns of `update_position`. -/
def checkedPositionLoop (text : String8) (k : Nat × Position) : Checked (Nat × Position) :=
  loop (fun k : Nat × Position ↦ (text.length : Int) - k.1 + 1)
    (fun k ↦ .ok (text.length < k.1))
    (fun (i, p) ↦ do
      if (← itemAt text i) = '\n' then return (i + 1, { p with line := p.line + 1, column := 0 })
      else return (i + 1, { p with column := p.column + 1 })) k

/-- `update_position`. -/
def checkedUpdatePosition (p : Position) (text : String8) : Checked Position := do
  let k ← checkedPositionLoop text (1, p)
  return { k.2 with byteIndex := k.2.byteIndex + text.length }

/-! ## What stands before the end of a tag -/

section

variable {asksStop : Bool} {buffer tail rest u v : String8} {stop i : Nat} {c : Character8}
  {p : Character8 → Bool}

/-- `rest` stands at `i`, and the tag ends with `stop`, behind it. -/
structure InTag (buffer tail : String8) (stop i : Nat) (rest : String8) : Prop where
  restAt : RestAt buffer i (rest ++ tail)
  stop_eq : i + rest.length = stop
  le : stop ≤ buffer.length

namespace InTag

theorem append (h : InTag buffer tail stop i (u ++ v)) :
    InTag buffer tail stop (i + u.length) v := by
  have hstop := h.stop_eq
  rw [List.length_append] at hstop
  refine ⟨?_, by omega, h.le⟩
  have hat := h.restAt
  rw [List.append_assoc] at hat
  exact hat.append

theorem cons (h : InTag buffer tail stop i (c :: v)) : InTag buffer tail stop (i + 1) v :=
  append (u := [c]) h

theorem itemAt (h : InTag buffer tail stop i (c :: v)) : Xpact.itemAt buffer i = .ok c :=
  itemAt_of_restAt h.restAt

theorem lt (h : InTag buffer tail stop i (c :: v)) : i < stop := by
  have hstop := h.stop_eq
  rw [List.length_cons] at hstop
  omega

theorem le_stop (h : InTag buffer tail stop i rest) : i ≤ stop := by
  have hstop := h.stop_eq
  omega

theorem substringAt (h : InTag buffer tail stop i (u ++ v)) :
    Xpact.substringAt buffer i (i + u.length - 1) = .ok u := by
  have hat := h.restAt
  rw [List.append_assoc] at hat
  exact substringAt_of_restAt hat

theorem holdsAt_nil (h : InTag buffer tail stop i []) : holdsAt buffer stop p i = .ok false := by
  have hstop := h.stop_eq
  rw [List.length_nil] at hstop
  unfold holdsAt
  rw [if_neg (by omega)]

theorem holdsAt_cons (h : InTag buffer tail stop i (c :: v)) :
    holdsAt buffer stop p i = .ok (p c) := by
  unfold holdsAt
  rw [if_pos h.lt, h.itemAt]
  rfl

theorem holdsAt (h : InTag buffer tail stop i rest) :
    holdsAt buffer stop p i = .ok (rest.head?.any p) := by
  cases rest with
  | nil => exact h.holdsAt_nil
  | cons c v => exact h.holdsAt_cons

/-- The loop over characters steps over those that satisfy its test. -/
theorem scanWhile (h : InTag buffer tail stop i rest) :
    scanWhile buffer stop p i = .ok (i + (rest.takeWhile p).length) ∧
      InTag buffer tail stop (i + (rest.takeWhile p).length) (rest.dropWhile p) := by
  constructor
  · induction rest generalizing i with
    | nil =>
      have hstop := h.stop_eq
      rw [List.length_nil] at hstop
      unfold Session.scanWhile
      apply loop_of_finished
      · omega
      · exact if_pos (by omega)
    | cons c v ih =>
      have hlt := h.lt
      have htest : (if stop ≤ i then .ok true else do return !p (← Xpact.itemAt buffer i)) =
          (.ok (!p c) : Checked Bool) := by
        rw [if_neg (by omega), h.itemAt]
        rfl
      by_cases hc : p c = true
      · rw [List.takeWhile_cons_of_pos hc, List.length_cons, ← Nat.add_assoc,
          Nat.add_right_comm, ← ih h.cons]
        unfold Session.scanWhile
        rw [hc] at htest
        exact loop_next (by omega) htest rfl (by omega) (by omega)
      · rw [List.takeWhile_cons_of_neg hc]
        rw [Bool.not_eq_true] at hc
        rw [hc] at htest
        unfold Session.scanWhile
        exact loop_of_finished (by omega) htest
  · apply append
    rw [List.takeWhile_append_dropWhile]
    exact h

theorem checkedSkipSpaces (asksStop : Bool) (h : InTag buffer tail stop i rest) :
    checkedSkipSpaces asksStop buffer stop i = .ok (i + (rest.takeWhile isXmlSpace).length) ∧
      InTag buffer tail stop (i + (rest.takeWhile isXmlSpace).length)
        (rest.dropWhile isXmlSpace) := by
  obtain ⟨hscan, hrest⟩ := h.scanWhile (p := isXmlSpace)
  refine ⟨?_, hrest⟩
  unfold Session.checkedSkipSpaces
  rw [require_of ⟨h.restAt.pos, h.le_stop⟩, ok_bind, require_of fun _ ↦ h.le, ok_bind]
  exact hscan

end InTag

end

/-! ## A round of the attributes -/

/-- What a round comes to: the end of the attributes, an error, or an attribute. -/
inductive AttributeRound where
  | finished (rest : String8)
  | failed (message : String)
  | read (rest : String8) (a : Attributes)

/-- The attribute whose name begins with `c`, in front of `rest`. -/
def namedRound (c : Character8) (rest : String8) (a : Attributes) : AttributeRound :=
  match (rest.dropWhile isNameCharacter).dropWhile isXmlSpace with
  | [] => .failed "invalid attribute"
  | d :: behind =>
    if d ≠ '=' then
      .failed "invalid attribute"
    else
      match behind.dropWhile isXmlSpace with
      | [] => .failed "invalid attribute"
      | quote :: text =>
        if !isQuote quote then
          .failed "invalid attribute"
        else
          match text.dropWhile (· != quote) with
          | [] => .failed "invalid attribute"
          | _ :: rest' =>
            if a.has (c :: rest.takeWhile isNameCharacter) then .failed "duplicate attribute"
            else
              .read rest' (a.put (c :: rest.takeWhile isNameCharacter)
                (text.takeWhile (· != quote)))

/-- A round of `parseAttributes`. -/
def attributeRound (rest : String8) (a : Attributes) : AttributeRound :=
  match rest.dropWhile isXmlSpace with
  | [] => .finished []
  | c :: rest =>
    if c = '/' then .finished (c :: rest)
    else if !isNameStartCharacter c then .failed "invalid attribute"
    else namedRound c rest a

theorem parseAttributes_succ (n : Nat) (rest : String8) (a : Attributes) :
    parseAttributes (n + 1) rest a =
      match attributeRound rest a with
      | .finished rest => .ok (rest, a)
      | .failed message => .error message
      | .read rest a => parseAttributes n rest a := by
  unfold attributeRound
  rw [parseAttributes]
  cases rest.dropWhile isXmlSpace with
  | nil => rfl
  | cons c rest =>
    dsimp only
    by_cases hslash : c = '/'
    · rw [if_pos hslash, if_pos hslash]
    rw [if_neg hslash, if_neg hslash]
    by_cases hname : (!isNameStartCharacter c) = true
    · rw [if_pos hname, if_pos hname]
    rw [if_neg hname, if_neg hname]
    unfold namedRound
    cases (rest.dropWhile isNameCharacter).dropWhile isXmlSpace with
    | nil => rfl
    | cons d behind =>
      dsimp only
      by_cases hsign : d ≠ '='
      · rw [if_pos hsign, if_pos hsign]
      rw [if_neg hsign, if_neg hsign]
      cases behind.dropWhile isXmlSpace with
      | nil => rfl
      | cons quote text =>
        dsimp only
        by_cases hquote : (!isQuote quote) = true
        · rw [if_pos hquote, if_pos hquote]
        rw [if_neg hquote, if_neg hquote]
        cases text.dropWhile (· != quote) with
        | nil => rfl
        | cons e rest' =>
          dsimp only
          by_cases hhas : a.has (c :: rest.takeWhile isNameCharacter) = true
          · rw [if_pos hhas, if_pos hhas]
          · rw [if_neg hhas, if_neg hhas]

section

variable {asksStop : Bool} {buffer tail rest : String8} {stop i : Nat}

/-- What may not stand directly behind a name or behind the value of an attribute. -/
def IsStray (c : Character8) : Prop :=
  isXmlSpace c = false ∧ c ≠ '/' ∧ isNameStartCharacter c = false

/-- `t` is what a round makes of `k`, which is at `i`, where `rest` stands. -/
def Shows (buffer tail : String8) (stop i : Nat) (rest : String8) (k t : AttributeScan) :
    AttributeRound → Prop
  | .finished [] => t = { k with index := stop }
  | .finished (c :: v) => ∃ j, InTag buffer tail stop j (c :: v) ∧
      t = { k with index := stop, done := true, doneIndex := j }
  | .failed message => ∃ j, t = k.fail j message ∧ i ≤ j ∧ j ≤ stop ∧
      (j = i ↔ ∃ c v, rest = c :: v ∧ IsStray c)
  | .read rest' a => ∃ j, t = { k with index := j, attributes := a } ∧
      InTag buffer tail stop j rest' ∧ i < j

/-- A character that is no name start, found behind white space or directly. -/
theorem stray_iff {c : Character8} {v : String8} (hrest : rest.dropWhile isXmlSpace = c :: v)
    (hslash : c ≠ '/') (hname : isNameStartCharacter c = false) :
    i + (rest.takeWhile isXmlSpace).length = i ↔ ∃ c v, rest = c :: v ∧ IsStray c := by
  constructor
  · intro h
    have hnil : rest.takeWhile isXmlSpace = [] := List.length_eq_zero_iff.1 (by omega)
    have hwhole := List.takeWhile_append_dropWhile (p := isXmlSpace) (l := rest)
    rw [hnil, List.nil_append] at hwhole
    have hspace : isXmlSpace c = false := by
      have hhead := List.head?_dropWhile_not isXmlSpace rest
      rw [hrest] at hhead
      exact hhead
    exact ⟨c, v, by rw [← hrest, hwhole], hspace, hslash, hname⟩
  · rintro ⟨d, w, rfl, hspace, -, -⟩
    rw [List.takeWhile_cons_of_neg (by rw [hspace]; exact Bool.false_ne_true)]
    rfl

/-- Where a round has read a name, nothing stray stands in front. -/
theorem not_stray {c : Character8} {v : String8} (hrest : rest.dropWhile isXmlSpace = c :: v)
    (hname : isNameStartCharacter c = true) : ¬ ∃ c v, rest = c :: v ∧ IsStray c := by
  rintro ⟨d, w, rfl, hspace, -, hstray⟩
  rw [List.dropWhile_cons_of_neg (by rw [hspace]; exact Bool.false_ne_true)] at hrest
  rw [(List.cons.inj hrest).1] at hstray
  exact absurd (hstray.symm.trans hname) Bool.false_ne_true

/-- The checked routine reads an attribute without a violation. -/
theorem checkedAttribute_eq (asksStop : Bool) {c : Character8} {v : String8}
    (h : InTag buffer tail stop i (c :: v)) (k : AttributeScan) :
    ∃ t j, checkedAttribute asksStop buffer stop k i = .ok t ∧ i < j ∧ j ≤ stop ∧
      match namedRound c v k.attributes with
      | .finished _ => False
      | .failed message => t = k.fail j message
      | .read rest' a => t = { k with index := j, attributes := a } ∧
          InTag buffer tail stop j rest' := by
  unfold checkedAttribute namedRound
  obtain ⟨hscan, hbehind⟩ := h.cons.scanWhile (p := isNameCharacter)
  have hname : substringAt buffer i (i + 1 + (v.takeWhile isNameCharacter).length - 1) =
      .ok (c :: v.takeWhile isNameCharacter) := by
    have hsplit : InTag buffer tail stop i
        ((c :: v.takeWhile isNameCharacter) ++ v.dropWhile isNameCharacter) := by
      rw [List.cons_append, List.takeWhile_append_dropWhile]
      exact h
    have hpart := hsplit.substringAt
    rwa [List.length_cons, ← Nat.add_assoc, Nat.add_right_comm] at hpart
  obtain ⟨hskip, hsign⟩ := hbehind.checkedSkipSpaces asksStop
  rw [hscan, ok_bind, hname, ok_bind, hskip, ok_bind]
  generalize hj : i + 1 + (v.takeWhile isNameCharacter).length +
    ((v.dropWhile isNameCharacter).takeWhile isXmlSpace).length = j at hsign
  cases hrest : (v.dropWhile isNameCharacter).dropWhile isXmlSpace with
  | nil =>
    rw [hrest] at hsign
    rw [hsign.holdsAt_nil, ok_bind]
    exact ⟨_, j, rfl, by omega, hsign.le_stop, rfl⟩
  | cons d behind =>
    rw [hrest] at hsign
    have hholds : holdsAt buffer stop (· == '=') j = .ok (d == '=') := hsign.holdsAt_cons
    rw [hholds, ok_bind]
    dsimp only
    by_cases hd : d = '='
    · have htest : ¬ (!(d == '=')) = true := by
        rw [hd]
        decide
      rw [if_neg htest, if_neg (not_not.2 hd)]
      obtain ⟨hskip', hquote⟩ := hsign.cons.checkedSkipSpaces asksStop
      rw [hskip', ok_bind]
      generalize hm : j + 1 + (behind.takeWhile isXmlSpace).length = m at hquote
      cases hrest' : behind.dropWhile isXmlSpace with
      | nil =>
        rw [hrest'] at hquote
        rw [hquote.holdsAt_nil, ok_bind]
        exact ⟨_, m, rfl, by omega, hquote.le_stop, rfl⟩
      | cons quote text =>
        rw [hrest'] at hquote
        rw [hquote.holdsAt_cons, ok_bind]
        dsimp only
        by_cases hq : (!isQuote quote) = true
        · rw [if_pos hq, if_pos hq]
          exact ⟨_, m, rfl, by omega, hquote.le_stop, rfl⟩
        rw [if_neg hq, if_neg hq, hquote.itemAt, ok_bind]
        obtain ⟨hvalue, hclose⟩ := hquote.cons.scanWhile (p := (· != quote))
        rw [hvalue, ok_bind]
        have hwritten : substringAt buffer (m + 1)
            (m + 1 + (text.takeWhile (· != quote)).length - 1) =
              .ok (text.takeWhile (· != quote)) := by
          have hsplit := hquote.cons
          rw [← List.takeWhile_append_dropWhile (p := (· != quote)) (l := text)] at hsplit
          exact hsplit.substringAt
        generalize hl : m + 1 + (text.takeWhile (· != quote)).length = l at hclose hwritten
        cases hend : text.dropWhile (· != quote) with
        | nil =>
          rw [hend] at hclose
          have hstop := hclose.stop_eq
          rw [List.length_nil] at hstop
          rw [if_pos (by omega)]
          exact ⟨_, l, rfl, by omega, hclose.le_stop, rfl⟩
        | cons e rest' =>
          rw [hend] at hclose
          have hlt := hclose.lt
          rw [if_neg (by omega), hwritten, ok_bind]
          dsimp only
          by_cases hhas : k.attributes.has (c :: v.takeWhile isNameCharacter) = true
          · rw [if_pos hhas]
            exact ⟨_, l + 1, rfl, by omega, hclose.cons.le_stop, by rw [if_pos hhas]⟩
          · rw [if_neg hhas]
            exact ⟨_, l + 1, rfl, by omega, hclose.cons.le_stop, by
              rw [if_neg hhas]; exact ⟨rfl, hclose.cons⟩⟩
    · have htest : (!(d == '=')) = true := by
        rw [beq_false_of_ne hd]
        rfl
      rw [if_pos htest, if_pos hd]
      exact ⟨_, j, rfl, by omega, hsign.le_stop, rfl⟩

/-- A round of the checked loop is a round of the attributes. -/
theorem checkedAttributeStep_shows (h : InTag buffer tail stop i rest) {k : AttributeScan}
    (hk : k.index = i) :
    ∃ t, checkedAttributeStep asksStop buffer stop k = .ok t ∧
      Shows buffer tail stop i rest k t (attributeRound rest k.attributes) := by
  unfold checkedAttributeStep attributeRound
  obtain ⟨hskip, hat⟩ := h.checkedSkipSpaces asksStop
  have hle := hat.le_stop
  rw [hk, hskip, ok_bind]
  cases hrest : rest.dropWhile isXmlSpace with
  | nil =>
    rw [hrest] at hat
    have hstop := hat.stop_eq
    rw [List.length_nil] at hstop
    rw [hat.holdsAt_nil, ok_bind, if_neg Bool.false_ne_true, if_neg (by omega)]
    refine ⟨_, rfl, ?_⟩
    show _ = { k with index := stop }
    rw [← hstop]
    rfl
  | cons c v =>
    rw [hrest] at hat
    have hholds : holdsAt buffer stop (· == '/') (i + (rest.takeWhile isXmlSpace).length) =
        .ok (c == '/') := hat.holdsAt_cons
    rw [hholds, ok_bind]
    dsimp only
    by_cases hslash : c = '/'
    · rw [if_pos (beq_iff_eq.2 hslash), if_pos hslash]
      exact ⟨_, rfl, _, hat, rfl⟩
    rw [if_neg (fun heq ↦ hslash (beq_iff_eq.1 heq)), if_neg hslash, if_pos hat.lt, hat.itemAt,
      ok_bind]
    by_cases hname : (!isNameStartCharacter c) = true
    · rw [if_pos hname, if_pos hname]
      rw [Bool.not_eq_true'] at hname
      exact ⟨_, rfl, _, rfl, by omega, hle, stray_iff hrest hslash hname⟩
    · rw [if_neg hname, if_neg hname]
      rw [Bool.not_eq_true', Bool.not_eq_false] at hname
      obtain ⟨t, j, hread, hlt, hstop, hshows⟩ := checkedAttribute_eq asksStop hat k
      refine ⟨t, hread, ?_⟩
      cases hround : namedRound c v k.attributes with
      | finished rest' =>
        rw [hround] at hshows
        exact hshows.elim
      | failed message =>
        rw [hround] at hshows
        refine ⟨j, hshows, by omega, hstop, ?_⟩
        constructor
        · intro heq
          omega
        · intro hstray
          exact absurd hstray (not_stray hrest hname)
      | read rest' a =>
        rw [hround] at hshows
        exact ⟨j, hshows.1, hshows.2, by omega⟩

end

/-! ## Attributes as they are written -/

/-- An attribute with the white space in front and inside. -/
structure WrittenAttribute where
  before : String8
  name : String8
  between : String8
  after : String8
  quote : Character8
  value : String8

namespace WrittenAttribute

def text (w : WrittenAttribute) : String8 :=
  w.before ++ (w.name ++ (w.between ++ ('=' : Character8) ::
    (w.after ++ w.quote :: (w.value ++ [w.quote]))))

structure IsWritten (w : WrittenAttribute) : Prop where
  before : ∀ c ∈ w.before, isXmlSpace c = true
  name : ∃ c rest, w.name = c :: rest ∧ isNameStartCharacter c = true ∧
    ∀ d ∈ rest, isNameCharacter d = true
  between : ∀ c ∈ w.between, isXmlSpace c = true
  after : ∀ c ∈ w.after, isXmlSpace c = true
  quote : isQuote w.quote = true
  value : w.quote ∉ w.value

end WrittenAttribute

/-- Something stray stands directly behind the name of the tag or behind one of its attributes,
whose names are not in `a` and differ. -/
inductive StrayBehind : Attributes → String8 → Prop
  | here {a : Attributes} {c : Character8} (rest : String8) : IsStray c → StrayBehind a (c :: rest)
  | behind {a : Attributes} {w : WrittenAttribute} {rest : String8} :
    w.IsWritten → a.has w.name = false → StrayBehind (a.put w.name w.value) rest →
      StrayBehind a (w.text ++ rest)

section

variable {u v rest rest' : String8} {a a' : Attributes} {w : WrittenAttribute}

theorem takeWhile_dropWhile_append {p : Character8 → Bool} (hu : ∀ c ∈ u, p c = true)
    (hv : ∀ c ∈ v.head?, p c = false) :
    (u ++ v).takeWhile p = u ∧ (u ++ v).dropWhile p = v := by
  rw [List.takeWhile_append_of_pos hu, List.dropWhile_append_of_pos hu]
  cases v with
  | nil =>
    rw [List.takeWhile_nil, List.dropWhile_nil, List.append_nil]
    exact ⟨rfl, rfl⟩
  | cons c v =>
    have hc : ¬ p c = true := by
      rw [hv c rfl]
      exact Bool.false_ne_true
    rw [List.takeWhile_cons_of_neg hc, List.dropWhile_cons_of_neg hc, List.append_nil]
    exact ⟨rfl, rfl⟩

/-- What may follow a name inside of a tag does not continue it. -/
theorem not_isNameCharacter {c : Character8} (h : isXmlSpace c = true ∨ c = '=') :
    isNameCharacter c = false := by
  revert c
  apply forall_byte
  decide +kernel

theorem head_of_spaces {c : Character8} (hu : ∀ c ∈ u, isXmlSpace c = true) {d : Character8}
    (hd : d ∈ (u ++ c :: v).head?) : isXmlSpace d = true ∨ d = c := by
  cases u with
  | nil => exact .inr (Option.some.inj hd).symm
  | cons e u =>
    have hde : e = d := Option.some.inj hd
    exact .inl (hde ▸ hu e List.mem_cons_self)

theorem WrittenAttribute.IsWritten.round (hw : w.IsWritten) :
    attributeRound (w.text ++ rest) a =
      if a.has w.name then .failed "duplicate attribute"
      else .read rest (a.put w.name w.value) := by
  obtain ⟨c, n, hname, hstart, hchars⟩ := hw.name
  have hspace : isXmlSpace c = false := isXmlSpace_of_nameStart hstart
  have hslash : c ≠ '/' := by
    rintro rfl
    revert hstart
    decide
  have hwhole : w.text ++ rest = w.before ++ c :: (n ++ (w.between ++ ('=' : Character8) ::
      (w.after ++ w.quote :: (w.value ++ w.quote :: rest)))) := by
    unfold WrittenAttribute.text
    rw [hname]
    simp only [List.append_assoc, List.cons_append, List.nil_append]
  have hbefore := (takeWhile_dropWhile_append (p := isXmlSpace)
    (v := c :: (n ++ (w.between ++ ('=' : Character8) ::
      (w.after ++ w.quote :: (w.value ++ w.quote :: rest))))) hw.before (fun d hd ↦ by
        rw [← Option.some.inj hd]; exact hspace)).2
  have hbehind := takeWhile_dropWhile_append (p := isNameCharacter)
    (v := w.between ++ ('=' : Character8) :: (w.after ++ w.quote :: (w.value ++ w.quote :: rest)))
    hchars (fun d hd ↦ not_isNameCharacter (head_of_spaces hw.between hd))
  have hsign := (takeWhile_dropWhile_append (p := isXmlSpace)
    (v := ('=' : Character8) :: (w.after ++ w.quote :: (w.value ++ w.quote :: rest)))
    hw.between (fun d hd ↦ by rw [← Option.some.inj hd]; decide)).2
  have hafter := (takeWhile_dropWhile_append (p := isXmlSpace)
    (v := w.quote :: (w.value ++ w.quote :: rest))
    hw.after (fun d hd ↦ by rw [← Option.some.inj hd]; exact isXmlSpace_of_isQuote hw.quote)).2
  have hvalue := takeWhile_dropWhile_append (u := w.value) (v := w.quote :: rest)
    (p := (· != w.quote)) (fun d hd ↦ bne_iff_ne.2 fun heq ↦ hw.value (heq ▸ hd))
    (fun d hd ↦ by rw [← Option.some.inj hd]; exact bne_self_eq_false w.quote)
  unfold attributeRound namedRound
  rw [hwhole, hbefore]
  dsimp only
  rw [if_neg hslash, hstart, hbehind.1, hbehind.2, hsign]
  simp only [Bool.not_true, Bool.false_eq_true, if_false, ne_eq, not_true_eq_false, hafter,
    hw.quote, hvalue.1, hvalue.2, hname]

/-- What a round reads was written. -/
theorem exists_written (h : attributeRound rest a = .read rest' a') :
    ∃ w : WrittenAttribute, w.IsWritten ∧ rest = w.text ++ rest' ∧ a.has w.name = false ∧
      a' = a.put w.name w.value := by
  unfold attributeRound at h
  have hspaces := List.takeWhile_append_dropWhile (p := isXmlSpace) (l := rest)
  cases hrest : rest.dropWhile isXmlSpace with
  | nil =>
    rw [hrest] at h
    cases h
  | cons c behind =>
    rw [hrest] at h hspaces
    dsimp only at h
    split at h
    · cases h
    split at h
    · cases h
    rename_i hname
    rw [Bool.not_eq_true', Bool.not_eq_false] at hname
    unfold namedRound at h
    have hchars := List.takeWhile_append_dropWhile (p := isNameCharacter) (l := behind)
    have hbetween := List.takeWhile_append_dropWhile (p := isXmlSpace)
      (l := behind.dropWhile isNameCharacter)
    cases hsign : (behind.dropWhile isNameCharacter).dropWhile isXmlSpace with
    | nil =>
      rw [hsign] at h
      cases h
    | cons d following =>
      rw [hsign] at h hbetween
      dsimp only at h
      split at h
      · cases h
      rename_i hd
      rw [not_not] at hd
      have hafter := List.takeWhile_append_dropWhile (p := isXmlSpace) (l := following)
      cases hquoted : following.dropWhile isXmlSpace with
      | nil =>
        rw [hquoted] at h
        cases h
      | cons quote text =>
        rw [hquoted] at h hafter
        dsimp only at h
        split at h
        · cases h
        rename_i hquote
        rw [Bool.not_eq_true', Bool.not_eq_false] at hquote
        have hvalue := List.takeWhile_append_dropWhile (p := (· != quote)) (l := text)
        cases hclose : text.dropWhile (· != quote) with
        | nil =>
          rw [hclose] at h
          cases h
        | cons e remaining =>
          rw [hclose] at h hvalue
          dsimp only at h
          split at h
          · cases h
          rename_i hhas
          obtain ⟨rfl, rfl⟩ := AttributeRound.read.inj h
          have he : e = quote := by
            have hhead := List.head?_dropWhile_not (· != quote) text
            rw [hclose] at hhead
            exact of_not_not fun hne ↦ absurd (bne_iff_ne.2 hne) (by rw [hhead]; decide)
          have hwhole : rest = rest.takeWhile isXmlSpace ++ c ::
              (behind.takeWhile isNameCharacter ++
                ((behind.dropWhile isNameCharacter).takeWhile isXmlSpace ++ d ::
                  (following.takeWhile isXmlSpace ++ quote ::
                    (text.takeWhile (· != quote) ++ e :: remaining)))) := by
            rw [hvalue, hafter, hbetween, hchars, hspaces]
          refine ⟨⟨rest.takeWhile isXmlSpace, c :: behind.takeWhile isNameCharacter,
            (behind.dropWhile isNameCharacter).takeWhile isXmlSpace,
            following.takeWhile isXmlSpace, quote, text.takeWhile (· != quote)⟩, ?_, ?_,
            Bool.not_eq_true _ ▸ hhas, rfl⟩
          · refine ⟨List.all_eq_true.1 List.all_takeWhile, ⟨c, _, rfl, hname,
              List.all_eq_true.1 List.all_takeWhile⟩, List.all_eq_true.1 List.all_takeWhile,
              List.all_eq_true.1 List.all_takeWhile, hquote, fun hmem ↦ ?_⟩
            have hne := List.all_eq_true.1 List.all_takeWhile quote hmem
            exact absurd rfl (bne_iff_ne.1 hne)
          · rw [hd, he] at hwhole
            unfold WrittenAttribute.text
            simp only [List.append_assoc, List.cons_append, List.nil_append]
            exact hwhole

theorem StrayBehind.round (h : StrayBehind a rest) :
    (∃ c v, rest = c :: v ∧ IsStray c) ∨
      ∃ rest' a', attributeRound rest a = .read rest' a' ∧ StrayBehind a' rest' := by
  cases h with
  | here rest hc => exact .inl ⟨_, rest, rfl, hc⟩
  | @behind _ w rest hw hhas hrest =>
    refine .inr ⟨rest, _, ?_, hrest⟩
    rw [hw.round, hhas]
    exact if_neg Bool.false_ne_true

theorem IsStray.round {c : Character8} (hc : IsStray c) :
    attributeRound (c :: rest) a = .failed "invalid attribute" := by
  obtain ⟨hspace, hslash, hname⟩ := hc
  have hdrop : (c :: rest).dropWhile isXmlSpace = c :: rest := by
    apply List.dropWhile_cons_of_neg
    rw [hspace]
    exact Bool.false_ne_true
  unfold attributeRound
  rw [hdrop]
  dsimp only
  rw [if_neg hslash, hname]
  exact if_pos rfl

theorem StrayBehind.of_read (hround : attributeRound rest a = .read rest' a')
    (h : StrayBehind a' rest') : StrayBehind a rest := by
  obtain ⟨w, hw, rfl, hhas, rfl⟩ := exists_written hround
  exact .behind hw hhas h

end

/-! ## The loop over the attributes -/

section

variable {asksStop : Bool} {buffer tail rest : String8} {stop i : Nat} {a : Attributes}

theorem checkedAttributeLoop_of_finished {k : AttributeScan} (hin : k.index ≤ stop)
    (h : (stop ≤ k.index || k.error.isSome || k.done) = true) :
    checkedAttributeLoop asksStop buffer stop k = .ok k := by
  unfold checkedAttributeLoop
  exact loop_of_finished (by omega) (congrArg Except.ok h)

theorem checkedAttributeLoop_next {t : AttributeScan}
    (hstep : checkedAttributeStep asksStop buffer stop { index := i, attributes := a } = .ok t)
    (hlt : i < t.index) (hin : t.index ≤ stop) :
    checkedAttributeLoop asksStop buffer stop { index := i, attributes := a } =
      checkedAttributeLoop asksStop buffer stop t := by
  unfold checkedAttributeLoop
  apply loop_next _ _ hstep
  · omega
  · show (stop : Int) - t.index < stop - i
    omega
  · show (0 : Int) ≤ stop - i
    omega
  · show (Except.ok (stop ≤ i || false || false) : Checked Bool) = .ok false
    rw [decide_eq_false (by omega)]
    rfl

/-- Behind a name or an attribute, something stray leaves the variant as it is. -/
theorem checkedAttributeLoop_of_stray (hstray : StrayBehind a rest)
    (h : InTag buffer tail stop i rest) :
    checkedAttributeLoop asksStop buffer stop { index := i, attributes := a } =
      .error .variant := by
  induction hstray generalizing i with
  | @here a c v hc =>
    obtain ⟨t, hstep, hshows⟩ :=
      checkedAttributeStep_shows (k := { index := i, attributes := a }) h rfl
    rw [hc.round] at hshows
    obtain ⟨j, rfl, -, -, hj⟩ := hshows
    obtain rfl : j = i := hj.2 ⟨c, v, rfl, hc⟩
    have hlt := h.lt
    unfold checkedAttributeLoop
    apply loop_stuck _ _ hstep (Int.le_refl _)
    · show (0 : Int) ≤ stop - j
      omega
    · show (Except.ok (stop ≤ j || false || false) : Checked Bool) = .ok false
      rw [decide_eq_false (by omega)]
      rfl
  | @behind a w rest hw hhas _ ih =>
    obtain ⟨t, hstep, hshows⟩ :=
      checkedAttributeStep_shows (k := { index := i, attributes := a }) h rfl
    rw [hw.round, hhas, if_neg Bool.false_ne_true] at hshows
    obtain ⟨j, rfl, hat, hlt⟩ := hshows
    rw [checkedAttributeLoop_next hstep hlt hat.le_stop]
    exact ih hat

/-- What the loop has come to, where the routine without checks comes to `result`. -/
def Matches (buffer tail : String8) (stop : Nat) (t : AttributeScan) :
    Except String (String8 × Attributes) → Prop
  | .error message => t.error = some message
  | .ok (rest, a) => t.error = none ∧ t.attributes = a ∧ InTag buffer tail stop t.result rest

/-- Elsewhere the loop ends without a violation, like the routine without checks. -/
theorem checkedAttributeLoop_of_not_stray (asksStop : Bool) {n : Nat} (hstray : ¬ StrayBehind a rest)
    (h : InTag buffer tail stop i rest) (hn : rest.length < n) :
    ∃ t, checkedAttributeLoop asksStop buffer stop { index := i, attributes := a } = .ok t ∧
      Matches buffer tail stop t (parseAttributes n rest a) := by
  induction n generalizing i rest a with
  | zero => omega
  | succ n ih =>
    have hstop := h.stop_eq
    have hend : InTag buffer tail stop stop [] := by
      have hwhole : InTag buffer tail stop i (rest ++ []) := by rwa [List.append_nil]
      have hbehind := hwhole.append
      rwa [hstop] at hbehind
    rw [parseAttributes_succ]
    by_cases hin : stop ≤ i
    · have hnil : rest = [] := List.length_eq_zero_iff.1 (by omega)
      subst hnil
      refine ⟨_, checkedAttributeLoop_of_finished h.le_stop ?_, rfl, rfl, h⟩
      rw [decide_eq_true hin]
      rfl
    obtain ⟨t, hstep, hshows⟩ :=
      checkedAttributeStep_shows (k := { index := i, attributes := a }) h rfl
    cases hround : attributeRound rest a with
    | finished v =>
      rw [hround] at hshows
      cases v with
      | nil =>
        obtain rfl := hshows
        rw [checkedAttributeLoop_next hstep (Nat.lt_of_not_le hin) (Nat.le_refl stop)]
        refine ⟨_, checkedAttributeLoop_of_finished (Nat.le_refl stop) ?_, rfl, rfl, hend⟩
        rw [decide_eq_true (Nat.le_refl stop)]
        rfl
      | cons c v =>
        obtain ⟨j, hat, rfl⟩ := hshows
        rw [checkedAttributeLoop_next hstep (Nat.lt_of_not_le hin) (Nat.le_refl stop)]
        refine ⟨_, checkedAttributeLoop_of_finished (Nat.le_refl stop) ?_, rfl, rfl, ?_⟩
        · exact Bool.or_true _
        · unfold AttributeScan.result
          dsimp only
          have hpos : 0 < j := hat.restAt.pos
          rw [if_pos hpos]
          exact hat
    | failed message =>
      rw [hround] at hshows
      obtain ⟨j, rfl, hle, hj, hsame⟩ := hshows
      have hne : j ≠ i := by
        intro heq
        obtain ⟨c, v, rfl, hc⟩ := hsame.1 heq
        exact hstray (.here v hc)
      have hlt : i < j := by omega
      rw [checkedAttributeLoop_next hstep hlt hj]
      refine ⟨_, checkedAttributeLoop_of_finished hj ?_, rfl⟩
      show (decide (stop ≤ j) || true || false) = true
      rw [Bool.or_true]
      rfl
    | read rest' a' =>
      rw [hround] at hshows
      obtain ⟨j, rfl, hat, hlt⟩ := hshows
      have hat_stop := hat.stop_eq
      rw [checkedAttributeLoop_next hstep hlt hat.le_stop]
      exact ih (fun hbehind ↦ hstray (.of_read hround hbehind)) hat (by omega)

end

/-! ## Tags -/

/-- In the tag something stray stands directly behind the name or behind an attribute. -/
def HasStray (tag : String8) : Prop :=
  ∃ c rest, tagBody 1 tag = c :: rest ∧ isNameStartCharacter c = true ∧
    StrayBehind .make (rest.dropWhile isNameCharacter)

section

variable {asksStop : Bool} {buffer tail rest : String8} {stop i : Nat}

theorem inTag_tagBody {skipped : Nat} (hskipped : skipped < stop) (hstop : stop ≤ buffer.length) :
    InTag buffer (buffer.drop (stop - 1)) stop (skipped + 1)
      (tagBody skipped (buffer.take stop)) := by
  have hbody : tagBody skipped (buffer.take stop) =
      (buffer.drop skipped).take (stop - 1 - skipped) := by
    unfold tagBody
    rw [List.dropLast_eq_take, List.length_drop, List.length_take, Nat.min_eq_left hstop,
      List.drop_take, List.take_take]
    congr 1
    omega
  have hlength : (tagBody skipped (buffer.take stop)).length = stop - 1 - skipped := by
    rw [hbody, List.length_take, List.length_drop]
    omega
  have hat : RestAt buffer (skipped + 1) (buffer.drop skipped) := .of_index (by omega) (by omega)
  have hsplit := List.take_append_drop (stop - 1 - skipped) (buffer.drop skipped)
  rw [List.drop_drop, ← hbody, show skipped + (stop - 1 - skipped) = stop - 1 by omega] at hsplit
  refine ⟨?_, by omega, hstop⟩
  rw [hsplit]
  exact hat

/-- The loop over white space comes to the end of the tag if nothing else is left. -/
theorem InTag.skip_eq_stop (h : InTag buffer tail stop i rest) :
    i + (rest.takeWhile isXmlSpace).length = stop ↔ rest.dropWhile isXmlSpace = [] := by
  have hstop := h.stop_eq
  have hlength := congrArg List.length
    (List.takeWhile_append_dropWhile (p := isXmlSpace) (l := rest))
  rw [List.length_append] at hlength
  rw [← List.length_eq_zero_iff]
  omega

/-- The end of a start tag behind its attributes. -/
theorem checkedReadStartTag_end (asksStop : Bool) (h : InTag buffer tail stop i rest)
    (name : String8) (a : Attributes) :
    (do
      let i ← checkedSkipSpaces asksStop buffer stop i
      let isEmpty ← holdsAt buffer stop (· == '/') i
      let i ← if isEmpty then checkedSkipSpaces asksStop buffer stop (i + 1) else pure i
      if i = stop then
        return .ok ⟨name, a, isEmpty⟩
      else
        return .error "invalid start tag" : Checked (Except String StartTag)) =
      .ok (match rest.dropWhile isXmlSpace with
        | [] => .ok ⟨name, a, false⟩
        | c :: rest =>
          if c = '/' ∧ rest.all isXmlSpace then .ok ⟨name, a, true⟩
          else .error "invalid start tag") := by
  obtain ⟨hskip, hat⟩ := h.checkedSkipSpaces asksStop
  rw [hskip, ok_bind]
  have hstop := h.skip_eq_stop
  cases hrest : rest.dropWhile isXmlSpace with
  | nil =>
    rw [hrest] at hat
    rw [hat.holdsAt_nil, ok_bind, if_neg Bool.false_ne_true]
    exact if_pos (hstop.2 hrest)
  | cons c v =>
    rw [hrest] at hat
    have hholds : holdsAt buffer stop (· == '/') (i + (rest.takeWhile isXmlSpace).length) =
        .ok (c == '/') := hat.holdsAt_cons
    rw [hholds, ok_bind]
    dsimp only
    by_cases hc : c = '/'
    · obtain ⟨hskip', -⟩ := hat.cons.checkedSkipSpaces asksStop
      have hend := hat.cons.skip_eq_stop
      rw [if_pos (beq_iff_eq.2 hc), hskip', ok_bind]
      by_cases hall : v.all isXmlSpace = true
      · rw [if_pos (hend.2 (List.dropWhile_eq_nil_iff.2 (List.all_eq_true.1 hall))),
          if_pos ⟨hc, hall⟩, beq_iff_eq.2 hc]
        rfl
      · rw [if_neg, if_neg (fun hboth ↦ hall hboth.2)]
        · rfl
        · intro heq
          exact hall (List.all_eq_true.2 (List.dropWhile_eq_nil_iff.1 (hend.1 heq)))
    · have hlt := hat.lt
      rw [if_neg (fun heq ↦ hc (beq_iff_eq.1 heq)), if_neg (fun hboth ↦ hc hboth.1)]
      exact if_neg (by omega)

theorem checkedReadStartTag_comesTo (asksStop : Bool) (hleast : 2 ≤ stop)
    (hstop : stop ≤ buffer.length) :
    ComesTo (checkedReadStartTag asksStop buffer stop) (readStartTag (buffer.take stop))
      (stop < 3 ∨ HasStray (buffer.take stop)) := by
  unfold checkedReadStartTag
  by_cases hthree : stop < 3
  · rw [require_of_not (by omega)]
    exact .of_error rfl (.inl hthree)
  rw [require_of ⟨by omega, hstop⟩, ok_bind]
  have hbody := inTag_tagBody hleast hstop
  unfold HasStray readStartTag
  cases htag : tagBody 1 (buffer.take stop) with
  | nil =>
    rw [htag] at hbody
    have hend := hbody.stop_eq
    rw [List.length_nil] at hend
    omega
  | cons c rest =>
    rw [htag] at hbody
    rw [hbody.itemAt, ok_bind]
    dsimp only
    by_cases hname : (!isNameStartCharacter c) = true
    · rw [if_pos hname, if_pos hname]
      refine .of_ok rfl ?_
      rintro (hlt | ⟨d, v, heq, hstart, -⟩)
      · exact hthree hlt
      · rw [← (List.cons.inj heq).1] at hstart
        rw [hstart] at hname
        exact Bool.false_ne_true hname
    rw [if_neg hname, if_neg hname]
    rw [Bool.not_eq_true', Bool.not_eq_false] at hname
    obtain ⟨hscan, hat⟩ := hbody.cons.scanWhile (p := isNameCharacter)
    have hwritten : substringAt buffer 2 (3 + (rest.takeWhile isNameCharacter).length - 1) =
        .ok (c :: rest.takeWhile isNameCharacter) := by
      have hsplit : InTag buffer (buffer.drop (stop - 1)) stop 2
          ((c :: rest.takeWhile isNameCharacter) ++ rest.dropWhile isNameCharacter) := by
        rw [List.cons_append, List.takeWhile_append_dropWhile]
        exact hbody
      have hpart := hsplit.substringAt
      rwa [List.length_cons, show 2 + ((rest.takeWhile isNameCharacter).length + 1) - 1 =
        3 + (rest.takeWhile isNameCharacter).length - 1 by omega] at hpart
    have hle := hat.le_stop
    rw [hscan, ok_bind, hwritten, ok_bind]
    unfold checkedParseAttributes
    rw [require_of ⟨by omega, hle⟩, ok_bind, require_of fun _ ↦ hstop, ok_bind]
    by_cases hstray : StrayBehind .make (rest.dropWhile isNameCharacter)
    · rw [checkedAttributeLoop_of_stray hstray hat]
      exact .of_error rfl (.inr ⟨c, rest, rfl, hname, hstray⟩)
    · obtain ⟨t, hloop, hmatches⟩ := checkedAttributeLoop_of_not_stray asksStop hstray hat
        (Nat.lt_succ_self _)
      rw [hloop, ok_bind]
      apply ComesTo.of_ok
      · cases hparse : parseAttributes ((rest.dropWhile isNameCharacter).length + 1)
            (rest.dropWhile isNameCharacter) .make with
        | error message =>
          rw [hparse] at hmatches
          rw [show t.error = some message from hmatches]
          rfl
        | ok result =>
          obtain ⟨v, a⟩ := result
          rw [hparse] at hmatches
          obtain ⟨herror, rfl, hresult⟩ := hmatches
          rw [herror]
          exact checkedReadStartTag_end asksStop hresult _ _
      · rintro (hlt | ⟨d, v, heq, -, hbehind⟩)
        · exact hthree hlt
        · rw [(List.cons.inj heq).2] at hstray
          exact hstray hbehind

theorem checkedReadEndTag_comesTo (asksStop : Bool) (hleast : 3 ≤ stop)
    (hstop : stop ≤ buffer.length) :
    ComesTo (checkedReadEndTag asksStop buffer stop) (readEndTag (buffer.take stop))
      (stop < 4) := by
  unfold checkedReadEndTag
  by_cases hfour : stop < 4
  · rw [require_of_not (by omega)]
    exact .of_error rfl hfour
  refine .of_ok ?_ hfour
  rw [require_of ⟨by omega, hstop⟩, ok_bind]
  have hbody := inTag_tagBody hleast hstop
  unfold readEndTag
  cases htag : tagBody 2 (buffer.take stop) with
  | nil =>
    rw [htag] at hbody
    have hend := hbody.stop_eq
    rw [List.length_nil] at hend
    omega
  | cons c rest =>
    rw [htag] at hbody
    rw [hbody.holdsAt_cons, ok_bind]
    dsimp only
    by_cases hname : (!isNameStartCharacter c) = true
    · rw [if_pos hname]
      rw [Bool.not_eq_true'] at hname
      rw [hname, if_neg (fun hboth ↦ Bool.false_ne_true hboth.1)]
      rfl
    rw [if_neg hname]
    rw [Bool.not_eq_true', Bool.not_eq_false] at hname
    obtain ⟨hscan, hat⟩ := hbody.cons.scanWhile (p := isNameCharacter)
    have hwritten : substringAt buffer 3 (4 + (rest.takeWhile isNameCharacter).length - 1) =
        .ok (c :: rest.takeWhile isNameCharacter) := by
      have hsplit : InTag buffer (buffer.drop (stop - 1)) stop 3
          ((c :: rest.takeWhile isNameCharacter) ++ rest.dropWhile isNameCharacter) := by
        rw [List.cons_append, List.takeWhile_append_dropWhile]
        exact hbody
      have hpart := hsplit.substringAt
      rwa [List.length_cons, show 3 + ((rest.takeWhile isNameCharacter).length + 1) - 1 =
        4 + (rest.takeWhile isNameCharacter).length - 1 by omega] at hpart
    obtain ⟨hskip, -⟩ := hat.checkedSkipSpaces asksStop
    have hend := hat.skip_eq_stop
    rw [hscan, ok_bind, hwritten, ok_bind, hskip, ok_bind, hname]
    by_cases hall : (rest.dropWhile isNameCharacter).all isXmlSpace = true
    · rw [if_pos (hend.2 (List.dropWhile_eq_nil_iff.2 (List.all_eq_true.1 hall))),
        if_pos ⟨rfl, hall⟩]
      rfl
    · rw [if_neg (fun heq ↦ hall (List.all_eq_true.2 (List.dropWhile_eq_nil_iff.1 (hend.1 heq)))),
        if_neg (fun hboth ↦ hall hboth.2)]
      rfl

end

/-! ## The end of a tag, and positions -/

section

variable {buffer rest : String8} {i : Nat}

theorem checkedMarkupEndLoop_next {k t : MarkupSearch} (hin : k.index ≤ buffer.length)
    (hresult : k.result = 0) (hstep : checkedMarkupEndStep buffer k = .ok t)
    (ht : t.index = k.index + 1) :
    checkedMarkupEndLoop buffer k = checkedMarkupEndLoop buffer t := by
  unfold checkedMarkupEndLoop
  apply loop_next _ _ hstep
  · omega
  · omega
  · omega
  · rw [decide_eq_false (Nat.not_lt.2 hin), hresult]
    rfl

theorem checkedMarkupEndLoop_eq (h : RestAt buffer i rest) (quote : Option Character8) :
    ∃ t, checkedMarkupEndLoop buffer ⟨i, quote, 0⟩ = .ok t ∧
      t.result = findMarkupEndIn quote rest i := by
  have hindex := h.index
  induction rest generalizing i quote with
  | nil =>
    rw [List.length_nil] at hindex
    refine ⟨⟨i, quote, 0⟩, loop_of_finished ?_ ?_, ?_⟩
    · show (0 : Int) ≤ buffer.length - i + 1
      omega
    · dsimp only
      rw [decide_eq_true (show buffer.length < i by omega)]
      rfl
    · cases quote <;> rfl
  | cons c v ih =>
    have hin := h.le
    have hread := itemAt_of_restAt h
    cases quote with
    | some q =>
      have hstep : checkedMarkupEndStep buffer ⟨i, some q, 0⟩ =
          .ok ⟨i + 1, if c = q then none else some q, 0⟩ := by
        unfold checkedMarkupEndStep
        rw [hread]
        rfl
      rw [checkedMarkupEndLoop_next hin rfl hstep rfl]
      exact ih h.cons _ h.cons.index
    | none =>
      rw [findMarkupEndIn]
      by_cases hquote : isQuote c = true
      · have hstep : checkedMarkupEndStep buffer ⟨i, none, 0⟩ = .ok ⟨i + 1, some c, 0⟩ := by
          unfold checkedMarkupEndStep
          rw [hread]
          exact if_pos hquote
        rw [if_pos hquote, checkedMarkupEndLoop_next hin rfl hstep rfl]
        exact ih h.cons _ h.cons.index
      rw [if_neg hquote]
      by_cases hend : c = '>'
      · have hstep : checkedMarkupEndStep buffer ⟨i, none, 0⟩ = .ok ⟨i + 1, none, i⟩ := by
          unfold checkedMarkupEndStep
          rw [hread]
          exact (if_neg hquote).trans (if_pos hend)
        rw [if_pos hend, checkedMarkupEndLoop_next hin rfl hstep rfl]
        have hpos : 0 < i := h.pos
        refine ⟨⟨i + 1, none, i⟩, loop_of_finished ?_ ?_, rfl⟩
        · show (0 : Int) ≤ buffer.length - (i + 1 : Nat) + 1
          omega
        · dsimp only
          rw [decide_eq_true hpos, Bool.or_true]
      · have hstep : checkedMarkupEndStep buffer ⟨i, none, 0⟩ = .ok ⟨i + 1, none, 0⟩ := by
          unfold checkedMarkupEndStep
          rw [hread]
          exact (if_neg hquote).trans (if_neg hend)
        rw [if_neg hend, checkedMarkupEndLoop_next hin rfl hstep rfl]
        exact ih h.cons _ h.cons.index

theorem checkedCompleteMarkupEnd_eq (h : buffer ≠ []) :
    checkedCompleteMarkupEnd buffer = .ok (completeMarkupEnd buffer) := by
  have hlength := List.length_pos_iff.2 h
  have hat : RestAt buffer 2 (buffer.drop 1) := .of_index (by omega) (by omega)
  obtain ⟨t, hloop, hresult⟩ := checkedMarkupEndLoop_eq hat none
  unfold checkedCompleteMarkupEnd completeMarkupEnd
  rw [hloop, ok_bind, hresult]
  rfl

/-- The byte index has no influence on lines and columns. -/
theorem update_byteIndex (p : Position) (b : Nat) (text : String8) :
    ({ p with byteIndex := b } : Position).update text =
      { p.update text with byteIndex := b + text.length } := by
  induction text generalizing p b with
  | nil => rfl
  | cons c text ih =>
    have hlength : b + (c :: text).length = b + 1 + text.length := by
      rw [List.length_cons]
      omega
    rw [hlength]
    by_cases hc : c = '\n'
    · have hfirst (q : Position) :
          q.update (c :: text) = (⟨q.byteIndex + 1, q.line + 1, 0⟩ : Position).update text :=
        congrArg (Position.update · text) (if_pos hc)
      rw [hfirst, hfirst]
      exact ih ⟨p.byteIndex + 1, p.line + 1, 0⟩ (b + 1)
    · have hfirst (q : Position) : q.update (c :: text) =
          (⟨q.byteIndex + 1, q.line, q.column + 1⟩ : Position).update text :=
        congrArg (Position.update · text) (if_neg hc)
      rw [hfirst, hfirst]
      exact ih ⟨p.byteIndex + 1, p.line, p.column + 1⟩ (b + 1)

theorem checkedPositionLoop_next {text : String8} {p q : Position} (hin : i ≤ text.length)
    (hstep : (do
      if (← itemAt text i) = '\n' then return (i + 1, { p with line := p.line + 1, column := 0 })
      else return (i + 1, { p with column := p.column + 1 }) : Checked (Nat × Position)) =
        .ok (i + 1, q)) :
    checkedPositionLoop text (i, p) = checkedPositionLoop text (i + 1, q) := by
  apply loop_next _ _ hstep
  · show (0 : Int) ≤ text.length - (i + 1 : Nat) + 1
    omega
  · show (text.length : Int) - (i + 1 : Nat) + 1 < text.length - i + 1
    omega
  · show (0 : Int) ≤ text.length - i + 1
    omega
  · exact congrArg Except.ok (decide_eq_false (Nat.not_lt.2 hin))

theorem checkedPositionLoop_eq {text : String8} (h : RestAt text i rest) (p : Position) :
    checkedPositionLoop text (i, p) =
      .ok (text.length + 1, { p.update rest with byteIndex := p.byteIndex }) := by
  have hindex := h.index
  induction rest generalizing i p with
  | nil =>
    rw [List.length_nil] at hindex
    obtain rfl : i = text.length + 1 := by omega
    apply loop_of_finished
    · show (0 : Int) ≤ text.length - (text.length + 1 : Nat) + 1
      omega
    · exact congrArg Except.ok (decide_eq_true (Nat.lt_succ_self _))
  | cons c v ih =>
    have hread := itemAt_of_restAt h
    by_cases hc : c = '\n'
    · have hupdate : p.update (c :: v) =
          (⟨p.byteIndex + 1, p.line + 1, 0⟩ : Position).update v :=
        congrArg (Position.update · v) (if_pos hc)
      rw [checkedPositionLoop_next h.le (by rw [hread]; exact if_pos hc), ih h.cons _ h.cons.index,
        hupdate, update_byteIndex ⟨p.byteIndex, p.line + 1, 0⟩ (p.byteIndex + 1)]
    · have hupdate : p.update (c :: v) =
          (⟨p.byteIndex + 1, p.line, p.column + 1⟩ : Position).update v :=
        congrArg (Position.update · v) (if_neg hc)
      rw [checkedPositionLoop_next h.le (by rw [hread]; exact if_neg hc), ih h.cons _ h.cons.index,
        hupdate, update_byteIndex ⟨p.byteIndex, p.line, p.column + 1⟩ (p.byteIndex + 1)]

theorem checkedUpdatePosition_eq (p : Position) (text : String8) :
    checkedUpdatePosition p text = .ok (p.update text) := by
  have hat : RestAt text 1 text := ⟨Nat.le_refl 1, Nat.add_comm 1 _, rfl⟩
  unfold checkedUpdatePosition
  rw [checkedPositionLoop_eq hat, ok_bind]
  have hsame := update_byteIndex p p.byteIndex text
  rw [show ({ p with byteIndex := p.byteIndex } : Position) = p from rfl] at hsame
  rw [hsame]
  rfl

end

end Session

end Xpact
