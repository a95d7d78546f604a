import Xpact.Library.Reader
import Xpact.Parser.Event
import Xpact.Text.Searching
import Mathlib.Data.List.TakeWhile

/-!
# Markup of the experimental sessions

`XP_INCREMENTAL_PARSE_SESSION` and `XP_EXPAT_PORT_PARSE_SESSION` keep the bytes that they have not
consumed, and read a tag when its end has arrived.  What they read inside a tag is the same in both:
the features here are repeated in the two classes, under the names given.
-/

namespace Xpact

open Library

namespace Session

/-- The statuses of both classes. -/
inductive Status where
  | event | needMore | finished | error | suspended
  deriving DecidableEq, Repr

/-! ## Position -/

/-- The position of the next byte. -/
structure Position where
  byteIndex : Nat := 0
  line : Nat := 1
  column : Nat := 0
  deriving DecidableEq

/-- `update_position`. -/
def Position.update (p : Position) (text : String8) : Position :=
  text.foldl (fun p (c : Character8) ↦
    if c = '\n' then ⟨p.byteIndex + 1, p.line + 1, 0⟩
    else ⟨p.byteIndex + 1, p.line, p.column + 1⟩) p

theorem Position.update_append (p : Position) (text more : String8) :
    p.update (text ++ more) = (p.update text).update more := List.foldl_append ..

/-! ## Tags -/

/-- `complete_markup_end`: index of the next `>` that is not inside a quote, or 0. -/
def completeMarkupEnd (buffer : String8) : Nat := findMarkupEndIn none (buffer.drop 1) 2

/-- `parse_attributes`: the attributes at the beginning of `rest`, which ends before the `>` of the
tag, and what is left behind them.  A round consumes an attribute; `n` bounds the rounds. -/
def parseAttributes : Nat → String8 → Attributes → Except String (String8 × Attributes)
  | 0, rest, a => .ok (rest, a)
  | n + 1, rest, a =>
    match rest.dropWhile isXmlSpace with
    | [] => .ok ([], a)
    | c :: rest =>
      if c = '/' then
        .ok (c :: rest, a)
      else if !isNameStartCharacter c then
        .error "invalid attribute"
      else
        let name := c :: rest.takeWhile isNameCharacter
        match (rest.dropWhile isNameCharacter).dropWhile isXmlSpace with
        | [] => .error "invalid attribute"
        | c :: rest =>
          if c ≠ '=' then
            .error "invalid attribute"
          else
            match rest.dropWhile isXmlSpace with
            | [] => .error "invalid attribute"
            | quote :: rest =>
              if !isQuote quote then
                .error "invalid attribute"
              else
                let value := rest.takeWhile (· != quote)
                match rest.dropWhile (· != quote) with
                | [] => .error "invalid attribute"
                | _ :: rest =>
                  if a.has name then .error "duplicate attribute"
                  else parseAttributes n rest (a.put name value)

/-- What stands between the first `skipped` characters of a tag and its last one. -/
def tagBody (skipped : Nat) (tag : String8) : String8 := (tag.drop skipped).dropLast

/-- A start tag as it is read. -/
structure StartTag where
  name : String8
  attributes : Attributes
  isEmpty : Bool

/-- The first part of `advance_start_tag` and `process_start_tag`, which reads the tag. -/
def readStartTag (tag : String8) : Except String StartTag :=
  match tagBody 1 tag with
  | [] => .error "invalid start tag"
  | c :: rest =>
    if !isNameStartCharacter c then
      .error "invalid start tag"
    else do
      let name := c :: rest.takeWhile isNameCharacter
      let rest := rest.dropWhile isNameCharacter
      let (rest, attributes) ← parseAttributes (rest.length + 1) rest .make
      match rest.dropWhile isXmlSpace with
      | [] => .ok ⟨name, attributes, false⟩
      | c :: rest =>
        if c = '/' ∧ rest.all isXmlSpace then .ok ⟨name, attributes, true⟩
        else .error "invalid start tag"

/-- The first part of `advance_end_tag` and `process_end_tag`: the name of the tag. -/
def readEndTag (tag : String8) : Except String String8 :=
  match tagBody 2 tag with
  | [] => .error "invalid end tag"
  | c :: rest =>
    if isNameStartCharacter c ∧ (rest.dropWhile isNameCharacter).all isXmlSpace then
      .ok (c :: rest.takeWhile isNameCharacter)
    else
      .error "invalid end tag"

/-- The text at the beginning of the buffer, up to the next `<`. -/
def leadingText (buffer : String8) : String8 := buffer.takeWhile (· != ('<' : Character8))

theorem ne_of_mem_leadingText {buffer : String8} {c : Character8} (hc : c ∈ leadingText buffer) :
    c ≠ ('<' : Character8) := by
  have hne : (c != ('<' : Character8)) = true :=
    List.mem_takeWhile_imp (p := fun c ↦ c != ('<' : Character8)) hc
  exact bne_iff_ne.1 hne

theorem leadingText_append_drop (buffer : String8) :
    leadingText buffer ++ buffer.drop (leadingText buffer).length = buffer :=
  List.prefix_iff_eq_append.1 (List.takeWhile_prefix _)

theorem leadingText_ne_nil {c : Character8} (hc : c ≠ ('<' : Character8)) (rest : String8) :
    leadingText (c :: rest) ≠ [] := by
  unfold leadingText
  rw [List.takeWhile_cons, if_pos (bne_iff_ne.2 hc)]
  exact List.cons_ne_nil _ _

/-- The text that is taken at once: all that has arrived, or a byte of it. -/
inductive Grain where
  | text | byte

def Grain.take : Grain → String8 → String8
  | .text, buffer => leadingText buffer
  | .byte, buffer => buffer.take 1

/-! ## Adjacent text -/

/-- Adjacent pieces of text are one text. -/
def joinText : Join Event where
  join
    | .characterData text, .characterData more => some (.characterData (text ++ more))
    | _, _ => none
  join_next := by
    intro d e f g h hde hef
    cases d <;> cases e <;> cases hde
    cases f <;> cases hef
    exact ⟨_, rfl, by rw [List.append_assoc]⟩
  not_join_next := by
    intro d e f g hde hef
    cases d <;> cases e <;> cases hde
    cases f <;> first | rfl | cases hef

/-- A text is the same as its bytes, reported one by one. -/
theorem same_text_bytes (text : String8) (h : text ≠ []) :
    joinText.Same [.characterData text] (text.map fun c ↦ .characterData [c]) := by
  show [Event.characterData text] = joinText.coalesce (text.map fun c ↦ .characterData [c])
  induction text with
  | nil => exact absurd rfl h
  | cons c text ih =>
    cases text with
    | nil => rfl
    | cons d text =>
      rw [List.map_cons, Join.coalesce_cons, ← ih (List.cons_ne_nil d text)]
      rfl

/-! ## Prefixes -/

/-- The end of a tag stays where it is when more bytes arrive. -/
theorem completeMarkupEnd_append {buffer : String8} (h : completeMarkupEnd buffer ≠ 0)
    (more : String8) : completeMarkupEnd (buffer ++ more) = completeMarkupEnd buffer := by
  unfold completeMarkupEnd at h ⊢
  cases buffer with
  | nil => exact absurd rfl h
  | cons c rest => exact findMarkupEndIn_append rfl h more

theorem completeMarkupEnd_le {buffer : String8} (h : completeMarkupEnd buffer ≠ 0) :
    2 ≤ completeMarkupEnd buffer ∧ completeMarkupEnd buffer ≤ buffer.length := by
  unfold completeMarkupEnd at h ⊢
  cases buffer with
  | nil => exact absurd rfl h
  | cons c rest =>
    have := findMarkupEndIn_le (by omega) h
    rw [List.length_cons]
    rw [List.drop_succ_cons, List.drop_zero] at this ⊢
    omega

/-- The second character of a buffer is that of its first tag. -/
theorem item_take_completeMarkupEnd {buffer : String8} (h : completeMarkupEnd buffer ≠ 0) :
    String8.item (buffer.take (completeMarkupEnd buffer)) 2 = buffer.item 2 := by
  have hend := completeMarkupEnd_le h
  unfold String8.item
  rw [List.getD_eq_getElem?_getD, List.getD_eq_getElem?_getD, List.getElem?_take_of_lt (by omega)]

theorem Grain.take_length {c : Character8} (hc : c ≠ ('<' : Character8)) (g : Grain)
    (rest : String8) :
    0 < (g.take (c :: rest)).length ∧ (g.take (c :: rest)).length ≤ (c :: rest).length := by
  cases g with
  | text =>
    constructor
    · exact List.length_pos_of_ne_nil (leadingText_ne_nil hc rest)
    · exact (List.takeWhile_prefix _).length_le
  | byte =>
    constructor
    · exact Nat.one_pos
    · exact Nat.succ_pos _

/-! ## The loop of a session -/

/-- Advance while tokens are emitted, at most `n` times. -/
def advance {S : Type} (one : S → Status × S) : Nat → S → Status × S
  | 0, s => (.event, s)
  | n + 1, s =>
    match one s with
    | (.event, s) => advance one n s
    | result => result

/-- What is told of a session: the state of its reader, the bytes that it has not consumed, the events
it has emitted, and what no token changes. -/
structure Projection (S σ κ : Type) where
  state : S → σ
  buffer : S → String8
  events : S → List Event
  settings : S → κ

/-- `t` is what becomes of `s` when its reader takes `k`. -/
structure Projection.Moves {S σ κ : Type} (v : Projection S σ κ) (s : S) (k : Taken σ Event) (t : S) : Prop where
  state : v.state t = k.next
  buffer : v.buffer t = (v.buffer s).drop k.count
  events : v.events t = v.events s ++ k.out
  settings : v.settings t = v.settings s

/-- A session that follows a reader: it takes what the reader takes, stops with an error in the states
of `isError`, and otherwise stops where the reader waits. -/
structure Follower {σ : Type} (C : Reader σ Character8 Event) (S κ : Type) extends Projection S σ κ where
  one : S → Status × S
  /-- The outcome of a session that stops. -/
  atEnd : S → Status × S
  Good : κ → Prop
  isError : σ → Bool
  measure : S → Nat
  step : ∀ {s k}, Good (settings s) → C.step (state s) (buffer s) = some k →
    (one s).1 = (if isError k.next then .error else .event) ∧ toProjection.Moves s k (one s).2 ∧
      (isError k.next = false → measure (one s).2 < measure s)
  wait : ∀ {s}, Good (settings s) → C.Waits (state s) (buffer s) → one s = atEnd s
  waits_of_error : ∀ {state buffer}, isError state = true → C.Waits state buffer
  atEnd_of_error : ∀ {s}, isError (state s) = true → atEnd s = (.error, s)
  atEnd_ne_event : ∀ s, (atEnd s).1 ≠ .event

/-- The session advances until its reader waits. -/
theorem Follower.advance_reads {S σ κ : Type} {C : Reader σ Character8 Event} (F : Follower C S κ)
    (n : Nat) {s : S} (hgood : F.Good (F.settings s)) (hn : F.measure s < n) :
    ∃ out t, C.Reads (F.state s) (F.buffer s) out (F.state t) (F.buffer t) ∧
      C.Waits (F.state t) (F.buffer t) ∧ F.events t = F.events s ++ out ∧
      F.settings t = F.settings s ∧ advance F.one n s = F.atEnd t := by
  induction n generalizing s with
  | zero => exact absurd hn (Nat.not_lt_zero _)
  | succ n ih =>
    unfold advance
    cases hstep : C.step (F.state s) (F.buffer s) with
    | none =>
      refine ⟨[], s, .refl _ _, hstep, (List.append_nil _).symm, rfl, ?_⟩
      rw [F.wait hgood hstep]
      split
      · rename_i t hevent
        exact absurd (congrArg Prod.fst hevent) (F.atEnd_ne_event s)
      · rfl
    | some k =>
      obtain ⟨hstatus, hmoves, hless⟩ := F.step hgood hstep
      have hreads := Reader.Reads.single hstep
      rw [← hmoves.buffer] at hreads
      generalize F.one s = result at hstatus hmoves hless hreads
      obtain ⟨status, t⟩ := result
      dsimp only at hstatus hmoves hless hreads
      rw [← hmoves.state] at hstatus hless hreads
      by_cases herror : F.isError (F.state t) = true
      · rw [if_pos herror] at hstatus
        refine ⟨k.out, t, hreads, F.waits_of_error herror, hmoves.events, hmoves.settings, ?_⟩
        rw [hstatus, F.atEnd_of_error herror]
      · rw [if_neg herror] at hstatus
        have hsmaller : F.measure t < F.measure s := hless (Bool.not_eq_true _ ▸ herror)
        obtain ⟨out, u, hrest, hwaits, hevents, hsettings, hadvance⟩ := ih (s := t)
          (by rw [hmoves.settings]; exact hgood) (by omega)
        refine ⟨k.out ++ out, u, hreads.trans hrest, hwaits, ?_, hsettings.trans hmoves.settings, ?_⟩
        · rw [hevents, hmoves.events, List.append_assoc]
        · rw [hstatus]
          exact hadvance

end Session

end Xpact
