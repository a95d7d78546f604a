import Xpact.Native.Utf16
import Xpact.Parser.ContentLogic
import Xpact.Parser.Entry
import Xpact.Parser.Recognizers

/-!
# UTF-16 documents

A document with a byte order mark reaches the engine through the native layer or directly.  The native
layer rejects what is not UTF-16.  The engine rejects it as well, but for a unit or a pair that the end
of the document cuts off: it reads the document as if these bytes were not there.
-/

namespace Xpact

open Library Library.Unicode Library.Program Routine

/-! ## The native layer -/

namespace Native

/-- What the outcome of a final `parse` depends on. -/
structure NativeParser where
  /-- The bytes of the earlier calls. -/
  inputBuffer : String8
  maxInputBytes : Nat
  decoder : Decoder
  hasUnsupportedExplicitEncoding : Bool
  /-- `native_amplification_limit_breached`, for a number of buffered bytes. -/
  amplificationLimitBreached : Nat → Bool
  /-- The parse of the decoded text, from which perhaps a mark was dropped. -/
  parseDecoded : String8 → Bool → Status × Error

/-- `parse` with the last bytes of the input: the status, and the error code that it leaves. -/
def NativeParser.parseFinal (x : NativeParser) (input : String8) : Status × Error :=
  if x.maxInputBytes - x.inputBuffer.length < input.length then
    (.error, .noMemory)
  else if x.hasUnsupportedExplicitEncoding && x.decoder.explicitEncodingOverridesDeclaration &&
      x.decoder.unknownEncodingHandler.isNone then
    (.error, .unknownEncoding)
  else
    let buffered := x.inputBuffer ++ input
    if x.amplificationLimitBreached buffered.length then
      (.error, .amplificationLimitBreach)
    else
      let (decoded, markRemoved) := x.decoder.decodedInput true buffered
      match decoded with
      | .error code => (.error, code)
      | .ok text => x.parseDecoded text markRemoved

/-- A mark shows the byte order. -/
theorem signature_mark (bigEndian : Bool) (bytes : String8) :
    hasUtf16leSignature (byteOrderMark bigEndian ++ bytes) = !bigEndian ∧
      hasUtf16beSignature (byteOrderMark bigEndian ++ bytes) = bigEndian := by
  have hlength := length_mark bigEndian bytes
  cases bigEndian with
  | true =>
    have hfirst : String8.item (byteOrderMark true ++ bytes) 1 = 254 := rfl
    have hsecond : String8.item (byteOrderMark true ++ bytes) 2 = 255 := rfl
    have hspace : isXmlSpace 254 = false := by decide
    unfold hasUtf16leSignature hasUtf16beSignature String8.code
    simp [hlength, hfirst, hsecond, hspace]
  | false =>
    have hfirst : String8.item (byteOrderMark false ++ bytes) 1 = 255 := rfl
    have hsecond : String8.item (byteOrderMark false ++ bytes) 2 = 254 := rfl
    unfold hasUtf16leSignature hasUtf16beSignature String8.code
    simp [hlength, hfirst, hsecond]

theorem Decoder.decodedInput_mark {d : Decoder}
    (hencoding : d.explicitEncoding.filter (fun _ ↦ d.explicitEncodingOverridesDeclaration) = none)
    (bigEndian : Bool) (bytes : String8) :
    (d.decodedInput true (byteOrderMark bigEndian ++ bytes)).1 =
      decodedUtf16Input (byteOrderMark bigEndian ++ bytes) (!bigEndian) := by
  obtain ⟨hle, hbe⟩ := signature_mark bigEndian bytes
  unfold Decoder.decodedInput Decoder.source Decoder.decodedSource
  rw [if_pos rfl, hencoding]
  dsimp only
  rw [hle, hbe]
  cases bigEndian with
  | true =>
    rw [Bool.not_true, if_neg Bool.false_ne_true, if_pos rfl]
    exact rfl
  | false =>
    rw [Bool.not_false, if_pos rfl]
    exact rfl

/-- A final call rejects a document that is not UTF-16 behind its mark. -/
theorem parseFinal_of_malformed {x : NativeParser} {input bytes : String8} {bigEndian : Bool}
    (hencoding : x.decoder.explicitEncoding.filter
      (fun _ ↦ x.decoder.explicitEncodingOverridesDeclaration) = none)
    (hinput : x.inputBuffer ++ input = byteOrderMark bigEndian ++ bytes)
    (hbytes : ¬ ∃ text, bytes = utf16 bigEndian text) :
    (x.parseFinal input).1 = .error := by
  obtain ⟨code, hcode⟩ := decodedUtf16Input_of_malformed hbytes
  have hdecoded := Decoder.decodedInput_mark hencoding bigEndian bytes
  rw [hcode] at hdecoded
  unfold NativeParser.parseFinal
  rw [hinput]
  split
  · rfl
  split
  · rfl
  dsimp only
  split
  · rfl
  · rw [hdecoded]

end Native

/-! ## The engine -/

section

variable {p : Parser} {bound : Nat} {input other : String8}

theorem startsWithUtf16Mark_mark (bigEndian : Bool) (bytes : String8) :
    startsWithUtf16Mark (byteOrderMark bigEndian ++ bytes) = true ∧
      (String8.code (byteOrderMark bigEndian ++ bytes) 1 == 254) = bigEndian := by
  have hlength := length_mark bigEndian bytes
  unfold startsWithUtf16Mark String8.code
  cases bigEndian with
  | true =>
    have hfirst : String8.item (byteOrderMark true ++ bytes) 1 = 254 := rfl
    have hsecond : String8.item (byteOrderMark true ++ bytes) 2 = 255 := rfl
    simp [hlength, hfirst, hsecond]
  | false =>
    have hfirst : String8.item (byteOrderMark false ++ bytes) 1 = 255 := rfl
    have hsecond : String8.item (byteOrderMark false ++ bytes) 2 = 254 := rfl
    simp [hlength, hfirst, hsecond]

/-- The text behind a mark, when its declaration does not contradict the mark. -/
def decodedBehindMark (input : String8) : Routine String8 := do
  let text ← utf16AsUtf8 input (input.code 1 == 254)
  let encoding := declaredEncoding text 1
  if !encoding.isEmpty && !(str "utf-16").isPrefixOf encoding then
    setError "incorrect encoding"
  return text

theorem decodedInput_mark (hinput : startsWithUtf16Mark input = true) :
    decodedInput false input = decodedBehindMark input >>= fun text ↦ pure (text, false) := by
  unfold decodedInput decodedBehindMark
  rw [if_neg Bool.false_ne_true, if_pos hinput, bind_assoc]
  apply bind_congr
  intro text
  dsimp only
  split <;> rfl

/-- What is read depends on the decoded text only. -/
theorem normalizedInput_congr {allowAlias : Bool} (hinput : startsWithUtf16Mark input = true)
    (hother : startsWithUtf16Mark other = true)
    (hdecoded : utf16AsUtf8From input (input.code 1 == 254) (input.length + 1) 3 =
      utf16AsUtf8From other (other.code 1 == 254) (other.length + 1) 3) :
    normalizedInput false input allowAlias = normalizedInput false other allowAlias := by
  have hsame : decodedBehindMark input = decodedBehindMark other := by
    unfold decodedBehindMark utf16AsUtf8
    rw [hdecoded]
  unfold normalizedInput
  rw [decodedInput_mark hinput, decodedInput_mark hother, hsame, bind_assoc, bind_assoc]
  apply bind_congr
  intro text
  rw [pure_bind, pure_bind]
  simp

theorem run_decodedBehindMark_of_failed
    (hfailed : (utf16AsUtf8From input (input.code 1 == 254) (input.length + 1) 3).2 = true) :
    (decodedBehindMark input).run Parser.routineMachine p =
      some ((utf16AsUtf8From input (input.code 1 == 254) (input.length + 1) 3).1,
        p.setError "invalid XML character") := by
  unfold decodedBehindMark utf16AsUtf8
  generalize utf16AsUtf8From input (input.code 1 == 254) (input.length + 1) 3 = scan at hfailed ⊢
  obtain ⟨text, failed⟩ := scan
  have hfailed : failed = true := hfailed
  rw [hfailed]
  dsimp only
  rw [if_pos rfl, bind_assoc, run_bind]
  show Option.bind (some ((), p.setError "invalid XML character")) _ = _
  rw [Option.bind_some, pure_bind]
  dsimp only
  split
  · -- The first error stays.
    rw [run_bind]
    show some (text, (p.setError _).setError _) = _
    rw [Parser.setError_of_hasError (Parser.setError_hasError p _)]
  · rfl

/-- A surrogate without partner is reported. -/
theorem run_normalizedInput_of_failed {allowAlias : Bool}
    (hinput : startsWithUtf16Mark input = true)
    (hfailed : (utf16AsUtf8From input (input.code 1 == 254) (input.length + 1) 3).2 = true) :
    (normalizedInput false input allowAlias).run Parser.routineMachine p =
      some ([], p.setError "invalid XML character") := by
  have herror := Parser.setError_hasError p "invalid XML character"
  unfold normalizedInput
  rw [decodedInput_mark hinput, bind_assoc, run_bind, run_decodedBehindMark_of_failed hfailed,
    Option.bind_some]
  dsimp only
  rw [pure_bind]
  simp [run_bind, Routine.config, Routine.hasError, Routine.core, Routine.sight,
    Parser.routineMachine, Parser.sight, Parser.scene, Scene.sight, herror]

end

/-! ## After an error -/

/-- From a state with an error every run ends. -/
def EndsAfterError {α : Type} (m : Content α) : Prop :=
  ∀ p : Parser, p.core.hasError = true → ∃ a q, m.run Parser.machine p = some (a, q)

/-- From a state with an error every run ends with a rejection. -/
def RejectsAfterError (m : Content Bool) : Prop :=
  ∀ p : Parser, p.core.hasError = true → ∃ q, m.run Parser.machine p = some (false, q)

namespace EndsAfterError

theorem act (a : Act) : EndsAfterError (Content.act a) := fun _ _ ↦ ⟨(), _, rfl⟩

theorem whileOngoing (c : Command) :
    EndsAfterError (liftM (Routine.whileOngoing (Program.command c))) := by
  intro p hp
  refine ⟨(), p, ?_⟩
  show (Content.ofRoutine _).run _ _ = _
  rw [Content.run_ofRoutine]
  unfold Routine.whileOngoing Routine.isOngoing Routine.core Routine.sight
  simp [Parser.routineMachine, Parser.sight, Parser.scene, Scene.sight, hp]

theorem checkAtEnd (text : String8) (condition : Scene → Bool) (message : String) :
    EndsAfterError (checkAtEnd text condition message) := by
  intro p hp
  refine ⟨(), p, ?_⟩
  unfold Xpact.checkAtEnd Content.scene
  simp [Parser.machine, Parser.scene, Scene.isOngoing, hp]

/-- No token is read. -/
theorem tokens (step : String8 → Nat → Content Nat) (text : String8) :
    EndsAfterError (tokens step text 1) := by
  intro p hp
  refine ⟨1, p, ?_⟩
  apply run_loop_of_finished (n := text.length)
  show (Content.ofRoutine _).run _ _ = _
  rw [Content.run_ofRoutine]
  unfold tokensFinished Routine.isOngoing Routine.core Routine.sight
  simp [Parser.routineMachine, Parser.sight, Parser.scene, Scene.sight, hp]

end EndsAfterError

namespace RejectsAfterError

theorem isOngoing : RejectsAfterError (liftM Routine.isOngoing) := by
  intro p hp
  refine ⟨p, ?_⟩
  show (Content.ofRoutine _).run _ _ = _
  rw [Content.run_ofRoutine]
  unfold Routine.isOngoing Routine.core Routine.sight
  simp [Parser.routineMachine, Parser.sight, Parser.scene, Scene.sight, hp]

theorem bind {α : Type} {m : Content α} {f : α → Content Bool} (hm : EndsAfterError m)
    (hf : ∀ a, RejectsAfterError (f a)) : RejectsAfterError (m >>= f) := by
  intro p hp
  obtain ⟨a, q, hrun⟩ := hm p hp
  obtain ⟨r, hrest⟩ := hf a q (Parser.hasError_of_run hrun hp)
  exact ⟨r, by rw [run_bind, hrun]; exact hrest⟩

end RejectsAfterError

/-! ## Whole documents -/

section

variable {p : Parser} {bound : Nat} {input other : String8}

theorem run_readInput (canDeferPositions : Bool) :
    (readInput input canDeferPositions).run Parser.machine p =
      ((normalizedInput p.core.inputIsUtf8 input canDeferPositions).run Parser.routineMachine
        p).bind fun r ↦ (do
          Content.act (.setPositionInput r.1)
          Content.act (.setLazyPositionAccounting canDeferPositions)
          notePosition 1
          return r.1 : Content String8).run Parser.machine r.2 := by
  unfold readInput
  show (Content.ofRoutine (normalizedInput p.core.inputIsUtf8 input canDeferPositions) >>= _).run
    _ p = _
  rw [run_bind, Content.run_ofRoutine]

variable (bound input) in
theorem parse_eq (hutf8 : p.core.inputIsUtf8 = false) :
    (p.start .document).core.inputIsUtf8 = false ∧
      p.parse bound input = ((document bound input).run Parser.machine (p.start .document)).map
        fun r ↦ (r.1, r.2.finish .document) :=
  ⟨hutf8, rfl⟩

/-- Documents with the same decoded text are the same for the engine. -/
theorem parse_congr (hutf8 : p.core.inputIsUtf8 = false)
    (hinput : startsWithUtf16Mark input = true) (hother : startsWithUtf16Mark other = true)
    (hdecoded : utf16AsUtf8From input (input.code 1 == 254) (input.length + 1) 3 =
      utf16AsUtf8From other (other.code 1 == 254) (other.length + 1) 3) :
    p.parse bound input = p.parse bound other := by
  obtain ⟨hstart, hparse⟩ := parse_eq bound input hutf8
  have hread : (document bound input).run Parser.machine (p.start .document) =
      (document bound other).run Parser.machine (p.start .document) := by
    unfold document Content.scene
    rw [run_sight_bind, run_sight_bind, run_bind, run_bind, run_readInput, run_readInput, hstart,
      normalizedInput_congr hinput hother hdecoded]
  rw [hparse, hread]
  rfl

/-- After a failed reading of the input nothing is parsed. -/
theorem parse_of_failed (hutf8 : p.core.inputIsUtf8 = false)
    (hinput : startsWithUtf16Mark input = true)
    (hfailed : (utf16AsUtf8From input (input.code 1 == 254) (input.length + 1) 3).2 = true) :
    ∃ q, p.parse bound input = some (false, q) := by
  obtain ⟨hstart, hparse⟩ := parse_eq bound input hutf8
  have hrun : ∃ q, (document bound input).run Parser.machine (p.start .document) =
      some (false, q) := by
    have herror := Parser.setError_hasError (p.start .document) "invalid XML character"
    unfold document Content.scene
    rw [run_sight_bind, run_bind, run_readInput, hstart,
      run_normalizedInput_of_failed hinput hfailed]
    generalize (p.start .document).setError "invalid XML character" = q at herror
    refine RejectsAfterError.bind (.tokens _ _) (fun _ ↦ ?_) _ ?_
    · apply RejectsAfterError.bind (.checkAtEnd _ _ _)
      intro _
      apply RejectsAfterError.bind (.checkAtEnd _ _ _)
      intro _
      apply RejectsAfterError.bind (.whileOngoing _)
      intro _
      exact RejectsAfterError.bind (.act _) fun _ ↦ .isOngoing
    · exact herror
  obtain ⟨q, hrun⟩ := hrun
  rw [hparse, hrun]
  exact ⟨q.finish .document, rfl⟩

end

/-- The parse of a document ends, and rejects it. -/
def Parser.Rejects (p : Parser) (input : String8) : Prop :=
  ∃ bound q, p.parse bound input = some (false, q)

section

variable {p : Parser} {bigEndian : Bool} {bytes rest : String8} {text : List Char}

/-- A surrogate without partner anywhere makes the engine reject the document. -/
theorem rejects_of_unpaired (hutf8 : p.core.inputIsUtf8 = false)
    (hbytes : bytes = utf16 bigEndian text ++ rest) (hrest : Unpaired bigEndian rest) :
    p.Rejects (byteOrderMark bigEndian ++ bytes) := by
  obtain ⟨hmark, horder⟩ := startsWithUtf16Mark_mark bigEndian bytes
  obtain ⟨n, i, hend, hn, hread⟩ := utf16AsUtf8From_mark text rest hbytes
  refine ⟨0, parse_of_failed hutf8 hmark ?_⟩
  rw [horder, hread, utf16AsUtf8From_unpaired hend hrest hn]

/-- Bytes that are cut off do not change the parse. -/
theorem parse_of_cutOff (hutf8 : p.core.inputIsUtf8 = false) (bound : Nat)
    (hbytes : bytes = utf16 bigEndian text ++ rest) (hrest : CutOff bigEndian rest) :
    p.parse bound (byteOrderMark bigEndian ++ bytes) =
      p.parse bound (byteOrderMark bigEndian ++ utf16 bigEndian text) := by
  obtain ⟨hmark, horder⟩ := startsWithUtf16Mark_mark bigEndian bytes
  obtain ⟨hmark', horder'⟩ := startsWithUtf16Mark_mark bigEndian (utf16 bigEndian text)
  apply parse_congr hutf8 hmark hmark'
  rw [horder, horder', utf16AsUtf8From_mark_text hbytes (Or.inr hrest),
    utf16AsUtf8From_mark_text (List.append_nil _).symm (Or.inl rfl)]

end

/-- Both classes decode every text behind a mark.  What is not UTF-16 behind the mark is rejected by a
final call of the native layer; the engine rejects it exactly when it is not a document that it
does not reject, with a unit or a pair behind it that the end of the input cuts off. -/
theorem utf16_documents (x : Native.NativeParser)
    (hencoding : x.decoder.explicitEncoding.filter
      (fun _ ↦ x.decoder.explicitEncodingOverridesDeclaration) = none)
    (p : Parser) (hutf8 : p.core.inputIsUtf8 = false) (bigEndian : Bool) :
    (∀ text : List Char,
      Native.decodedUtf16Input (byteOrderMark bigEndian ++ utf16 bigEndian text) (!bigEndian) =
          .ok (utf8 text) ∧
        ∀ q : Parser, (utf16AsUtf8 (byteOrderMark bigEndian ++ utf16 bigEndian text)
          bigEndian).run Parser.routineMachine q = some (utf8 text, q)) ∧
    ∀ bytes : String8, (¬ ∃ text, bytes = utf16 bigEndian text) →
      (∀ input, x.inputBuffer ++ input = byteOrderMark bigEndian ++ bytes →
        (x.parseFinal input).1 = .error) ∧
      (p.Rejects (byteOrderMark bigEndian ++ bytes) ↔
        ¬ ∃ text rest, bytes = utf16 bigEndian text ++ rest ∧ CutOff bigEndian rest ∧
          ¬ p.Rejects (byteOrderMark bigEndian ++ utf16 bigEndian text)) := by
  refine ⟨fun text ↦ ⟨Native.decodedUtf16Input_text bigEndian text, fun q ↦ ?_⟩, ?_⟩
  · unfold utf16AsUtf8
    rw [utf16AsUtf8From_mark_text (List.append_nil _).symm (Or.inl rfl)]
    rfl
  · intro bytes hbytes
    refine ⟨fun input hinput ↦ Native.parseFinal_of_malformed hencoding hinput hbytes, ?_⟩
    constructor
    · rintro ⟨bound, q, hrun⟩ ⟨text, rest, hsplit, hrest, haccepts⟩
      rw [parse_of_cutOff hutf8 bound hsplit hrest] at hrun
      exact haccepts ⟨bound, q, hrun⟩
    · intro hnone
      obtain ⟨text, rest, hsplit, hrest⟩ := exists_text bigEndian bytes
      rcases hrest with rfl | hcut | hunpaired
      · rw [List.append_nil] at hsplit
        exact absurd ⟨text, hsplit⟩ hbytes
      · by_contra hrejects
        refine hnone ⟨text, rest, hsplit, hcut, fun ⟨bound, q, hrun⟩ ↦ hrejects ⟨bound, q, ?_⟩⟩
        rw [parse_of_cutOff hutf8 bound hsplit hcut, hrun]
      · exact rejects_of_unpaired hutf8 hsplit hunpaired

/-- An odd number of bytes is no text. -/
theorem not_utf16_of_odd {bigEndian : Bool} {bytes : String8} (hodd : bytes.length % 2 = 1) :
    ¬ ∃ text, bytes = utf16 bigEndian text := by
  rintro ⟨text, rfl⟩
  have hlength := @length_utf16 bigEndian text
  omega

/-- A letter is decoded, and half of another is rejected by the native layer. -/
theorem utf16_documents_letter :
    Native.decodedUtf16Input [0xFE, 0xFF, 0, 0x61] false = .ok (str "a") ∧
      (Native.NativeParser.parseFinal ⟨[0xFE], 100, {}, false, fun _ ↦ false, fun _ _ ↦ (.ok, .none)⟩
        [0xFF, 0]).1 = .error := by
  have h := utf16_documents
    ⟨[0xFE], 100, {}, false, fun _ ↦ false, fun _ _ ↦ (.ok, .none)⟩ rfl (Parser.make {} .null) rfl
    true
  exact ⟨(h.1 ['a']).1, (h.2 [0] (not_utf16_of_odd rfl)).1 [0xFF, 0] rfl⟩

/-- `<a/>` with half a unit behind it is accepted by the engine. -/
theorem utf16_document_cut_off :
    (¬ ∃ text, ([0x3C, 0, 0x61, 0, 0x2F, 0, 0x3E, 0, 0x20] : String8) = utf16 false text) ∧
      ((Parser.make {} .null).parse 2 (byteOrderMark false ++
        [0x3C, 0, 0x61, 0, 0x2F, 0, 0x3E, 0, 0x20])).map Prod.fst = some true :=
  ⟨not_utf16_of_odd rfl, by decide +kernel⟩

end Xpact
