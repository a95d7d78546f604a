import Xpact.Library.CMemory
import Xpact.Native.Utf8

/-!
# Encodings of the application

The application describes an encoding that the parser does not know by a map from bytes to code points
and by a converter for longer sequences.  The input is decoded with them into a buffer that grows as
needed.
-/

namespace Xpact.Native

open Library Library.Unicode

/-! ## The description of an encoding -/

/-- `XML_Encoding`, as the handler of the application has filled it. -/
structure XmlEncoding where
  map : UInt8 → Int
  /-- The converter, if there is one.  It reads a sequence; since it may have a state of its own, its
  answer may also depend on where the sequence stands. -/
  convert : Option (Nat → String8 → Int)

/-- `xp_private_unknown_encoding_info_is_valid`. -/
def XmlEncoding.isValid (info : XmlEncoding) : Bool :=
  ((List.range 128).all fun i ↦ info.map (UInt8.ofNat i) == i) &&
    (List.range' 128 128).all fun i ↦
      let code := info.map (UInt8.ofNat i)
      if code = -1 then true
      else if -4 ≤ code ∧ code ≤ -2 then info.convert.isSome
      else !(decide (code < -4) || (decide (0 ≤ code) && decide (code < 128)) ||
        decide (65535 < code))

/-! ## The output -/

/-- The buffer that is filled, with the variables that describe it. -/
structure Output where
  memory : Memory
  buffer : Nat
  length : Int
  capacity : Int

/-- The bytes that `xp_private_append_utf8` prepares. -/
def codepointBytes (code : Nat) : String8 :=
  if code ≤ 0x7F then
    [UInt8.ofNat code]
  else if code ≤ 0x7FF then
    [UInt8.ofNat (0xC0 ||| code >>> 6), UInt8.ofNat (0x80 ||| code &&& 0x3F)]
  else if code ≤ 0xFFFF then
    [UInt8.ofNat (0xE0 ||| code >>> 12), UInt8.ofNat (0x80 ||| code >>> 6 &&& 0x3F),
      UInt8.ofNat (0x80 ||| code &&& 0x3F)]
  else
    [UInt8.ofNat (0xF0 ||| code >>> 18), UInt8.ofNat (0x80 ||| code >>> 12 &&& 0x3F),
      UInt8.ofNat (0x80 ||| code >>> 6 &&& 0x3F), UInt8.ofNat (0x80 ||| code &&& 0x3F)]

def isScalarValue (code : Int) : Bool :=
  !(decide (code < 0) || decide (0x10FFFF < code) ||
    (decide (0xD800 ≤ code) && decide (code ≤ 0xDFFF)))

/-- Room for `needed` bytes, or `none` in the pair when the allocator has none. -/
def Output.reserve (out : Output) (A : Allocator) (needed : Int) : Option (Option Output) :=
  if out.capacity < needed then do
    let doubled ← int (out.capacity * 2)
    let newCapacity := if doubled < needed then needed else doubled
    match ← out.memory.realloc A out.buffer newCapacity with
    | (none, _) => some none
    | (some resized, memory) =>
      some (some { out with memory, buffer := resized, capacity := newCapacity })
  else
    some (some out)

/-- `xp_private_append_utf8`: has the code point been appended? -/
def privateAppendUtf8 (A : Allocator) (out : Output) (code : Int) : Option (Bool × Output) :=
  if !isScalarValue code then
    some (false, out)
  else do
    let bytes := codepointBytes code.toNat
    let needed ← int ((← int (out.length + bytes.length)) + 1)
    match ← out.reserve A needed with
    | none => some (false, out)
    | some out =>
      let memory ← out.memory.store ⟨out.buffer, out.length⟩ bytes
      let length ← int (out.length + bytes.length)
      let memory ← memory.store ⟨out.buffer, length⟩ [0]
      some (true, { out with memory, length })

/-! ## Decoding -/

/-- The loop of `xp_decode_unknown_encoding_input`, and the error that ends it; `n` bounds the
sequences still to be read. -/
def decodeFrom (A : Allocator) (info : XmlEncoding) (input : String8) :
    Nat → Nat → Output → Option (Error × Output)
  | 0, _, out => some (.none, out)
  | n + 1, i, out =>
    if input.length ≤ i then
      some (.none, out)
    else
      let map := info.map (input.item (i + 1))
      if 0 ≤ map then
        if 0xD800 ≤ map ∧ map ≤ 0xDFFF then
          some (.invalidToken, out)
        else do
          let (ok, out) ← privateAppendUtf8 A out map
          if ok then decodeFrom A info input n (i + 1) out else some (.noMemory, out)
      else if map = -1 then
        some (.invalidToken, out)
      else if -4 ≤ map ∧ map ≤ -2 then do
        let stop ← int (i + -map)
        if input.length < stop then
          some (.partialChar, out)
        else
          -- Without a converter a null pointer would be called.
          let convert ← info.convert
          let code := convert i (input.substring (i + 1) stop.toNat)
          if !isScalarValue code then
            some (.invalidToken, out)
          else do
            let (ok, out) ← privateAppendUtf8 A out code
            if ok then decodeFrom A info input n stop.toNat out else some (.noMemory, out)
      else
        some (.unknownEncoding, out)

/-- What `xp_decode_unknown_encoding_input` returns, and what it stores for its caller. -/
structure UnknownEncodingResult where
  decoded : Option Nat
  decodedLength : Int
  errorCode : Error
  memory : Memory

/-- `xp_decode_unknown_encoding_input`.  The handler of the application gives no description when it
returns an error. -/
def decodeUnknownEncodingInput (A : Allocator) (memory : Memory)
    (unknownEncodingHandler : Option (String8 → Option XmlEncoding)) (encoding input : Option String8) :
    Option UnknownEncodingResult :=
  match unknownEncodingHandler, encoding, input with
  | some handler, some encoding, some input =>
    match handler encoding with
    | none => some ⟨none, 0, .unknownEncoding, memory⟩
    | some info =>
      if !info.isValid then
        some ⟨none, 0, .unknownEncoding, memory⟩
      else do
        let capacity ← int ((← int (input.length * 2)) + 1)
        let capacity := if capacity < 16 then 16 else capacity
        match memory.malloc A capacity with
        | (none, memory) => some ⟨none, 0, .noMemory, memory⟩
        | (some buffer, memory) =>
          let memory ← memory.store ⟨buffer, 0⟩ [0]
          let (errorCode, out) ←
            decodeFrom A info input (input.length + 1) 0 ⟨memory, buffer, 0, capacity⟩
          if errorCode = .none then
            some ⟨some out.buffer, out.length, .none, out.memory⟩
          else
            let memory ← out.memory.free (some out.buffer)
            some ⟨none, 0, errorCode, memory⟩
  | _, _, _ => some ⟨none, 0, .unknownEncoding, memory⟩

/-! ## What an input says -/

/-- How the reading of an input in an encoding ends. -/
inductive Ending where
  | complete
  | cutOff
  | malformed
  deriving DecidableEq, Repr

/-- From the index `i` on, `input` says `text` up to its end, or up to the sequence that is cut off
there or does not stand for a character. -/
inductive Says (info : XmlEncoding) : Nat → String8 → List Char → Ending → Prop
  | nil {i : Nat} : Says info i [] [] .complete
  | single {i : Nat} {b : UInt8} {rest : String8} {c : Char} {text : List Char} {ending : Ending}
      (hmap : info.map b = c.toNat) (hrest : Says info (i + 1) rest text ending) :
      Says info i (b :: rest) (c :: text) ending
  | sequence {i : Nat} {b : UInt8} {tail rest : String8} {c : Char} {text : List Char}
      {ending : Ending} {convert : Nat → String8 → Int}
      (hmap : info.map b = -((b :: tail).length : Int)) (hlong : tail ≠ [])
      (hconvert : info.convert = some convert) (hcode : convert i (b :: tail) = c.toNat)
      (hrest : Says info (i + (b :: tail).length) rest text ending) :
      Says info i (b :: tail ++ rest) (c :: text) ending
  | cutOff {i : Nat} {b : UInt8} {tail : String8} (hmap : info.map b ≤ -2)
      (hcut : ((b :: tail).length : Int) < -info.map b) :
      Says info i (b :: tail) [] .cutOff
  | malformedSingle {i : Nat} {b : UInt8} {rest : String8} (hmap : -1 ≤ info.map b)
      (hnone : ¬ ∃ c : Char, info.map b = c.toNat) :
      Says info i (b :: rest) [] .malformed
  | malformedSequence {i : Nat} {b : UInt8} {tail rest : String8} {convert : Nat → String8 → Int}
      (hmap : info.map b = -((b :: tail).length : Int)) (hlong : tail ≠ [])
      (hconvert : info.convert = some convert)
      (hnone : ¬ ∃ c : Char, convert i (b :: tail) = c.toNat) :
      Says info i (b :: tail ++ rest) [] .malformed

/-- `Default_max_input_bytes` of `XP_LIMITS`, with which the native layer makes its parser. -/
def defaultMaxInputBytes : Nat := 10485760

/-! ## Code points -/

theorem codepointBytes_eq {code : Nat} (h : code ≤ 0x10FFFF) :
    codepointBytes code = utf8Bytes code := by
  have hsix (n : Nat) : n &&& 0x3F = n % 64 := Nat.and_two_pow_sub_one_eq_mod n 6
  have htail : ∀ k < 64, 0x80 ||| k = 128 + k := by decide
  have htwo : ∀ k < 32, 0xC0 ||| k = 192 + k := by decide
  have hthree : ∀ k < 16, 0xE0 ||| k = 224 + k := by decide
  have hfour : ∀ k < 8, 0xF0 ||| k = 240 + k := by decide
  unfold codepointBytes utf8Bytes
  simp only [Nat.shiftRight_eq_div_pow, hsix]
  split
  · rfl
  split
  · rw [htwo _ (by omega), htail _ (by omega)]
  split
  · rw [hthree _ (by omega), htail _ (by omega), htail _ (by omega)]
  · rw [hfour _ (by omega), htail _ (by omega), htail _ (by omega), htail _ (by omega)]

theorem isScalarValue_iff {code : Int} :
    isScalarValue code = true ↔ ∃ c : Char, code = c.toNat := by
  unfold isScalarValue
  simp only [Bool.not_eq_true', Bool.or_eq_false_iff, Bool.and_eq_false_iff,
    decide_eq_false_iff_not]
  constructor
  · rintro ⟨⟨hlow, hhigh⟩, hsurrogate⟩
    obtain ⟨c, hc⟩ := exists_char (show code.toNat < 0xD800 ∨
      0xDFFF < code.toNat ∧ code.toNat < 0x110000 by omega)
    exact ⟨c, by omega⟩
  · rintro ⟨c, rfl⟩
    have hscalar := scalar c
    exact ⟨⟨by omega, by omega⟩, by omega⟩

theorem length_utf8EncodeChar_le (c : Char) :
    (String.utf8EncodeChar c).length ≤ 4 ∧
      (c.toNat ≤ 65535 → (String.utf8EncodeChar c).length ≤ 3) := by
  rw [← utf8Bytes_toNat]
  unfold utf8Bytes
  split
  · exact ⟨by simp, fun _ ↦ by simp⟩
  split
  · exact ⟨by simp, fun _ ↦ by simp⟩
  split
  · exact ⟨by simp, fun _ ↦ by simp⟩
  · exact ⟨by simp, fun h ↦ by omega⟩

/-! ## The output holds what has been written -/

/-- The buffer holds `written`, and has room for the null character behind it. -/
structure Output.Holds (out : Output) (written : String8) : Prop where
  length : out.length = written.length
  block : ∃ bytes, out.memory.block out.buffer = some bytes ∧ (bytes.length : Int) = out.capacity ∧
    written.length < bytes.length ∧ bytes.take written.length = written

section

variable {A : Allocator} {out : Output} {written : String8}

/-- Room is found, and what has been written stays. -/
theorem Output.Holds.reserve (hA : ∀ k size, A.allocates k size = true) (h : out.Holds written)
    {needed : Int} (hcapacity : out.capacity ≤ 1073741823) (hneeded : 0 ≤ needed) :
    ∃ out', out.reserve A needed = some (some out') ∧ out'.Holds written ∧
      needed ≤ out'.capacity ∧
      (out'.capacity ≤ out.capacity ∨ out'.capacity ≤ 2 * needed) := by
  obtain ⟨bytes, hblock, hlength, hroom, htake⟩ := h.block
  unfold Output.reserve
  by_cases hgrows : out.capacity < needed
  swap
  · rw [if_neg hgrows]
    exact ⟨out, rfl, h, by omega, Or.inl (Int.le_refl _)⟩
  rw [if_pos hgrows, bind_of_eq_some (int_eq (by omega) (by omega))]
  dsimp only
  generalize hnew : (if out.capacity * 2 < needed then needed else out.capacity * 2) = newCapacity
  have hbound : needed ≤ newCapacity ∧ newCapacity ≤ 2 * needed ∧ out.capacity ≤ newCapacity := by
    rw [← hnew]
    split <;> omega
  have hnext := Memory.lt_next hblock
  have hsame := Memory.block_allocate (A := A) hnext newCapacity bytes
  have hrealloc : out.memory.realloc A out.buffer newCapacity =
      some (some out.memory.next, (out.memory.allocate A newCapacity bytes).put out.buffer none) := by
    unfold Memory.realloc
    rw [bind_of_eq_some hblock, if_pos (hA _ _),
      bind_of_eq_some (Memory.free_eq (hsame.trans hblock))]
  rw [bind_of_eq_some hrealloc]
  have hmoved : ((out.memory.allocate A newCapacity bytes).put out.buffer none).block
      out.memory.next = some (bytes.take newCapacity.toNat ++
        (List.range (newCapacity.toNat - bytes.length)).map (A.garbage out.memory.next)) := by
    rw [Memory.block_put_of_ne (by omega), Memory.block_allocate_next]
  refine ⟨_, rfl, ⟨h.length, _, hmoved, ?_, ?_, ?_⟩, hbound.1, Or.inr hbound.2.1⟩
  · show ((_ : List UInt8).length : Int) = newCapacity
    rw [List.length_append, List.length_take, List.length_map, List.length_range]
    omega
  · rw [List.length_append, List.length_take]
    omega
  · rw [List.take_append_of_le_length, List.take_take, Nat.min_eq_left (by omega), htake]
    rw [List.length_take]
    omega

/-- A character is appended in its UTF-8 form, inside of the buffer. -/
theorem Output.Holds.append (hA : ∀ k size, A.allocates k size = true) (h : out.Holds written)
    (hcapacity : out.capacity ≤ 1073741823) (c : Char) :
    ∃ out', privateAppendUtf8 A out c.toNat = some (true, out') ∧
      out'.Holds (written ++ String.utf8EncodeChar c) ∧
      (out'.capacity ≤ out.capacity ∨
        out'.capacity ≤ 2 * ((written ++ String.utf8EncodeChar c).length + 1)) := by
  have hscalar := scalar c
  have hshort := (length_utf8EncodeChar_le c).1
  obtain ⟨bytes, hblock, hlength, hroom, htake⟩ := h.block
  have hwritten := h.length
  have hencoded : codepointBytes (Int.toNat (c.toNat : Int)) = String.utf8EncodeChar c := by
    rw [Int.toNat_natCast, codepointBytes_eq (by omega), utf8Bytes_toNat]
  unfold privateAppendUtf8
  rw [isScalarValue_iff.2 ⟨c, rfl⟩, Bool.not_true, if_neg Bool.false_ne_true]
  dsimp only
  rw [hencoded]
  generalize String.utf8EncodeChar c = data at hshort ⊢
  rw [bind_of_eq_some (int_eq (show -2147483648 ≤ out.length + data.length by omega) (by omega)),
    bind_of_eq_some (int_eq (by omega) (by omega))]
  obtain ⟨grown, hreserve, hholds, hfits, hsize⟩ := h.reserve hA hcapacity
    (show 0 ≤ out.length + data.length + 1 by omega)
  obtain ⟨bytes', hblock', hlength', hroom', htake'⟩ := hholds.block
  have hwritten' := hholds.length
  rw [bind_of_eq_some hreserve]
  dsimp only
  -- The code point is stored, and the null character behind it.
  have hoffset : grown.length.toNat = written.length := by omega
  have hstore : grown.memory.store ⟨grown.buffer, grown.length⟩ data =
      some (grown.memory.put grown.buffer (some (overwrite bytes' written.length data))) := by
    rw [← hoffset]
    exact Memory.store_eq hblock' (by omega) (by omega)
  have hinner := Memory.block_put hblock' (some (overwrite bytes' written.length data))
  have hlength'' := @length_overwrite _ bytes' data written.length (by omega)
  have hbehind : (grown.length + data.length).toNat = written.length + data.length := by omega
  have hstore' : (grown.memory.put grown.buffer
      (some (overwrite bytes' written.length data))).store
        ⟨grown.buffer, grown.length + data.length⟩ [0] =
      some ((grown.memory.put grown.buffer (some (overwrite bytes' written.length data))).put
        grown.buffer (some (overwrite (overwrite bytes' written.length data)
          (written.length + data.length) [0]))) := by
    rw [← hbehind]
    exact Memory.store_eq hinner (by omega) (by rw [hlength'', List.length_singleton]; omega)
  rw [bind_of_eq_some hstore, bind_of_eq_some (int_eq (by omega) (by omega)),
    bind_of_eq_some hstore']
  refine ⟨_, rfl, ⟨?_, _, Memory.block_put hinner _, ?_, ?_, ?_⟩, ?_⟩
  · show grown.length + data.length = ((written ++ data).length : Int)
    rw [List.length_append]
    omega
  · show ((_ : List UInt8).length : Int) = grown.capacity
    rw [length_overwrite (by rw [hlength'', List.length_singleton]; omega), hlength'']
    omega
  · rw [length_overwrite (by rw [hlength'', List.length_singleton]; omega), hlength'',
      List.length_append]
    omega
  · rw [List.length_append, take_overwrite (Nat.le_refl _) (by rw [hlength'']; omega),
      take_overwrite_end (by omega), htake']
  · rw [List.length_append]
    show grown.capacity ≤ _ ∨ grown.capacity ≤ _
    omega

end

/-! ## The map -/

section

variable {info : XmlEncoding} {b : UInt8}

/-- What an accepted map can hold. -/
theorem XmlEncoding.isValid_cases (h : info.isValid = true) (b : UInt8) :
    info.map b = -1 ∨ -4 ≤ info.map b ∧ info.map b ≤ -2 ∧ info.convert.isSome = true ∨
      0 ≤ info.map b ∧ info.map b ≤ 65535 := by
  unfold XmlEncoding.isValid at h
  rw [Bool.and_eq_true, List.all_eq_true, List.all_eq_true] at h
  have hbyte := b.toNat_lt
  have hsame : UInt8.ofNat b.toNat = b := UInt8.ofNat_toNat
  by_cases hascii : b.toNat < 128
  · have hmap := h.1 b.toNat (List.mem_range.2 hascii)
    rw [hsame, beq_iff_eq] at hmap
    omega
  · have hmap := h.2 b.toNat (List.mem_range'_1.2 ⟨by omega, by omega⟩)
    rw [hsame] at hmap
    dsimp only at hmap
    split at hmap
    · exact Or.inl (by assumption)
    split at hmap
    · rename_i hrange
      exact Or.inr (Or.inl ⟨hrange.1, hrange.2, hmap⟩)
    · simp only [Bool.not_eq_true', Bool.or_eq_false_iff, Bool.and_eq_false_iff,
        decide_eq_false_iff_not] at hmap
      omega

/-- Every input says something. -/
theorem exists_reading (h : info.isValid = true) (i : Nat) (bytes : String8) :
    ∃ text ending, Says info i bytes text ending := by
  induction hn : bytes.length using Nat.strongRecOn generalizing i bytes with
  | ind n ih =>
    cases bytes with
    | nil => exact ⟨[], .complete, .nil⟩
    | cons b rest =>
      rw [List.length_cons] at hn
      rcases XmlEncoding.isValid_cases h b with hnone | ⟨hlow, hhigh, hsome⟩ | ⟨hlow, hhigh⟩
      · refine ⟨[], .malformed, .malformedSingle (by omega) ?_⟩
        rintro ⟨c, hc⟩
        omega
      · obtain ⟨convert, hconvert⟩ := Option.isSome_iff_exists.1 hsome
        by_cases hcut : ((b :: rest).length : Int) < -info.map b
        · exact ⟨[], .cutOff, .cutOff hhigh hcut⟩
        rw [List.length_cons] at hcut
        obtain ⟨tail, rest', rfl, htail⟩ : ∃ tail rest', rest = tail ++ rest' ∧
            info.map b = -((b :: tail).length : Int) := by
          refine ⟨rest.take (-info.map b - 1).toNat, rest.drop (-info.map b - 1).toNat,
            (List.take_append_drop _ _).symm, ?_⟩
          rw [List.length_cons, List.length_take]
          omega
        have hlong : tail ≠ [] := by
          rintro rfl
          rw [List.length_singleton] at htail
          omega
        rw [List.length_append] at hn
        by_cases hcode : ∃ c : Char, convert i (b :: tail) = c.toNat
        · obtain ⟨c, hc⟩ := hcode
          obtain ⟨text, ending, hrest⟩ := ih rest'.length (by omega) (i + (b :: tail).length)
            rest' rfl
          exact ⟨c :: text, ending, .sequence htail hlong hconvert hc hrest⟩
        · exact ⟨[], .malformed, .malformedSequence htail hlong hconvert hcode⟩
      · by_cases hcode : ∃ c : Char, info.map b = c.toNat
        · obtain ⟨c, hc⟩ := hcode
          obtain ⟨text, ending, hrest⟩ := ih rest.length (by omega) (i + 1) rest rfl
          exact ⟨c :: text, ending, .single hc hrest⟩
        · exact ⟨[], .malformed, .malformedSingle (by omega) hcode⟩

end

/-! ## The loop -/

/-- The error that is reported of an input. -/
def Ending.error : Ending → Error
  | .complete => .none
  | .cutOff => .partialChar
  | .malformed => .invalidToken

section

variable {A : Allocator} {info : XmlEncoding} {input : String8}

/-- The loop reads what the input says, and appends it. -/
theorem decodeFrom_of_says (hA : ∀ k size, A.allocates k size = true)
    (hvalid : info.isValid = true) (hlimit : input.length ≤ defaultMaxInputBytes)
    {i n : Nat} {rest written : String8} {text : List Char} {ending : Ending} {out : Output}
    (h : Says info i rest text ending) (hrest : RestAt input (i + 1) rest) (hn : rest.length < n)
    (hout : out.Holds written) (hwritten : written.length ≤ 3 * i)
    (hcapacity : out.capacity ≤ 6 * input.length + 18) :
    ∃ out', decodeFrom A info input n i out = some (ending.error, out') ∧
      out'.Holds (written ++ utf8 text) := by
  unfold defaultMaxInputBytes at hlimit
  induction h generalizing n written out with
  | @nil i =>
    obtain ⟨n, rfl⟩ : ∃ m, n = m + 1 := ⟨n - 1, by omega⟩
    have hend := hrest.lt_of_nil
    rw [decodeFrom, if_pos (by omega)]
    exact ⟨out, rfl, by rwa [utf8, List.flatMap_nil, List.append_nil]⟩
  | @single i b rest c text ending hmap _ ih =>
    have hle := hrest.le
    have hscalar := scalar c
    have hbound : info.map b ≤ 65535 := by
      rcases XmlEncoding.isValid_cases hvalid b with hcase | hcase | hcase <;> omega
    rw [List.length_cons] at hn
    obtain ⟨n, rfl⟩ : ∃ m, n = m + 1 := ⟨n - 1, by omega⟩
    obtain ⟨out', happend, hholds, hsize⟩ := hout.append hA (by omega) c
    have hshort := (length_utf8EncodeChar_le c).2 (by omega)
    rw [List.length_append] at hsize
    obtain ⟨final, hread, hfinal⟩ := @ih n _ _ hrest.cons (by omega) hholds
      (by rw [List.length_append]; omega) (by omega)
    rw [decodeFrom, if_neg (by omega), hrest.item]
    dsimp only
    rw [if_pos (by omega), if_neg (by omega), hmap, bind_of_eq_some happend]
    dsimp only
    rw [if_pos rfl, hread]
    exact ⟨final, rfl, by rwa [utf8_cons, ← List.append_assoc]⟩
  | @sequence i b tail rest c text ending convert hmap hlong hconvert hcode _ ih =>
    have hlength := List.length_pos_iff.2 hlong
    have hle := RestAt.index hrest
    rw [List.length_append] at hn hle
    have hbytes : (b :: tail).length = tail.length + 1 := rfl
    rw [hbytes] at hn hle hmap
    obtain ⟨n, rfl⟩ : ∃ m, n = m + 1 := ⟨n - 1, by omega⟩
    have hfour : -4 ≤ info.map b := by
      rcases XmlEncoding.isValid_cases hvalid b with hcase | hcase | hcase <;> omega
    obtain ⟨out', happend, hholds, hsize⟩ := hout.append hA (by omega) c
    have hshort := (length_utf8EncodeChar_le c).1
    rw [List.length_append] at hsize
    have hnext := hrest.append
    rw [show i + 1 + (b :: tail).length = i + (b :: tail).length + 1 by omega] at hnext
    obtain ⟨final, hread, hfinal⟩ := @ih n _ _ hnext (by omega) hholds
      (by rw [List.length_append]; omega) (by omega)
    have hstop : (i : Int) + -info.map b = ((i + (b :: tail).length : Nat) : Int) := by
      rw [hbytes]
      omega
    have hsub := hrest.substring
    rw [show i + 1 + (b :: tail).length - 1 = i + (b :: tail).length by omega] at hsub
    have hitem : input.item (i + 1) = b := RestAt.item hrest
    rw [decodeFrom, if_neg (by omega), hitem]
    dsimp only
    rw [if_neg (by omega), if_neg (by omega), if_pos ⟨hfour, by omega⟩, hstop,
      bind_of_eq_some (int_eq (by omega) (by omega)), if_neg (by rw [hbytes]; omega),
      bind_of_eq_some hconvert, Int.toNat_natCast, hsub, hcode, isScalarValue_iff.2 ⟨c, rfl⟩, Bool.not_true,
      if_neg Bool.false_ne_true, bind_of_eq_some happend]
    dsimp only
    rw [if_pos rfl, hread]
    exact ⟨final, rfl, by rwa [utf8_cons, ← List.append_assoc]⟩
  | @cutOff i b tail hmap hcut =>
    have hle := hrest.index
    have hend := hrest.le
    have hfour : -4 ≤ info.map b := by
      rcases XmlEncoding.isValid_cases hvalid b with hcase | hcase | hcase <;> omega
    obtain ⟨n, rfl⟩ : ∃ m, n = m + 1 := ⟨n - 1, by omega⟩
    rw [decodeFrom, if_neg (by omega), hrest.item]
    dsimp only
    rw [if_neg (by omega), if_neg (by omega), if_pos ⟨hfour, hmap⟩,
      bind_of_eq_some (int_eq (by omega) (by omega)), if_pos (by omega)]
    exact ⟨out, rfl, by rwa [utf8, List.flatMap_nil, List.append_nil]⟩
  | @malformedSingle i b rest hmap hnone =>
    have hend := hrest.le
    obtain ⟨n, rfl⟩ : ∃ m, n = m + 1 := ⟨n - 1, by omega⟩
    rw [decodeFrom, if_neg (by omega), hrest.item]
    dsimp only
    by_cases hsingle : 0 ≤ info.map b
    · have hsurrogate : 0xD800 ≤ info.map b ∧ info.map b ≤ 0xDFFF := by
        by_contra hother
        apply hnone
        apply isScalarValue_iff.1
        unfold isScalarValue
        rcases XmlEncoding.isValid_cases hvalid b with hcase | hcase | hcase
        · omega
        · omega
        · simp only [Bool.not_eq_true', Bool.or_eq_false_iff, Bool.and_eq_false_iff,
            decide_eq_false_iff_not]
          omega
      rw [if_pos hsingle, if_pos hsurrogate]
      exact ⟨out, rfl, by rwa [utf8, List.flatMap_nil, List.append_nil]⟩
    · rw [if_neg hsingle, if_pos (by omega)]
      exact ⟨out, rfl, by rwa [utf8, List.flatMap_nil, List.append_nil]⟩
  | @malformedSequence i b tail rest convert hmap hlong hconvert hnone =>
    have hlength := List.length_pos_iff.2 hlong
    have hle := RestAt.index hrest
    rw [List.length_append] at hle
    have hbytes : (b :: tail).length = tail.length + 1 := rfl
    rw [hbytes] at hle hmap
    have hfour : -4 ≤ info.map b := by
      rcases XmlEncoding.isValid_cases hvalid b with hcase | hcase | hcase <;> omega
    have hstop : (i : Int) + -info.map b = ((i + (b :: tail).length : Nat) : Int) := by
      rw [hbytes]
      omega
    have hsub := hrest.substring
    rw [show i + 1 + (b :: tail).length - 1 = i + (b :: tail).length by omega] at hsub
    have hitem : input.item (i + 1) = b := RestAt.item hrest
    have hscalar : isScalarValue (convert i (b :: tail)) = false := by
      rw [← Bool.not_eq_true, isScalarValue_iff]
      exact hnone
    obtain ⟨n, rfl⟩ : ∃ m, n = m + 1 := ⟨n - 1, by omega⟩
    rw [decodeFrom, if_neg (by omega), hitem]
    dsimp only
    rw [if_neg (by omega), if_neg (by omega), if_pos ⟨hfour, by omega⟩, hstop,
      bind_of_eq_some (int_eq (by omega) (by omega)), if_neg (by rw [hbytes]; omega),
      bind_of_eq_some hconvert, Int.toNat_natCast, hsub, hscalar, Bool.not_false, if_pos rfl]
    exact ⟨out, rfl, by rwa [utf8, List.flatMap_nil, List.append_nil]⟩

/-! ## The whole function -/

/-- The first buffer is empty, and has room for a null character. -/
theorem holds_malloc (hA : ∀ k size, A.allocates k size = true) {memory : Memory} {capacity : Int}
    (hpos : 0 < capacity) :
    ∃ memory' cleared, memory.malloc A capacity = (some memory.next, memory') ∧
      memory'.store ⟨memory.next, 0⟩ [0] = some cleared ∧
      (⟨cleared, memory.next, 0, capacity⟩ : Output).Holds [] := by
  have hblock := @Memory.block_allocate_next memory A capacity []
  have hlength : (([] : List UInt8).take capacity.toNat ++
      (List.range (capacity.toNat - ([] : List UInt8).length)).map
        (A.garbage memory.next)).length = capacity.toNat := by
    rw [List.length_append, List.length_take, List.length_map, List.length_range]
    simp
  generalize ([] : List UInt8).take capacity.toNat ++ _ = bytes at hblock hlength
  refine ⟨_, _, if_pos (hA _ _), Memory.store_eq hblock (Int.le_refl 0)
    (by rw [List.length_singleton]; omega), rfl, _, Memory.block_put hblock _, ?_, ?_, rfl⟩
  · rw [length_overwrite (by rw [List.length_singleton, Int.toNat_zero]; omega)]
    show ((bytes.length : Nat) : Int) = capacity
    omega
  · rw [length_overwrite (by rw [List.length_singleton, Int.toNat_zero]; omega), List.length_nil]
    omega

/-- Every input in an accepted encoding is complete, cut off or malformed.  The UTF-8 form of a
complete one is returned; of another one the matching error is.  Nothing is written outside of the
buffer, and no number overflows. -/
theorem decodeUnknownEncodingInput_correct (hA : ∀ k size, A.allocates k size = true)
    (hvalid : info.isValid = true) (hlimit : input.length ≤ defaultMaxInputBytes)
    {handler : String8 → Option XmlEncoding} {encoding : String8}
    (hhandler : handler encoding = some info) (memory : Memory) :
    (∃ text ending, Says info 0 input text ending) ∧
    ∃ r, decodeUnknownEncodingInput A memory (some handler) (some encoding) (some input) = some r ∧
      ∀ text ending, Says info 0 input text ending → r.errorCode = ending.error ∧
        (ending = .complete → ∃ b, r.decoded = some b ∧ r.decodedLength = (utf8 text).length ∧
          r.memory.load ⟨b, 0⟩ r.decodedLength = some (utf8 text)) ∧
        (ending ≠ .complete → r.decoded = none ∧ r.decodedLength = 0) := by
  refine ⟨exists_reading hvalid 0 input, ?_⟩
  obtain ⟨text, ending, hsays⟩ := exists_reading hvalid 0 input
  have hlength : (input.length : Int) ≤ 10485760 := Int.ofNat_le.2 hlimit
  obtain ⟨capacity, hcapacity⟩ : ∃ capacity : Int, capacity =
    if (input.length : Int) * 2 + 1 < 16 then 16 else (input.length : Int) * 2 + 1 := ⟨_, rfl⟩
  have hpos : 0 < capacity ∧ capacity ≤ 6 * input.length + 18 := by
    rw [hcapacity]
    split <;> omega
  obtain ⟨allocated, cleared, hmalloc, hstore, hholds⟩ := @holds_malloc A hA memory capacity hpos.1
  have hwhole : RestAt input (0 + 1) input := ⟨by omega, by omega, rfl⟩
  have hloop {text : List Char} {ending : Ending} (h : Says info 0 input text ending) :=
    decodeFrom_of_says hA hvalid hlimit h hwhole (Nat.lt_succ_self _) hholds (Nat.zero_le _) hpos.2
  obtain ⟨out, hread, hfinal⟩ := hloop hsays
  obtain ⟨bytes, hblock, -⟩ := hfinal.block
  -- Up to the end of the loop, every step is defined.
  have hrun : decodeUnknownEncodingInput A memory (some handler) (some encoding) (some input) =
      if ending.error = .none then some ⟨some out.buffer, out.length, .none, out.memory⟩
      else some ⟨none, 0, ending.error, out.memory.put out.buffer none⟩ := by
    unfold decodeUnknownEncodingInput
    dsimp only
    rw [hhandler]
    dsimp only
    rw [hvalid, Bool.not_true, if_neg Bool.false_ne_true,
      bind_of_eq_some (int_eq (n := (input.length : Int) * 2) (by omega) (by omega)),
      bind_of_eq_some (int_eq (by omega) (by omega)), ← hcapacity, hmalloc]
    dsimp only
    rw [bind_of_eq_some hstore, bind_of_eq_some hread]
    dsimp only
    split
    · rfl
    · rw [bind_of_eq_some (Memory.free_eq hblock)]
  rw [hrun]
  have hsame {text' : List Char} {ending' : Ending} (h : Says info 0 input text' ending') :
      ending.error = ending'.error ∧ out.Holds (utf8 text') := by
    obtain ⟨out', hread', hfinal'⟩ := hloop h
    obtain ⟨herror, rfl⟩ := Prod.mk.inj (Option.some.inj (hread.symm.trans hread'))
    exact ⟨herror, hfinal'⟩
  split
  · rename_i hcomplete
    refine ⟨_, rfl, fun text' ending' h ↦ ⟨hcomplete.symm.trans (hsame h).1, fun _ ↦ ?_, ?_⟩⟩
    · obtain ⟨bytes', hblock', -, hroom, htake⟩ := (hsame h).2.block
      have hwritten := (hsame h).2.length
      refine ⟨out.buffer, rfl, hwritten, ?_⟩
      show out.memory.load ⟨out.buffer, 0⟩ out.length = _
      rw [Memory.load_eq hblock' (Int.le_refl 0) (by omega) (by omega), Int.toNat_zero,
        List.drop_zero, hwritten, Int.toNat_natCast, htake]
    · intro hother
      have herror := (hsame h).1
      rw [hcomplete] at herror
      cases ending' with
      | complete => exact absurd rfl hother
      | cutOff => cases herror
      | malformed => cases herror
  · rename_i hfailed
    refine ⟨_, rfl, fun text' ending' h ↦ ⟨(hsame h).1, fun hcomplete ↦ ?_, fun _ ↦ ⟨rfl, rfl⟩⟩⟩
    rw [(hsame h).1, hcomplete] at hfailed
    exact absurd rfl hfailed

end

/-- A map with a sequence of two bytes. -/
def pairEncoding : XmlEncoding where
  map b := if b.toNat < 128 then b.toNat else if b.toNat = 255 then -2 else -1
  convert := some fun _ bytes ↦ 0x20AC + bytes.length - 2

theorem decodeUnknownEncodingInput_correct_pair :
    ∃ r b, decodeUnknownEncodingInput ⟨fun _ _ ↦ true, fun _ _ ↦ 0⟩ ⟨[]⟩
        (some fun _ ↦ some pairEncoding) (some (str "x-pair")) (some [97, 255, 1]) = some r ∧
      r.errorCode = .none ∧ r.decoded = some b ∧
      r.memory.load ⟨b, 0⟩ r.decodedLength = some [97, 226, 130, 172] := by
  have hpair : Says pairEncoding 1 (255 :: [1] ++ []) ['€'] .complete :=
    .sequence (by decide) (by decide) rfl (by decide) .nil
  have hsays : Says pairEncoding 0 [97, 255, 1] ['a', '€'] .complete := .single (by decide) hpair
  obtain ⟨-, r, hrun, hresult⟩ := @decodeUnknownEncodingInput_correct
    ⟨fun _ _ ↦ true, fun _ _ ↦ 0⟩ pairEncoding [97, 255, 1] (fun _ _ ↦ rfl) (by decide +kernel)
    (by decide) (fun _ ↦ some pairEncoding) (str "x-pair") rfl ⟨[]⟩
  obtain ⟨herror, hcomplete, -⟩ := hresult _ _ hsays
  obtain ⟨b, hdecoded, -, hload⟩ := hcomplete rfl
  exact ⟨r, b, hrun, herror, hdecoded, hload.trans (by decide)⟩

end Xpact.Native
