import Mathlib.Data.List.Induction
import Xpact.Parser.State

/-!
# Position accounting

Line and column are not counted from the start at every token: they are advanced and retreated from
the last position, or left alone until somebody asks.  `lineNumberAt` and `columnNumberAt` count from
the start, and whatever the calls were, what was accounted is what they count.
-/

namespace Xpact

/-! ## Counting from the start -/

/-- `line_number_at`. -/
def lineNumberAt (input : String8) (i : Nat) : Nat :=
  (input.take (i - 1)).foldl (fun line (c : Character8) ↦ if c = '\n' then line + 1 else line) 1

/-- `column_number_at`. -/
def columnNumberAt (input : String8) (i : Nat) : Nat :=
  (input.take (i - 1)).foldl (fun column (c : Character8) ↦ if c = '\n' then 0 else column + 1) 0

/-- The length of the last line of a text. -/
def lastLineLength (text : String8) : Nat :=
  (text.reverse.takeWhile fun c ↦ c != ('\n' : Character8)).length

theorem foldl_line (text : String8) (line : Nat) :
    text.foldl (fun line (c : Character8) ↦ if c = '\n' then line + 1 else line) line =
      line + text.count ('\n' : Character8) := by
  induction text generalizing line with
  | nil => simp
  | cons c text ih =>
    rw [List.foldl_cons, ih]
    by_cases hc : c = '\n'
    · rw [if_pos hc, hc, List.count_cons_self]
      omega
    · rw [if_neg hc, List.count_cons_of_ne hc]

theorem lastLineLength_concat (text : String8) (c : Character8) :
    lastLineLength (text ++ [c]) = if c = '\n' then 0 else lastLineLength text + 1 := by
  unfold lastLineLength
  by_cases hc : c = '\n'
  · simp [hc]
  · simp [hc]

theorem foldl_column (text : String8) :
    text.foldl (fun column (c : Character8) ↦ if c = '\n' then 0 else column + 1) 0 = lastLineLength text := by
  induction text using List.reverseRecOn with
  | nil => rfl
  | append_singleton text c ih =>
    rw [List.foldl_append, ih, lastLineLength_concat]
    rfl

theorem lineNumberAt_eq (input : String8) (i : Nat) :
    lineNumberAt input i = 1 + (input.take (i - 1)).count ('\n' : Character8) := foldl_line _ 1

theorem columnNumberAt_eq (input : String8) (i : Nat) :
    columnNumberAt input i = lastLineLength (input.take (i - 1)) := foldl_column _

/-- The last line reaches back over a text without a newline, and no further than that. -/
theorem lastLineLength_append {text more : String8} (h : ('\n' : Character8) ∉ more) :
    lastLineLength (text ++ more) = lastLineLength text + more.length := by
  induction more using List.reverseRecOn with
  | nil => simp
  | append_singleton more c ih =>
    rw [List.mem_append, List.mem_singleton, not_or] at h
    rw [← List.append_assoc, lastLineLength_concat, if_neg (Ne.symm h.2), ih h.1,
      List.length_append, List.length_singleton]
    omega

theorem not_mem_of_length_le {text more : String8}
    (h : more.length ≤ lastLineLength (text ++ more)) : ('\n' : Character8) ∉ more := by
  induction more using List.reverseRecOn with
  | nil => simp
  | append_singleton more c ih =>
    rw [← List.append_assoc, lastLineLength_concat, List.length_append, List.length_singleton] at h
    by_cases hc : c = '\n'
    · rw [if_pos hc] at h
      omega
    · rw [if_neg hc] at h
      have hmore := ih (by omega)
      simp [hmore, Ne.symm hc]

namespace View

theorem advanceOver_eq (text : String8) (line column : Nat) :
    advanceOver text line column =
      (text.foldl (fun line (c : Character8) ↦ if c = '\n' then line + 1 else line) line,
        text.foldl (fun column (c : Character8) ↦ if c = '\n' then 0 else column + 1) column) := by
  unfold advanceOver
  induction text generalizing line column with
  | nil => rfl
  | cons c text ih =>
    by_cases hc : c = '\n'
    · simp only [List.foldl_cons, if_pos hc, ih]
    · simp only [List.foldl_cons, if_neg hc, ih]

/-- Line and column are those of the current position. -/
structure IsAccounted (v : View) : Prop where
  line : v.currentLineNumber = lineNumberAt v.positionInput v.currentPositionIndex
  column : v.currentColumnNumber = columnNumberAt v.positionInput v.currentPositionIndex

/-! ## Moves -/

section

variable {v : View} {i : Nat}

/-- The text from `i` up to `k`. -/
def between (input : String8) (i k : Nat) : String8 := (input.take (k - 1)).drop (i - 1)

/-- The text before `k` is the text before `i` and what is between them. -/
theorem take_eq_append (input : String8) {i k : Nat} (h : i ≤ k) :
    input.take (k - 1) = input.take (i - 1) ++ between input i k := by
  unfold between
  have hmin : min (i - 1) (k - 1) = i - 1 := by omega
  conv_lhs => rw [← List.take_append_drop (i - 1) (input.take (k - 1)), List.take_take, hmin]

theorem recompute_line (v : View) (i : Nat) :
    (v.recomputePositionFromStart i).currentLineNumber = lineNumberAt v.positionInput i := by
  show (advanceOver _ 1 0).1 = _
  rw [advanceOver_eq]
  rfl

theorem recompute_column (v : View) (i : Nat) :
    (v.recomputePositionFromStart i).currentColumnNumber = columnNumberAt v.positionInput i := by
  show (advanceOver _ 1 0).2 = _
  rw [advanceOver_eq]
  rfl

theorem advance_line (hv : v.IsAccounted) (hi : v.currentPositionIndex ≤ i) :
    (v.advancePositionTo i).currentLineNumber = lineNumberAt v.positionInput i := by
  show (advanceOver (between v.positionInput v.currentPositionIndex i) v.currentLineNumber
    v.currentColumnNumber).1 = _
  rw [advanceOver_eq, hv.line, lineNumberAt, lineNumberAt]
  show List.foldl _ (List.foldl _ _ _) _ = _
  rw [← List.foldl_append, ← take_eq_append _ hi]

theorem advance_column (hv : v.IsAccounted) (hi : v.currentPositionIndex ≤ i) :
    (v.advancePositionTo i).currentColumnNumber = columnNumberAt v.positionInput i := by
  show (advanceOver (between v.positionInput v.currentPositionIndex i) v.currentLineNumber
    v.currentColumnNumber).2 = _
  rw [advanceOver_eq, hv.column, columnNumberAt, columnNumberAt]
  show List.foldl _ (List.foldl _ _ _) _ = _
  rw [← List.foldl_append, ← take_eq_append _ hi]

/-- What lies between the target and the current position. -/
theorem length_between {input : String8} {i k : Nat} (hi : 1 ≤ i) (hk : k ≤ input.length + 1)
    (h : i ≤ k) : (between input i k).length = k - i := by
  unfold between
  rw [List.length_drop, List.length_take]
  omega

theorem retreat_line (hv : v.IsAccounted) (hi : 1 ≤ i) (h : i < v.currentPositionIndex)
    (hbound : v.currentPositionIndex ≤ v.positionInput.length + 1) :
    (v.retreatPositionTo i).currentLineNumber = lineNumberAt v.positionInput i := by
  have hsplit := take_eq_append v.positionInput (Nat.le_of_lt h)
  have hlength := length_between hi hbound (Nat.le_of_lt h)
  have hline := hv.line
  have hcolumn := hv.column
  rw [lineNumberAt_eq, hsplit, List.count_append] at hline
  rw [columnNumberAt_eq, hsplit] at hcolumn
  rw [lineNumberAt_eq]
  unfold retreatPositionTo
  dsimp only
  by_cases hdistance : v.currentPositionIndex - i ≤ v.currentColumnNumber
  · -- The move stays inside the line, so it passes no newline.
    rw [if_pos hdistance]
    have hnone : ('\n' : Character8) ∉ between v.positionInput i v.currentPositionIndex := by
      apply not_mem_of_length_le
      rw [hlength, ← hcolumn]
      exact hdistance
    rw [List.count_eq_zero_of_not_mem hnone] at hline
    exact hline
  · rw [if_neg hdistance]
    show v.currentLineNumber -
      (between v.positionInput i v.currentPositionIndex).count ('\n' : Character8) = _
    omega

theorem retreat_column (hv : v.IsAccounted) (hi : 1 ≤ i) (h : i < v.currentPositionIndex)
    (hbound : v.currentPositionIndex ≤ v.positionInput.length + 1) :
    (v.retreatPositionTo i).currentColumnNumber = columnNumberAt v.positionInput i := by
  have hsplit := take_eq_append v.positionInput (Nat.le_of_lt h)
  have hlength := length_between hi hbound (Nat.le_of_lt h)
  have hcolumn := hv.column
  rw [columnNumberAt_eq, hsplit] at hcolumn
  rw [columnNumberAt_eq]
  unfold retreatPositionTo
  dsimp only
  by_cases hdistance : v.currentPositionIndex - i ≤ v.currentColumnNumber
  · rw [if_pos hdistance]
    have hnone : ('\n' : Character8) ∉ between v.positionInput i v.currentPositionIndex := by
      apply not_mem_of_length_le
      rw [hlength, ← hcolumn]
      exact hdistance
    rw [lastLineLength_append hnone, hlength] at hcolumn
    show v.currentColumnNumber - _ = _
    omega
  · rw [if_neg hdistance]
    rfl

end

/-! ## Calls -/

/-- A call that moves the position.  An index before the input is clamped like 0. -/
inductive PositionCall where
  | note (i : Int)
  | noteToken (i : Int) (byteCount : Nat)
  | force

def moveTo (v : View) : PositionCall → View
  | .note i => v.notePosition i.toNat
  | .noteToken i byteCount => v.noteTokenPosition i.toNat byteCount
  | .force => v.forceCurrentPosition

def moves (v : View) (calls : List PositionCall) : View := calls.foldl moveTo v

/-- Between calls: line and column are those of the position unless they are deferred, and a position
lies inside the input. -/
structure IsKept (v : View) : Prop where
  accounted : v.lazyPositionAccounting = false → v.IsAccounted
  unmoved : v.currentPositionIndex = 0 → v.currentLineNumber = 1 ∧ v.currentColumnNumber = 0
  bounded : v.currentPositionIndex ≤ v.positionInput.length + 1

section

variable {v w : View}

theorem boundedPositionIndex_pos (v : View) (i : Nat) : 1 ≤ v.boundedPositionIndex i := by
  unfold boundedPositionIndex
  split
  · omega
  · split <;> omega

theorem boundedPositionIndex_le (v : View) (i : Nat) :
    v.boundedPositionIndex i ≤ v.positionInput.length + 1 := by
  unfold boundedPositionIndex
  split
  · omega
  · split <;> omega

theorem boundedPositionIndex_of_le (hpos : 1 ≤ v.currentPositionIndex)
    (hle : v.currentPositionIndex ≤ v.positionInput.length + 1) :
    v.boundedPositionIndex v.currentPositionIndex = v.currentPositionIndex := by
  unfold boundedPositionIndex
  rw [if_neg (by omega), if_neg (by omega)]

theorem reportedIndex_pos (v : View) (i : Nat) : 1 ≤ v.reportedIndex i := by
  unfold reportedIndex
  split
  · exact boundedPositionIndex_pos _ _
  · exact boundedPositionIndex_pos _ _

theorem reportedIndex_le (v : View) (i : Nat) :
    v.reportedIndex i ≤ v.positionInput.length + 1 := by
  unfold reportedIndex
  split
  · exact boundedPositionIndex_le _ _
  · exact boundedPositionIndex_le _ _

theorem countLinesTo_input (v : View) (i : Nat) :
    (v.countLinesTo i).positionInput = v.positionInput := by
  unfold countLinesTo
  split
  · rfl
  split
  · rfl
  split
  · unfold retreatPositionTo
    dsimp only
    split <;> rfl
  · rfl

theorem countLinesTo_lazy (v : View) (i : Nat) :
    (v.countLinesTo i).lazyPositionAccounting = v.lazyPositionAccounting := by
  unfold countLinesTo
  split
  · rfl
  split
  · rfl
  split
  · unfold retreatPositionTo
    dsimp only
    split <;> rfl
  · rfl

/-- Eager accounting counts what counting from the start counts. -/
theorem countLinesTo_counts {i : Nat} (hv : v.IsKept) (heager : v.lazyPositionAccounting = false)
    (hi : 1 ≤ i) : (v.countLinesTo i).currentLineNumber = lineNumberAt v.positionInput i ∧
      (v.countLinesTo i).currentColumnNumber = columnNumberAt v.positionInput i := by
  have haccounted := hv.accounted heager
  have hbounded := hv.bounded
  unfold countLinesTo
  rw [if_neg (by rw [heager]; decide)]
  by_cases hzero : v.currentPositionIndex = 0
  · rw [if_pos hzero]
    exact ⟨recompute_line v i, recompute_column v i⟩
  rw [if_neg hzero]
  by_cases hback : i < v.currentPositionIndex
  · rw [if_pos hback]
    exact ⟨retreat_line haccounted hi hback hbounded, retreat_column haccounted hi hback hbounded⟩
  · rw [if_neg hback]
    exact ⟨advance_line haccounted (by omega), advance_column haccounted (by omega)⟩

/-- The call has no effect: it names no position of an empty input. -/
theorem notePosition_idle {i : Nat} (h : v.positionInput.isEmpty = true ∧ i = 0) :
    v.notePosition i = v := by
  unfold notePosition
  rw [if_pos h]

theorem notePosition_lazy (v : View) (i : Nat) :
    (v.notePosition i).lazyPositionAccounting = v.lazyPositionAccounting := by
  by_cases hidle : v.positionInput.isEmpty = true ∧ i = 0
  · rw [notePosition_idle hidle]
  · unfold notePosition
    rw [if_neg hidle]
    exact countLinesTo_lazy v _

theorem isKept_of_isAccounted (hv : v.IsAccounted)
    (hbounded : v.currentPositionIndex ≤ v.positionInput.length + 1) : v.IsKept := by
  refine ⟨fun _ ↦ hv, ?_, hbounded⟩
  intro hzero
  have hline := hv.line
  have hcolumn := hv.column
  rw [hzero] at hline hcolumn
  exact ⟨hline, hcolumn⟩

theorem isKept_notePosition (hv : v.IsKept) (i : Nat) : (v.notePosition i).IsKept := by
  by_cases hidle : v.positionInput.isEmpty = true ∧ i = 0
  · rw [notePosition_idle hidle]
    exact hv
  unfold notePosition
  rw [if_neg hidle]
  have hpos := reportedIndex_pos v i
  have hle := reportedIndex_le v i
  refine ⟨?_, ?_, ?_⟩
  · intro heager
    have hbefore : v.lazyPositionAccounting = false := by
      rw [← countLinesTo_lazy v (v.reportedIndex i)]
      exact heager
    have hcounts := countLinesTo_counts hv hbefore hpos
    constructor
    · show (v.countLinesTo _).currentLineNumber =
        lineNumberAt (v.countLinesTo _).positionInput (v.reportedIndex i)
      rw [countLinesTo_input]
      exact hcounts.1
    · show (v.countLinesTo _).currentColumnNumber =
        columnNumberAt (v.countLinesTo _).positionInput (v.reportedIndex i)
      rw [countLinesTo_input]
      exact hcounts.2
  · intro hzero
    have hzero' : v.reportedIndex i = 0 := hzero
    omega
  · show v.reportedIndex i ≤ (v.countLinesTo _).positionInput.length + 1
    rw [countLinesTo_input]
    exact hle

theorem isKept_forceCurrentPosition (hv : v.IsKept) : v.forceCurrentPosition.IsKept := by
  unfold forceCurrentPosition
  split
  · rename_i hforced
    have hindex := boundedPositionIndex_of_le hforced.2 hv.bounded
    rw [hindex]
    refine ⟨fun _ ↦ ⟨recompute_line v _, recompute_column v _⟩, ?_, hv.bounded⟩
    intro hzero
    have hzero' : v.currentPositionIndex = 0 := hzero
    omega
  · exact hv

theorem isKept_moveTo (hv : v.IsKept) (call : PositionCall) : (v.moveTo call).IsKept := by
  cases call with
  | note i => exact isKept_notePosition hv i.toNat
  | noteToken i byteCount =>
    have hnoted := isKept_notePosition hv i.toNat
    exact ⟨fun heager ↦ ⟨(hnoted.accounted heager).line, (hnoted.accounted heager).column⟩,
      hnoted.unmoved, hnoted.bounded⟩
  | force => exact isKept_forceCurrentPosition hv

theorem isKept_moves (hv : v.IsKept) (calls : List PositionCall) : (v.moves calls).IsKept := by
  induction calls generalizing v with
  | nil => exact hv
  | cons call calls ih => exact ih (isKept_moveTo hv call)

end

/-! ## Deferring -/

/-- The view, with accounting deferred. -/
def deferred (v : View) : View := { v with lazyPositionAccounting := true }

/-- The view, with accounting at every call. -/
def eager (v : View) : View := { v with lazyPositionAccounting := false }

/-- The two views are at the same place, whatever they have counted. -/
structure SamePlace (v w : View) : Prop where
  input : v.positionInput = w.positionInput
  index : v.currentPositionIndex = w.currentPositionIndex
  references : v.entityReferencePositions = w.entityReferencePositions
  depth : v.internalEntityExpansionDepth = w.internalEntityExpansionDepth

section

variable {v w : View}

theorem countLinesTo_references (v : View) (i : Nat) :
    (v.countLinesTo i).entityReferencePositions = v.entityReferencePositions ∧
      (v.countLinesTo i).internalEntityExpansionDepth = v.internalEntityExpansionDepth := by
  unfold countLinesTo
  split
  · exact ⟨rfl, rfl⟩
  split
  · exact ⟨rfl, rfl⟩
  split
  · unfold retreatPositionTo
    dsimp only
    split <;> exact ⟨rfl, rfl⟩
  · exact ⟨rfl, rfl⟩

theorem samePlace_notePosition (h : v.SamePlace w) (i : Nat) :
    (v.notePosition i).SamePlace (w.notePosition i) := by
  have hreported : v.reportedIndex i = w.reportedIndex i := by
    unfold reportedIndex boundedPositionIndex
    rw [h.input, h.references, h.depth]
  by_cases hidle : v.positionInput.isEmpty = true ∧ i = 0
  · rw [notePosition_idle hidle, notePosition_idle (h.input ▸ hidle)]
    exact h
  · unfold notePosition
    rw [if_neg hidle, if_neg (h.input ▸ hidle)]
    refine ⟨?_, hreported, ?_, ?_⟩
    · show (v.countLinesTo _).positionInput = (w.countLinesTo _).positionInput
      rw [countLinesTo_input, countLinesTo_input]
      exact h.input
    · show (v.countLinesTo _).entityReferencePositions = (w.countLinesTo _).entityReferencePositions
      rw [(countLinesTo_references v _).1, (countLinesTo_references w _).1]
      exact h.references
    · show (v.countLinesTo _).internalEntityExpansionDepth =
        (w.countLinesTo _).internalEntityExpansionDepth
      rw [(countLinesTo_references v _).2, (countLinesTo_references w _).2]
      exact h.depth

/-- Forcing stays at the place. -/
theorem samePlace_forceCurrentPosition (hv : v.IsKept) : v.forceCurrentPosition.SamePlace v := by
  unfold forceCurrentPosition
  split
  · rename_i hforced
    exact ⟨rfl, boundedPositionIndex_of_le hforced.2 hv.bounded, rfl, rfl⟩
  · exact ⟨rfl, rfl, rfl, rfl⟩

theorem SamePlace.symm (h : v.SamePlace w) : w.SamePlace v :=
  ⟨h.input.symm, h.index.symm, h.references.symm, h.depth.symm⟩

theorem SamePlace.trans {u : View} (h : v.SamePlace w) (h' : w.SamePlace u) : v.SamePlace u :=
  ⟨h.input.trans h'.input, h.index.trans h'.index, h.references.trans h'.references,
    h.depth.trans h'.depth⟩

theorem samePlace_moveTo (hv : v.IsKept) (hw : w.IsKept) (h : v.SamePlace w) (call : PositionCall) :
    (v.moveTo call).SamePlace (w.moveTo call) := by
  cases call with
  | note i => exact samePlace_notePosition h i.toNat
  | noteToken i byteCount =>
    have hnoted := samePlace_notePosition h i.toNat
    exact ⟨hnoted.input, hnoted.index, hnoted.references, hnoted.depth⟩
  | force =>
    have hforced := samePlace_forceCurrentPosition hw
    exact ((samePlace_forceCurrentPosition hv).trans h).trans hforced.symm

theorem samePlace_moves (hv : v.IsKept) (hw : w.IsKept) (h : v.SamePlace w)
    (calls : List PositionCall) : (v.moves calls).SamePlace (w.moves calls) := by
  induction calls generalizing v w with
  | nil => exact h
  | cons call calls ih =>
    exact ih (isKept_moveTo hv call) (isKept_moveTo hw call) (samePlace_moveTo hv hw h call)

/-- Eager accounting stays eager. -/
theorem moves_eager (hv : v.lazyPositionAccounting = false) (calls : List PositionCall) :
    (v.moves calls).lazyPositionAccounting = false := by
  induction calls generalizing v with
  | nil => exact hv
  | cons call calls ih =>
    apply ih
    cases call with
    | note i => exact (notePosition_lazy v i.toNat).trans hv
    | noteToken i byteCount => exact (notePosition_lazy v i.toNat).trans hv
    | force =>
      show v.forceCurrentPosition.lazyPositionAccounting = false
      unfold forceCurrentPosition
      split
      · rfl
      · exact hv

/-- After forcing, line and column are those of the position. -/
theorem isAccounted_force (hv : v.IsKept) : v.forceCurrentPosition.IsAccounted := by
  have hforced := isKept_forceCurrentPosition hv
  by_cases hlazy : v.forceCurrentPosition.lazyPositionAccounting = false
  · exact hforced.accounted hlazy
  · -- Nothing was noted yet, so there is nothing to force.
    have hzero : v.forceCurrentPosition.currentPositionIndex = 0 := by
      unfold forceCurrentPosition at hlazy ⊢
      split
      · rename_i h
        rw [if_pos h] at hlazy
        exact absurd rfl hlazy
      · rename_i h
        rw [if_neg h, Bool.not_eq_false] at hlazy
        have hnot : ¬0 < v.currentPositionIndex := fun hpos ↦ h ⟨hlazy, hpos⟩
        omega
    have hstart := hforced.unmoved hzero
    constructor
    · rw [hzero, hstart.1]
      rfl
    · rw [hzero, hstart.2]
      rfl

end

end View

open View

/-- Whatever positions are noted, of tokens or not, in whatever order and wherever they are, and
whenever the position is forced: while accounting is eager, line and column are those that counting
from the start gives; and deferring them and forcing them in the end gives what eager accounting
gives. -/
theorem position_accounting (v : View) (hv : v.IsAccounted)
    (hbounded : v.currentPositionIndex ≤ v.positionInput.length + 1) (calls : List PositionCall) :
    ((v.moves calls).lazyPositionAccounting = false → (v.moves calls).IsAccounted) ∧
    (v.deferred.moves calls).forceCurrentPosition.currentLineNumber =
      (v.eager.moves calls).currentLineNumber ∧
    (v.deferred.moves calls).forceCurrentPosition.currentColumnNumber =
      (v.eager.moves calls).currentColumnNumber := by
  have hkept : v.IsKept := isKept_of_isAccounted hv hbounded
  have hdeferred : v.deferred.IsKept := isKept_of_isAccounted ⟨hv.line, hv.column⟩ hbounded
  have heager : v.eager.IsKept := isKept_of_isAccounted ⟨hv.line, hv.column⟩ hbounded
  have hsame : v.deferred.SamePlace v.eager := ⟨rfl, rfl, rfl, rfl⟩
  have hplace : (v.deferred.moves calls).forceCurrentPosition.SamePlace (v.eager.moves calls) :=
    (samePlace_forceCurrentPosition (isKept_moves hdeferred calls)).trans
      (samePlace_moves hdeferred heager hsame calls)
  have hforced := isAccounted_force (isKept_moves hdeferred calls)
  have hcounted := (isKept_moves heager calls).accounted (moves_eager rfl calls)
  refine ⟨(isKept_moves hkept calls).accounted, ?_, ?_⟩
  · rw [hforced.line, hcounted.line, hplace.input, hplace.index]
  · rw [hforced.column, hcounted.column, hplace.input, hplace.index]

/-- A walk over three lines, forth and back. -/
theorem position_accounting_lines :
    let v : View := { positionInput := str "ab\ncd\nef" }
    let calls : List PositionCall := [.note 8, .note 5, .noteToken 2 1, .note 100, .note (-3), .note 6]
    (v.moves calls).currentLineNumber = 2 ∧ (v.moves calls).currentColumnNumber = 2 ∧
      (v.moves calls).IsAccounted := by
  have hcounts := position_accounting { positionInput := str "ab\ncd\nef" } ⟨rfl, rfl⟩
    (Nat.zero_le _) [.note 8, .note 5, .noteToken 2 1, .note 100, .note (-3), .note 6]
  exact ⟨by decide, by decide, hcounts.1 (by decide)⟩

end Xpact
