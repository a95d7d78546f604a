import Xpact.Library.BreadthFirst
import Xpact.Parser.Event

/-!
# Content models for the application

An application receives a content model as one allocation: an array of nodes in breadth-first order,
each with the index of its first child, and behind the array the names, each with a terminator.
-/

namespace Xpact

open Library.BreadthFirst

/-! ## Nodes -/

/-- The `Type_…` constants of `XP_CONTENT_MODEL`. -/
def ContentType.code : ContentType → Nat
  | .empty => 1
  | .any => 2
  | .mixed => 3
  | .name => 4
  | .choice => 5
  | .sequence => 6

/-- The `Quant_…` constants. -/
def Quantifier.code : Quantifier → Nat
  | .none => 0
  | .optional => 1
  | .repetition => 2
  | .plus => 3

namespace ContentModel

def contentType : ContentModel → ContentType
  | .node t _ _ _ => t

def quantifier : ContentModel → Quantifier
  | .node _ q _ _ => q

def name : ContentModel → Option String8
  | .node _ _ name _ => name

mutual

/-- The number of nodes, counted along the tree. -/
def size : ContentModel → Nat
  | .node _ _ _ children => 1 + sizes children

def sizes : List ContentModel → Nat
  | [] => 0
  | model :: models => model.size + sizes models

end

/-- The loop of `node_count`; `n` bounds the nodes still to be visited. -/
def nodeCountFrom : Nat → Nat → List ContentModel → Nat
  | 0, _, nodes => nodes.length
  | n + 1, i, nodes =>
    if i < nodes.length then nodeCountFrom n (i + 1) (nodes ++ childrenAt children nodes i)
    else nodes.length

def nodeCount (model : ContentModel) : Nat := nodeCountFrom model.size 0 [model]

/-- `append_content_model_nodes` on an empty list. -/
def nodes (root : ContentModel) : List ContentModel := visit children root.nodeCount 0 [root]

end ContentModel

namespace Native

/-! ## The allocation -/

/-- One node of the array: the name is an offset in the allocation, and the children are given by the
index of the first one, or -1. -/
structure ContentCell where
  contentType : Nat
  quantifier : Nat
  name : Option Nat
  childCount : Nat
  firstChild : Int
  deriving DecidableEq

/-- The allocation, as nodes and as bytes. -/
structure ContentMemory where
  cells : Nat → ContentCell
  bytes : Nat → Character8

namespace ContentMemory

/-- `copy_content_model_name`: the text and its terminator. -/
def copyName (m : ContentMemory) (offset : Nat) (text : String8) : ContentMemory :=
  { m with
    bytes := fun k ↦
      if offset ≤ k ∧ k < offset + text.length then text.getD (k - offset) 0
      else if k = offset + text.length then 0
      else m.bytes k }

/-- `put_content_model_node`. -/
def putNode (m : ContentMemory) (index : Nat) (cell : ContentCell) : ContentMemory :=
  { m with cells := fun k ↦ if k = index then cell else m.cells k }

end ContentMemory

/-- The variables of the loop that fills the array. -/
structure ContentFill where
  memory : ContentMemory
  index : Nat
  nameIndex : Nat
  nameOffset : Nat
  nextChild : Nat

def contentFillStep (nameStrings : List String8) (s : ContentFill) (node : ContentModel) :
    ContentFill :=
  let named : ContentMemory × Option Nat × Nat × Nat :=
    match node.name with
    | some name =>
      (s.memory.copyName s.nameOffset ((nameStrings.getD s.nameIndex []).take name.length),
        some s.nameOffset, s.nameOffset + name.length + 1, s.nameIndex + 1)
    | none => (s.memory, none, s.nameOffset, s.nameIndex)
  { memory := named.1.putNode s.index
      { contentType := node.contentType.code
        quantifier := node.quantifier.code
        name := named.2.1
        childCount := node.children.length
        firstChild := if node.children.isEmpty then -1 else s.nextChild }
    index := s.index + 1
    nameIndex := named.2.2.2
    nameOffset := named.2.2.1
    nextChild := s.nextChild + node.children.length }

/-- What the name of a node takes in the allocation. -/
def nameSpace (node : ContentModel) : Nat :=
  match node.name with
  | some name => name.length + 1
  | none => 0

/-- The array that an application receives. -/
structure ContentArray where
  count : Nat
  totalSize : Nat
  memory : ContentMemory

/-- `content_model_array`: `malloc` is the allocator of the application, and `structSize` the size of
a node under the C ABI. -/
def contentModelArray (malloc : Nat → Option ContentMemory) (structSize : Nat)
    (model : ContentModel) : Option ContentArray :=
  let nodes := model.nodes
  let nameStrings := nodes.filterMap ContentModel.name
  let totalSize := nodes.length * structSize + (nodes.map nameSpace).sum
  if totalSize ≤ 2147483647 then
    (malloc totalSize).map fun memory ↦
      { count := nodes.length
        totalSize
        memory := (nodes.foldl (contentFillStep nameStrings)
          { memory, index := 0, nameIndex := 0, nameOffset := nodes.length * structSize
            nextChild := 1 }).memory }
  else
    none

/-! ## Reading the array -/

def contentTypeOfCode : Nat → ContentType
  | 1 => .empty
  | 2 => .any
  | 3 => .mixed
  | 4 => .name
  | 5 => .choice
  | _ => .sequence

def quantifierOfCode : Nat → Quantifier
  | 1 => .optional
  | 2 => .repetition
  | 3 => .plus
  | _ => .none

/-- The C string at `offset`; `n` bounds its length. -/
def cStringAt (bytes : Nat → Character8) : Nat → Nat → String8
  | 0, _ => []
  | n + 1, offset =>
    if bytes offset = 0 then [] else bytes offset :: cStringAt bytes n (offset + 1)

namespace ContentArray

/-- The tree below the node at `i`, down to the depth `n`. -/
def decodeFrom (a : ContentArray) : Nat → Nat → ContentModel
  | 0, _ => .node .empty .none none []
  | n + 1, i =>
    let cell := a.memory.cells i
    .node (contentTypeOfCode cell.contentType) (quantifierOfCode cell.quantifier)
      (cell.name.map (cStringAt a.memory.bytes a.totalSize))
      ((List.range cell.childCount).map fun k ↦ decodeFrom a n (cell.firstChild.toNat + k))

def decode (a : ContentArray) : ContentModel := a.decodeFrom a.count 0

end ContentArray

end Native

namespace ContentModel

/-- What a C string keeps of a name: the characters before the first NUL. -/
def cName (name : String8) : String8 := name.takeWhile (· != 0)

mutual

/-- The tree with its names as C strings. -/
def cNames : ContentModel → ContentModel
  | .node t q name children => .node t q (name.map cName) (cNamesAll children)

def cNamesAll : List ContentModel → List ContentModel
  | [] => []
  | model :: models => model.cNames :: cNamesAll models

end

mutual

/-- No name holds a NUL. -/
def HasCNames : ContentModel → Prop
  | .node _ _ name children => (∀ n ∈ name, 0 ∉ n) ∧ HaveCNames children

def HaveCNames : List ContentModel → Prop
  | [] => True
  | model :: models => model.HasCNames ∧ HaveCNames models

end

theorem cName_cons {c : Character8} {name : String8} (h : c ≠ 0) :
    cName (c :: name) = c :: cName name := by
  simp [cName, h]

theorem cName_eq {name : String8} (h : 0 ∉ name) : cName name = name := by
  induction name with
  | nil => rfl
  | cons c name ih =>
    rw [List.mem_cons, not_or] at h
    rw [cName_cons (Ne.symm h.1), ih h.2]

mutual

theorem cNames_eq : ∀ {model : ContentModel}, model.HasCNames → model.cNames = model
  | .node t q name children, h => by
    have hname : name.map cName = name := by
      cases name with
      | none => rfl
      | some n =>
        have hn := h.1 n rfl
        show some (cName n) = some n
        rw [cName_eq hn]
    rw [cNames, hname, cNamesAll_eq h.2]

theorem cNamesAll_eq : ∀ {models : List ContentModel}, HaveCNames models → cNamesAll models = models
  | [], _ => rfl
  | model :: models, h => by rw [cNamesAll, cNames_eq h.1, cNamesAll_eq h.2]

end

theorem cNamesAll_eq_map (models : List ContentModel) : cNamesAll models = models.map cNames := by
  induction models with
  | nil => rfl
  | cons model models ih => rw [cNamesAll, ih, List.map_cons]

theorem sizes_eq (models : List ContentModel) : sizes models = (models.map size).sum := by
  induction models with
  | nil => rfl
  | cons model models ih => rw [sizes, ih, List.map_cons, List.sum_cons]

theorem size_eq (model : ContentModel) : model.size = 1 + (model.children.map size).sum := by
  cases model with
  | node t q name children => rw [size, sizes_eq, ContentModel.children]

/-! ## The list of nodes -/

theorem nodeCountFrom_eq (root : ContentModel) {n i : Nat} (h : i + n = root.size) :
    nodeCountFrom n i (visited children root i) = root.size := by
  induction n generalizing i with
  | zero =>
    rw [nodeCountFrom, show i = root.size by omega]
    exact length_visited size_eq root
  | succ n ih =>
    have hlt := lt_length_visited size_eq root (i := i) (by omega)
    rw [nodeCountFrom, if_pos hlt, ← visited_succ]
    exact ih (by omega)

theorem nodeCount_eq (root : ContentModel) : root.nodeCount = root.size :=
  nodeCountFrom_eq root (Nat.zero_add _)

theorem nodes_eq (root : ContentModel) : root.nodes = visited children root root.size := by
  unfold nodes visited
  rw [nodeCount_eq]

theorem length_nodes (root : ContentModel) : root.nodes.length = root.size := by
  rw [nodes_eq]
  exact length_visited size_eq root

/-- Where the children of the node at `i` begin. -/
def firstChild (root : ContentModel) (i : Nat) : Nat :=
  blockStart (root.nodes.map fun node ↦ node.children.length) i

theorem lt_firstChild {root : ContentModel} {i : Nat} (h : i < root.size) :
    i < root.firstChild i := by
  unfold firstChild
  rw [nodes_eq]
  exact lt_blockStart size_eq h

theorem firstChild_size (root : ContentModel) : root.firstChild root.size = root.size := by
  unfold firstChild
  rw [nodes_eq]
  exact blockStart_size size_eq

theorem firstChild_succ {root : ContentModel} {i : Nat} {node : ContentModel}
    (h : root.nodes[i]? = some node) :
    root.firstChild (i + 1) = root.firstChild i + node.children.length := by
  unfold firstChild
  apply blockStart_succ
  rw [List.getElem?_map, h]
  rfl

theorem firstChild_mono (root : ContentModel) : Monotone root.firstChild := blockStart_mono _

theorem getElem?_child {root : ContentModel} {i k : Nat} {node : ContentModel}
    (h : root.nodes[i]? = some node) (hk : k < node.children.length) :
    root.nodes[root.firstChild i + k]? = node.children[k]? := by
  unfold firstChild
  rw [nodes_eq] at h ⊢
  exact getElem?_block size_eq h hk

end ContentModel

namespace Native

open ContentModel

/-! ## Filling the array -/

/-- The name of the node is in the memory at `offset`, with its terminator. -/
def HoldsName (bytes : Nat → Character8) (offset : Nat) (name : String8) : Prop :=
  (∀ k < name.length, bytes (offset + k) = name.getD k 0) ∧ bytes (offset + name.length) = 0

namespace ContentMemory

theorem holdsName_copyName (m : ContentMemory) (offset : Nat) (text : String8) :
    HoldsName (m.copyName offset text).bytes offset text := by
  constructor
  · intro k hk
    show (if offset ≤ offset + k ∧ offset + k < offset + text.length then _ else _) = _
    rw [if_pos (by omega), Nat.add_sub_cancel_left]
  · show (if offset ≤ offset + text.length ∧ offset + text.length < offset + text.length then _
      else _) = _
    rw [if_neg (by omega), if_pos rfl]

/-- A name is left alone by the names behind it. -/
theorem copyName_before {m : ContentMemory} {offset k : Nat} {text : String8} (h : k < offset) :
    (m.copyName offset text).bytes k = m.bytes k := by
  show (if offset ≤ k ∧ k < offset + text.length then _ else _) = _
  rw [if_neg (by omega), if_neg (by omega)]

end ContentMemory

section Fill

variable (nodes : List ContentModel) (structSize : Nat)

/-- Where the name of the node at `i` stands, if it has one. -/
def nameStart (i : Nat) : Nat := nodes.length * structSize + ((nodes.take i).map nameSpace).sum

/-- What the array holds for the node at `i`. -/
def cellOf (i : Nat) (node : ContentModel) : ContentCell where
  contentType := node.contentType.code
  quantifier := node.quantifier.code
  name := node.name.map fun _ ↦ nameStart nodes structSize i
  childCount := node.children.length
  firstChild :=
    if node.children.isEmpty then -1
    else blockStart (nodes.map fun node ↦ node.children.length) i

/-- The first `i` nodes have been written. -/
structure IsFilled (i : Nat) (s : ContentFill) : Prop where
  index : s.index = i
  nameIndex : s.nameIndex = ((nodes.take i).filterMap ContentModel.name).length
  nameOffset : s.nameOffset = nameStart nodes structSize i
  nextChild : s.nextChild = blockStart (nodes.map fun node ↦ node.children.length) i
  cells : ∀ k node, k < i → nodes[k]? = some node →
    s.memory.cells k = cellOf nodes structSize k node
  names : ∀ k node, k < i → nodes[k]? = some node → ∀ name ∈ node.name,
    HoldsName s.memory.bytes (nameStart nodes structSize k) name

variable {nodes structSize} {i : Nat} {node : ContentModel}

variable (structSize) in
theorem nameStart_succ (h : nodes[i]? = some node) :
    nameStart nodes structSize (i + 1) = nameStart nodes structSize i + nameSpace node := by
  unfold nameStart
  obtain ⟨hi, rfl⟩ := List.getElem?_eq_some_iff.1 h
  rw [List.take_succ_eq_append_getElem hi, List.map_append, List.sum_append]
  simp
  omega

variable (nodes structSize) in
theorem nameStart_mono {k : Nat} (h : k ≤ i) :
    nameStart nodes structSize k ≤ nameStart nodes structSize i := by
  unfold nameStart
  have hsplit : nodes.take i = nodes.take k ++ (nodes.take i).drop k := by
    conv_lhs => rw [← List.take_append_drop k (nodes.take i), List.take_take, Nat.min_eq_left h]
  rw [hsplit, List.map_append, List.sum_append]
  omega

/-- The names are listed in the order of the nodes. -/
theorem nameStrings_getD {name : String8} (h : nodes[i]? = some node) (hname : node.name = some name) :
    (nodes.filterMap ContentModel.name).getD
      ((nodes.take i).filterMap ContentModel.name).length [] = name := by
  obtain ⟨hi, rfl⟩ := List.getElem?_eq_some_iff.1 h
  have hsplit : nodes = nodes.take i ++ nodes[i] :: nodes.drop (i + 1) := by
    rw [← List.drop_eq_getElem_cons hi, List.take_append_drop]
  have hnames : nodes.filterMap ContentModel.name =
      (nodes.take i).filterMap ContentModel.name ++
        name :: (nodes.drop (i + 1)).filterMap ContentModel.name := by
    conv_lhs => rw [hsplit]
    rw [List.filterMap_append, List.filterMap_cons_some hname]
  rw [hnames]
  simp

theorem filterMap_take_succ (h : nodes[i]? = some node) :
    ((nodes.take (i + 1)).filterMap ContentModel.name).length =
      ((nodes.take i).filterMap ContentModel.name).length + node.name.toList.length := by
  obtain ⟨hi, rfl⟩ := List.getElem?_eq_some_iff.1 h
  rw [List.take_succ_eq_append_getElem hi, List.filterMap_append, List.length_append]
  cases hname : nodes[i].name <;> simp [hname]

/-- Writing one node keeps what is written of those before it. -/
theorem isFilled_step {s : ContentFill} (hs : IsFilled nodes structSize i s)
    (h : nodes[i]? = some node) :
    IsFilled nodes structSize (i + 1)
      (contentFillStep (nodes.filterMap ContentModel.name) s node) := by
  have hspace := nameStart_succ structSize h
  have hnameIndex := filterMap_take_succ h
  have hchildren : (nodes.map fun node ↦ node.children.length)[i]? = some node.children.length := by
    rw [List.getElem?_map, h]
    rfl
  have hblock := blockStart_succ hchildren
  have hcurrent {k : Nat} {other : ContentModel} (hk : ¬k < i) (hk' : k < i + 1)
      (hother : nodes[k]? = some other) : k = i ∧ other = node := by
    have hki : k = i := by omega
    subst hki
    exact ⟨rfl, Option.some.inj (hother.symm.trans h)⟩
  cases hname : node.name with
  | none =>
    have hzero : nameSpace node = 0 := by
      unfold nameSpace
      rw [hname]
    rw [hname] at hnameIndex
    unfold contentFillStep
    rw [hname]
    refine ⟨?_, ?_, ?_, ?_, ?_, ?_⟩
    · show s.index + 1 = i + 1
      rw [hs.index]
    · show s.nameIndex = _
      rw [hs.nameIndex, hnameIndex]
      rfl
    · show s.nameOffset = _
      rw [hs.nameOffset, hspace, hzero]
      rfl
    · show s.nextChild + node.children.length = _
      rw [hs.nextChild, hblock]
    · intro k other hk hother
      show (if k = s.index then _ else s.memory.cells k) = _
      rw [hs.index]
      by_cases hlast : k < i
      · rw [if_neg (by omega)]
        exact hs.cells k other hlast hother
      · obtain ⟨rfl, rfl⟩ := hcurrent hlast hk hother
        rw [if_pos rfl, cellOf, hname, hs.nextChild]
        rfl
    · intro k other hk hother name hmem
      by_cases hlast : k < i
      · exact hs.names k other hlast hother name hmem
      · obtain ⟨rfl, rfl⟩ := hcurrent hlast hk hother
        rw [hname] at hmem
        cases hmem
  | some text =>
    have hlength : nameSpace node = text.length + 1 := by
      unfold nameSpace
      rw [hname]
    rw [hname] at hnameIndex
    have hcopied : ((nodes.filterMap ContentModel.name).getD s.nameIndex []).take text.length =
        text := by
      rw [hs.nameIndex, nameStrings_getD h hname, List.take_length]
    unfold contentFillStep
    rw [hname]
    dsimp only
    rw [hcopied]
    refine ⟨?_, ?_, ?_, ?_, ?_, ?_⟩
    · show s.index + 1 = i + 1
      rw [hs.index]
    · show s.nameIndex + 1 = _
      rw [hs.nameIndex, hnameIndex]
      rfl
    · show s.nameOffset + text.length + 1 = _
      rw [hs.nameOffset, hspace, hlength]
      omega
    · show s.nextChild + node.children.length = _
      rw [hs.nextChild, hblock]
    · intro k other hk hother
      show (if k = s.index then _ else s.memory.cells k) = _
      rw [hs.index]
      by_cases hlast : k < i
      · rw [if_neg (by omega)]
        exact hs.cells k other hlast hother
      · obtain ⟨rfl, rfl⟩ := hcurrent hlast hk hother
        rw [if_pos rfl, cellOf, hname, hs.nextChild, hs.nameOffset]
        rfl
    · intro k other hk hother name hmem
      show HoldsName (s.memory.copyName s.nameOffset text).bytes _ name
      rw [hs.nameOffset]
      by_cases hlast : k < i
      · -- The name ends before the one that is written now.
        have hheld := hs.names k other hlast hother name hmem
        have hother' : nameSpace other = name.length + 1 := by
          unfold nameSpace
          rw [hmem]
        have hend := nameStart_succ structSize hother
        have hbefore := nameStart_mono nodes structSize
          (show k + 1 ≤ i from hlast)
        constructor
        · intro l hl
          rw [ContentMemory.copyName_before (by omega)]
          exact hheld.1 l hl
        · rw [ContentMemory.copyName_before (by omega)]
          exact hheld.2
      · obtain ⟨rfl, rfl⟩ := hcurrent hlast hk hother
        rw [hname] at hmem
        obtain rfl := Option.some.inj hmem
        exact ContentMemory.holdsName_copyName s.memory _ text

variable (nodes structSize) in
theorem isFilled_start (memory : ContentMemory) :
    IsFilled nodes structSize 0
      { memory, index := 0, nameIndex := 0, nameOffset := nodes.length * structSize
        nextChild := 1 } where
  index := rfl
  nameIndex := rfl
  nameOffset := rfl
  nextChild := rfl
  cells k _ hk := absurd hk (Nat.not_lt_zero k)
  names k _ hk := absurd hk (Nat.not_lt_zero k)

/-- All nodes have been written in the end. -/
theorem isFilled_foldl {s : ContentFill} (hs : IsFilled nodes structSize i s)
    (hi : i ≤ nodes.length) :
    IsFilled nodes structSize nodes.length
      ((nodes.drop i).foldl (contentFillStep (nodes.filterMap ContentModel.name)) s) := by
  generalize hrest : nodes.drop i = rest
  induction rest generalizing i s with
  | nil =>
    have hlength : i = nodes.length := by
      have hle := List.drop_eq_nil_iff.1 hrest
      omega
    rw [List.foldl_nil, ← hlength]
    exact hs
  | cons node rest ih =>
    have hlt : i < nodes.length := by
      by_contra hge
      rw [List.drop_eq_nil_of_le (by omega)] at hrest
      cases hrest
    rw [List.drop_eq_getElem_cons hlt] at hrest
    obtain ⟨hnode, hrest⟩ := List.cons.inj hrest
    have hget : nodes[i]? = some node := by
      rw [List.getElem?_eq_getElem hlt, hnode]
    exact ih (isFilled_step hs hget) hlt hrest

end Fill

/-! ## Reading it back -/

theorem contentTypeOfCode_code (t : ContentType) : contentTypeOfCode t.code = t := by
  cases t <;> rfl

theorem quantifierOfCode_code (q : Quantifier) : quantifierOfCode q.code = q := by
  cases q <;> rfl

/-- What stands in the memory is read up to the first NUL. -/
theorem cStringAt_of_holdsName {bytes : Nat → Character8} {name : String8} {offset n : Nat}
    (h : HoldsName bytes offset name) (hn : name.length < n) :
    cStringAt bytes n offset = cName name := by
  induction name generalizing offset n with
  | nil =>
    obtain ⟨n, rfl⟩ := Nat.exists_eq_succ_of_ne_zero (Nat.ne_of_gt hn)
    have hend : bytes offset = 0 := h.2
    rw [cStringAt, if_pos hend]
    rfl
  | cons c name ih =>
    obtain ⟨n, rfl⟩ := Nat.exists_eq_succ_of_ne_zero (Nat.ne_of_gt (Nat.zero_lt_of_lt hn))
    have hfirst : bytes offset = c := h.1 0 (by simp)
    rw [cStringAt, hfirst]
    by_cases hc : c = 0
    · rw [if_pos hc, hc]
      rfl
    · have hrest : HoldsName bytes (offset + 1) name := by
        constructor
        · intro k hk
          have hk' := h.1 (k + 1) (by simpa using hk)
          rw [show offset + (k + 1) = offset + 1 + k by omega] at hk'
          simpa using hk'
        · have hend := h.2
          rw [List.length_cons, show offset + (name.length + 1) = offset + 1 + name.length by omega]
            at hend
          exact hend
      have hlength : name.length < n := by
        rw [List.length_cons] at hn
        omega
      rw [if_neg hc, ih hrest hlength, cName_cons hc]

/-- The array holds the tree. -/
structure Holds (a : ContentArray) (structSize : Nat) (model : ContentModel) : Prop where
  count : a.count = model.size
  totalSize : a.totalSize = nameStart model.nodes structSize model.nodes.length
  cells : ∀ i node, model.nodes[i]? = some node →
    a.memory.cells i = cellOf model.nodes structSize i node
  names : ∀ i node, model.nodes[i]? = some node → ∀ name ∈ node.name,
    HoldsName a.memory.bytes (nameStart model.nodes structSize i) name

section

variable {malloc : Nat → Option ContentMemory} {structSize : Nat} {model : ContentModel}
  {a : ContentArray}

theorem holds_contentModelArray (h : contentModelArray malloc structSize model = some a) :
    Holds a structSize model := by
  unfold contentModelArray at h
  dsimp only at h
  split at h
  · obtain ⟨memory, -, rfl⟩ := Option.map_eq_some_iff.1 h
    have hfilled := isFilled_foldl
      (isFilled_start model.nodes structSize memory) (Nat.zero_le _)
    rw [List.drop_zero] at hfilled
    refine ⟨length_nodes model, ?_, ?_, ?_⟩
    · show _ = _ + _
      rw [List.take_length]
    · intro i node hnode
      exact hfilled.cells i node (List.getElem?_eq_some_iff.1 hnode).1 hnode
    · intro i node hnode
      exact hfilled.names i node (List.getElem?_eq_some_iff.1 hnode).1 hnode
  · cases h

variable (structSize) in
/-- A name and its terminator lie between the nodes and the end of the allocation. -/
theorem name_within {i : Nat} {node : ContentModel} {name : String8}
    (hnode : model.nodes[i]? = some node) (hname : node.name = some name) :
    model.size * structSize ≤ nameStart model.nodes structSize i ∧
      nameStart model.nodes structSize i + name.length + 1 ≤
        nameStart model.nodes structSize model.nodes.length := by
  have hi := (List.getElem?_eq_some_iff.1 hnode).1
  have hend := nameStart_succ structSize hnode
  have hle := nameStart_mono model.nodes structSize
    (show i + 1 ≤ model.nodes.length from hi)
  have hspace : nameSpace node = name.length + 1 := by
    unfold nameSpace
    rw [hname]
  have hfirst := nameStart_mono model.nodes structSize (Nat.zero_le i)
  have hzero : nameStart model.nodes structSize 0 = model.size * structSize := by
    unfold nameStart
    rw [length_nodes]
    simp
  omega

/-- Below a node the array decodes to the tree of the node. -/
theorem decodeFrom_eq (h : Holds a structSize model) {n i : Nat} {node : ContentModel}
    (hnode : model.nodes[i]? = some node) (hn : model.size ≤ i + n) :
    a.decodeFrom n i = node.cNames := by
  induction n generalizing i node with
  | zero =>
    have hi := (List.getElem?_eq_some_iff.1 hnode).1
    rw [length_nodes] at hi
    omega
  | succ n ih =>
    have hi := (List.getElem?_eq_some_iff.1 hnode).1
    rw [length_nodes] at hi
    rw [ContentArray.decodeFrom, h.cells i node hnode]
    obtain ⟨t, q, name, children⟩ := node
    rw [ContentModel.cNames]
    congr 1
    · exact contentTypeOfCode_code t
    · exact quantifierOfCode_code q
    · cases name with
      | none => rfl
      | some text =>
        have hwithin := name_within structSize hnode rfl
        show some (cStringAt _ _ _) = some (cName text)
        rw [cStringAt_of_holdsName (h.names i _ hnode text rfl)]
        rw [h.totalSize]
        omega
    · rw [cNamesAll_eq_map]
      apply List.ext_getElem?
      intro k
      rw [List.getElem?_map, List.getElem?_map]
      show Option.map _ (List.range children.length)[k]? = _
      by_cases hk : k < children.length
      · have hchild := getElem?_child hnode (k := k) hk
        have hbehind := lt_firstChild hi
        have hne : children.isEmpty = false := by
          cases children with
          | nil => simp at hk
          | cons child rest => rfl
        rw [List.getElem?_range hk, Option.map_some]
        show some (a.decodeFrom n ((if children.isEmpty then (-1 : Int)
          else model.firstChild i).toNat + k)) = _
        rw [hne, if_neg (by decide), Int.toNat_natCast]
        rw [show ContentModel.children _ = children from rfl] at hchild
        rw [List.getElem?_eq_getElem hk] at hchild ⊢
        rw [ih hchild (by omega)]
        rfl
      · rw [List.getElem?_eq_none (by simpa using hk), List.getElem?_eq_none (by omega)]
        rfl

end

section

variable {structSize : Nat} {model : ContentModel} {a : ContentArray}

/-- A place is in the block of a node when it lies between the running counts before and after it. -/
theorem mem_block_iff (h : Holds a structSize model) {i : Nat} (hi : i < model.size) (j : Nat) :
    ((a.memory.cells i).firstChild ≤ (j : Int) ∧
        (j : Int) < (a.memory.cells i).firstChild + (a.memory.cells i).childCount) ↔
      model.firstChild i ≤ j ∧ j < model.firstChild (i + 1) := by
  rw [← length_nodes] at hi
  have hnode : model.nodes[i]? = some model.nodes[i] := List.getElem?_eq_getElem hi
  rw [firstChild_succ hnode, h.cells i _ hnode]
  have hfirst : (cellOf model.nodes structSize i model.nodes[i]).firstChild =
      if model.nodes[i].children.isEmpty then (-1 : Int) else ((model.firstChild i : Nat) : Int) :=
    rfl
  have hcount : (cellOf model.nodes structSize i model.nodes[i]).childCount =
      model.nodes[i].children.length := rfl
  rw [hfirst, hcount]
  cases hchildren : model.nodes[i].children with
  | nil =>
    rw [List.isEmpty_nil, if_pos rfl, List.length_nil]
    omega
  | cons child rest =>
    rw [List.isEmpty_cons, if_neg (by decide), List.length_cons]
    omega

/-- The block of a node lies behind it. -/
theorem block_within (h : Holds a structSize model) {i : Nat} (hi : i < a.count)
    (hpos : 0 < (a.memory.cells i).childCount) :
    (i : Int) < (a.memory.cells i).firstChild ∧
      (a.memory.cells i).firstChild + (a.memory.cells i).childCount ≤ a.count := by
  rw [h.count] at hi ⊢
  have hbehind := lt_firstChild hi
  have hend := firstChild_mono model (show i + 1 ≤ model.size from hi)
  rw [firstChild_size] at hend
  rw [← length_nodes] at hi
  have hnode : model.nodes[i]? = some model.nodes[i] := List.getElem?_eq_getElem hi
  rw [firstChild_succ hnode] at hend
  rw [h.cells i _ hnode] at hpos ⊢
  have hne : model.nodes[i].children.isEmpty = false := by
    cases hchildren : model.nodes[i].children with
    | nil =>
      have hzero : 0 < model.nodes[i].children.length := hpos
      rw [hchildren] at hzero
      exact absurd hzero (Nat.lt_irrefl 0)
    | cons child rest => rfl
  have hfirst : (cellOf model.nodes structSize i model.nodes[i]).firstChild =
      (model.firstChild i : Nat) := by
    show (if model.nodes[i].children.isEmpty then (-1 : Int) else _) = _
    rw [hne]
    rfl
  rw [hfirst]
  show (i : Int) < (model.firstChild i : Nat) ∧
    ((model.firstChild i : Nat) : Int) + (model.nodes[i].children.length : Nat) ≤ (model.size : Nat)
  omega

/-- The name of a node lies behind the nodes and ends inside the allocation. -/
theorem offset_within (h : Holds a structSize model) {i offset : Nat} (hi : i < a.count)
    (hoffset : (a.memory.cells i).name = some offset) :
    a.count * structSize ≤ offset ∧
      offset + (cStringAt a.memory.bytes a.totalSize offset).length + 1 ≤ a.totalSize := by
  rw [h.count, ← length_nodes] at hi
  have hnode : model.nodes[i]? = some model.nodes[i] := List.getElem?_eq_getElem hi
  rw [h.cells i _ hnode] at hoffset
  obtain ⟨name, hname, rfl⟩ := Option.map_eq_some_iff.1 hoffset
  have hwithin := name_within structSize hnode hname
  have hshort : (cName name).length ≤ name.length := (List.takeWhile_prefix _).length_le
  rw [h.count, h.totalSize,
    cStringAt_of_holdsName (h.names i _ hnode name hname) (by omega)]
  omega

end

/-- When the whole fits and is allocated, the array decodes to the tree, up to what a C string keeps
of a name.  The children of a node stand in a block behind it; every node but the root is in the block
of exactly one node; and children and names lie inside the allocation. -/
theorem contentModelArray_decodes (malloc : Nat → Option ContentMemory) (structSize : Nat)
    (model : ContentModel) :
    ((contentModelArray malloc structSize model).isSome ↔
      nameStart model.nodes structSize model.nodes.length ≤ 2147483647 ∧
        (malloc (nameStart model.nodes structSize model.nodes.length)).isSome) ∧
    ∀ a, contentModelArray malloc structSize model = some a →
      a.count = model.nodeCount ∧ a.decode = model.cNames ∧
      (model.HasCNames → a.decode = model) ∧
      (∀ i < a.count, 0 < (a.memory.cells i).childCount →
        (i : Int) < (a.memory.cells i).firstChild ∧
          (a.memory.cells i).firstChild + (a.memory.cells i).childCount ≤ a.count) ∧
      (∀ j, 1 ≤ j → j < a.count → ∃! i, i < a.count ∧ (a.memory.cells i).firstChild ≤ (j : Int) ∧
        (j : Int) < (a.memory.cells i).firstChild + (a.memory.cells i).childCount) ∧
      ∀ i < a.count, ∀ offset, (a.memory.cells i).name = some offset →
        a.count * structSize ≤ offset ∧
          offset + (cStringAt a.memory.bytes a.totalSize offset).length + 1 ≤ a.totalSize := by
  constructor
  · have htotal : nameStart model.nodes structSize model.nodes.length =
        model.nodes.length * structSize + (model.nodes.map nameSpace).sum := by
      unfold nameStart
      rw [List.take_length]
    rw [htotal]
    unfold contentModelArray
    dsimp only
    split
    · rename_i hfits
      rw [Option.isSome_map]
      exact ⟨fun h ↦ ⟨hfits, h⟩, fun h ↦ h.2⟩
    · rename_i hfits
      exact ⟨fun h ↦ (by cases h), fun h ↦ absurd h.1 hfits⟩
  intro a ha
  have h := holds_contentModelArray ha
  have hroot : model.nodes[0]? = some model := by
    have hlt : 0 < model.size := by
      rw [size_eq]
      omega
    rw [nodes_eq, getElem?_visited size_eq hlt]
    rfl
  have hdecode : a.decode = model.cNames := by
    apply decodeFrom_eq h hroot
    rw [h.count]
    omega
  refine ⟨h.count.trans (nodeCount_eq model).symm, hdecode, ?_, ?_, ?_, ?_⟩
  · intro hnames
    rw [hdecode, cNames_eq hnames]
  · intro i hi hpos
    exact block_within h hi hpos
  · intro j hj hcount
    rw [h.count] at hcount ⊢
    have hlow : model.firstChild 0 ≤ j := hj
    have hhigh : j < model.firstChild model.size := by
      rw [firstChild_size]
      exact hcount
    obtain ⟨i, ⟨hi, hblock⟩, hunique⟩ := exists_unique_block (firstChild_mono model) hlow hhigh
    refine ⟨i, ⟨hi, (mem_block_iff h hi j).2 hblock⟩, ?_⟩
    rintro k ⟨hk, hblock'⟩
    exact hunique k ⟨hk, (mem_block_iff h hk j).1 hblock'⟩
  · intro i hi offset hoffset
    exact offset_within h hi hoffset

/-- A sequence of a name and a choice. -/
theorem contentModelArray_decodes_branching :
    let model : ContentModel := .node .sequence .none none
      [.node .name .plus (some (str "a")) [],
        .node .choice .repetition none
          [.node .name .none (some (str "b")) [], .node .name .none (some (str "cd")) []]]
    let malloc : Nat → Option ContentMemory := fun _ ↦
      some ⟨fun _ ↦ ⟨0, 0, none, 0, 0⟩, fun _ ↦ 255⟩
    ∃ a, contentModelArray malloc 32 model = some a ∧ a.decode = model := by
  intro model malloc
  obtain ⟨a, ha⟩ := Option.isSome_iff_exists.1
    ((contentModelArray_decodes malloc 32 model).1.2 ⟨by decide, rfl⟩)
  have hnames : model.HasCNames := by
    simp [model, ContentModel.HasCNames, ContentModel.HaveCNames, str]
    decide
  exact ⟨a, ha, ((contentModelArray_decodes malloc 32 model).2 a ha).2.2.1 hnames⟩

end Native

end Xpact
