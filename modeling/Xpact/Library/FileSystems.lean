import Mathlib.Data.List.Infix

/-!
# File systems with links

A file system says what stands at each path of names.  What a program opens is found by walking along
the path, and a link on the way leads elsewhere.  A path without links leads to what stands there
(`stat_eq_entry`), and a walk from the root that asks at each step for the link itself finds the first
one (`isLinkFree_iff`).
-/

namespace Xpact.Library

/-- One step of a written path. -/
inductive Step (ν : Type) where
  | here | up
  | down (name : ν)
  deriving DecidableEq

/-- What a link points to. -/
structure Target (ν : Type) where
  isAbsolute : Bool
  steps : List (Step ν)

inductive Entry (ν β : Type) where
  | plain (content : List β) (isReadable : Bool)
  | directory (isReadable : Bool)
  | link (target : Target ν)
  | special

def Entry.isLink {ν β : Type} : Entry ν β → Bool
  | .link _ => true
  | _ => false

def Entry.isDirectory {ν β : Type} : Entry ν β → Bool
  | .directory _ => true
  | _ => false

/-- The entries of a file system by their paths; what has an entry below it is a directory. -/
structure FileSystem (ν β : Type) where
  entry : List ν → Option (Entry ν β)
  isDirectory_of_isSome : ∀ {path name}, (entry (path ++ [name])).isSome = true →
    (entry path).any Entry.isDirectory = true

namespace FileSystem

variable {ν β : Type} (fs : FileSystem ν β)

/-- The path that steps from `path` lead to when there are no links. -/
def normalize : List ν → List (Step ν) → List ν
  | path, [] => path
  | path, .here :: steps => normalize path steps
  | path, .up :: steps => normalize path.dropLast steps
  | path, .down name :: steps => normalize (path ++ [name]) steps

/-- Walk along the steps; `follow` goes on from a link. -/
def walk (follow : List ν → List (Step ν) → Option (List ν)) :
    List ν → List (Step ν) → Option (List ν)
  | path, [] => some path
  | path, .here :: steps => walk follow path steps
  | path, .up :: steps => walk follow path.dropLast steps
  | path, .down name :: steps =>
    match fs.entry (path ++ [name]) with
    | some (.link target) =>
      follow (if target.isAbsolute then [] else path) (target.steps ++ steps)
    | some _ => walk follow (path ++ [name]) steps
    | none => none

/-- Where steps from a path lead, over at most so many links. -/
def resolve : Nat → List ν → List (Step ν) → Option (List ν)
  | 0 => fs.walk fun _ _ ↦ none
  | links + 1 => fs.walk (resolve links)

/-- What is opened at a path. -/
def stat (links : Nat) (path : List ν) : Option (Entry ν β) :=
  (fs.resolve links [] (path.map .down)).bind fs.entry

/-- What stands at a path, also when it is a link. -/
def lstat (links : Nat) (path : List ν) : Option (Entry ν β) :=
  match path.getLast? with
  | none => fs.entry []
  | some name =>
    (fs.resolve links [] (path.dropLast.map .down)).bind fun above ↦ fs.entry (above ++ [name])

/-- No link stands on the path. -/
def IsLinkFree (path : List ν) : Prop := ∀ above, above <+: path → (fs.entry above).any Entry.isLink = false

section

variable {fs} {path rest : List ν}

theorem isDirectory_of_append (h : (fs.entry (path ++ rest)).isSome = true) (hrest : rest ≠ []) :
    (fs.entry path).any Entry.isDirectory = true := by
  induction rest using List.reverseRecOn with
  | nil => exact absurd rfl hrest
  | append_singleton rest name ih =>
    rw [← List.append_assoc] at h
    have habove := fs.isDirectory_of_isSome h
    by_cases hnil : rest = []
    · rw [hnil, List.append_nil] at habove
      exact habove
    · refine ih ?_ hnil
      cases hentry : fs.entry (path ++ rest) with
      | none => rw [hentry] at habove; cases habove
      | some e => rfl

theorem isSome_of_append (h : (fs.entry (path ++ rest)).isSome = true) :
    (fs.entry path).isSome = true := by
  cases rest with
  | nil => rwa [List.append_nil] at h
  | cons name rest =>
    have habove := isDirectory_of_append h (List.cons_ne_nil name rest)
    cases hentry : fs.entry path with
    | none => rw [hentry] at habove; cases habove
    | some e => rfl

/-- Without links the walk comes to the written path, when there is something. -/
theorem walk_of_isLinkFree (follow : List ν → List (Step ν) → Option (List ν))
    (hfree : fs.IsLinkFree (path ++ rest)) :
    fs.walk follow path (rest.map .down) =
      if rest = [] ∨ (fs.entry (path ++ rest)).isSome then some (path ++ rest) else none := by
  induction rest generalizing path with
  | nil => simp [walk]
  | cons name rest ih =>
    have happend : path ++ name :: rest = (path ++ [name]) ++ rest := by simp
    rw [happend] at hfree ⊢
    have hnext := ih hfree
    have hlink := hfree (path ++ [name]) (List.prefix_append _ _)
    have hcons : ¬name :: rest = [] := List.cons_ne_nil name rest
    rw [List.map_cons, walk]
    cases hentry : fs.entry (path ++ [name]) with
    | none =>
      have hbelow : ¬(fs.entry (path ++ [name] ++ rest)).isSome = true := by
        intro h
        have hsome := isSome_of_append h
        rw [hentry] at hsome
        cases hsome
      rw [if_neg (not_or.2 ⟨hcons, hbelow⟩)]
    | some e =>
      cases e with
      | link target => rw [hentry] at hlink; cases hlink
      | _ =>
        simp only [hcons, false_or]
        rw [hnext]
        by_cases hrest : rest = []
        · subst hrest
          rw [List.append_nil, hentry]
          rfl
        · simp only [hrest, false_or]

theorem resolve_of_isLinkFree (links : Nat) (hfree : fs.IsLinkFree path) :
    fs.resolve links [] (path.map .down) =
      if path = [] ∨ (fs.entry path).isSome then some path else none := by
  have hwalk (follow : List ν → List (Step ν) → Option (List ν)) :
      fs.walk follow [] (path.map .down) =
        if path = [] ∨ (fs.entry path).isSome then some path else none :=
    walk_of_isLinkFree follow hfree
  cases links with
  | zero => exact hwalk _
  | succ links => exact hwalk _

/-- A path without links leads to what stands there. -/
theorem stat_eq_entry (links : Nat) (hfree : fs.IsLinkFree path) :
    fs.stat links path = fs.entry path := by
  rw [stat, resolve_of_isLinkFree links hfree]
  split
  · rfl
  · next h =>
    rw [not_or] at h
    cases hentry : fs.entry path with
    | none => rfl
    | some e => rw [hentry] at h; exact absurd rfl h.2

/-- Below a path without links, what stands at a name is seen as it is. -/
theorem lstat_eq_entry (links : Nat) {name : ν} (hfree : fs.IsLinkFree path) :
    fs.lstat links (path ++ [name]) = fs.entry (path ++ [name]) := by
  unfold lstat
  rw [List.getLast?_concat, List.dropLast_concat]
  dsimp only
  rw [resolve_of_isLinkFree links hfree]
  split
  · rfl
  · next h =>
    rw [not_or] at h
    cases hentry : fs.entry (path ++ [name]) with
    | none => rfl
    | some e => exact absurd (isSome_of_append (by rw [hentry]; rfl)) h.2

/-- A walk from the root that looks at each entry itself meets no link exactly when there is none. -/
theorem isLinkFree_iff (links : Nat) : fs.IsLinkFree path ↔
    ∀ above, above <+: path → (fs.lstat links above).any Entry.isLink = false := by
  induction path using List.reverseRecOn with
  | nil =>
    refine forall₂_congr fun above habove ↦ ?_
    rw [List.prefix_nil] at habove
    subst habove
    rfl
  | append_singleton path name ih =>
    have hfront {p : List ν → Prop} (h : ∀ above, above <+: path ++ [name] → p above) :
        ∀ above, above <+: path → p above :=
      fun above habove ↦ h above (habove.trans (List.prefix_append _ _))
    constructor
    · intro h above habove
      have hfree : fs.IsLinkFree path := hfront h
      rw [List.prefix_concat_iff] at habove
      cases habove with
      | inl hlast => rw [hlast, lstat_eq_entry links hfree]; exact h _ (List.prefix_refl _)
      | inr hbefore => exact ih.1 hfree above hbefore
    · intro h
      have hfree : fs.IsLinkFree path := ih.2 (hfront h)
      intro above habove
      rw [List.prefix_concat_iff] at habove
      cases habove with
      | inl hlast => rw [hlast, ← lstat_eq_entry links hfree]; exact h _ (List.prefix_refl _)
      | inr hbefore => exact hfree above hbefore

end

end FileSystem

/-! ## Written paths -/

section

variable {β : Type} (separator : β)

/-- Names, each behind a separator. -/
def writtenNames (path : List (List β)) : List β := path.flatMap (separator :: ·)

/-- An absolute path as it is written. -/
def writtenPath (path : List (List β)) : List β :=
  if path = [] then [separator] else writtenNames separator path

/-- The beginning of what is written below a directory. -/
def writtenDirectory (path : List (List β)) : List β := writtenNames separator path ++ [separator]

variable {separator}

@[simp] theorem writtenNames_nil : writtenNames separator [] = [] := rfl

@[simp] theorem writtenNames_cons (name : List β) (path : List (List β)) :
    writtenNames separator (name :: path) =
      separator :: (name ++ writtenNames separator path) := rfl

/-- Two texts that agree up to a separator begin with the same name. -/
theorem name_eq_of_prefix {name name' rest rest' : List β} (hname : separator ∉ name)
    (hname' : separator ∉ name') (hrest' : rest' ≠ [] → rest'.head? = some separator)
    (h : name ++ separator :: rest <+: name' ++ rest') :
    name = name' ∧ separator :: rest <+: rest' := by
  induction name generalizing name' with
  | nil =>
    cases name' with
    | nil => exact ⟨rfl, h⟩
    | cons c name' =>
      obtain ⟨rfl, -⟩ := List.cons_prefix_cons.1 h
      exact absurd List.mem_cons_self hname'
  | cons c name ih =>
    cases name' with
    | nil =>
      cases rest' with
      | nil => cases List.prefix_nil.1 h
      | cons d rest' =>
        obtain ⟨rfl, -⟩ := List.cons_prefix_cons.1 h
        have hhead := hrest' (List.cons_ne_nil _ _)
        rw [List.head?_cons] at hhead
        obtain rfl := Option.some.inj hhead
        exact absurd List.mem_cons_self hname
    | cons d name' =>
      obtain ⟨rfl, htail⟩ := List.cons_prefix_cons.1 h
      obtain ⟨rfl, hrest⟩ := ih (fun hc ↦ hname (List.mem_cons_of_mem _ hc))
        (fun hc ↦ hname' (List.mem_cons_of_mem _ hc)) htail
      exact ⟨rfl, hrest⟩

/-- What is written below a directory is the directory and more names. -/
theorem writtenDirectory_prefix_iff {above path : List (List β)}
    (habove : ∀ name ∈ above, separator ∉ name) (hpath : ∀ name ∈ path, separator ∉ name) :
    writtenDirectory separator above <+: writtenNames separator path ↔
      ∃ rest, rest ≠ [] ∧ path = above ++ rest := by
  induction above generalizing path with
  | nil =>
    cases path with
    | nil => simp [writtenDirectory]
    | cons name path =>
      refine iff_of_true ⟨name ++ writtenNames separator path, rfl⟩ ?_
      exact ⟨name :: path, List.cons_ne_nil name path, rfl⟩
  | cons name above ih =>
    cases path with
    | nil => simp [writtenDirectory]
    | cons name' path =>
      have hrest : writtenNames separator path ≠ [] →
          (writtenNames separator path).head? = some separator := by
        cases path with
        | nil => exact fun h ↦ absurd rfl h
        | cons name path => exact fun _ ↦ rfl
      have hdirectory : ∃ rest, writtenDirectory separator above = separator :: rest := by
        cases above with
        | nil => exact ⟨[], rfl⟩
        | cons name above => exact ⟨name ++ writtenDirectory separator above, by
            simp [writtenDirectory]⟩
      have hcons : writtenDirectory separator (name :: above) =
          separator :: (name ++ writtenDirectory separator above) := by
        simp [writtenDirectory]
      rw [hcons, writtenNames_cons, List.cons_prefix_cons]
      have hnames := List.forall_mem_cons.1 habove
      have hnames' := List.forall_mem_cons.1 hpath
      obtain ⟨tail, htail⟩ := hdirectory
      constructor
      · rintro ⟨-, h⟩
        rw [htail] at h
        obtain ⟨rfl, hbelow⟩ := name_eq_of_prefix hnames.1 hnames'.1 hrest h
        rw [← htail] at hbelow
        obtain ⟨rest, hne, rfl⟩ := (ih hnames.2 hnames'.2).1 hbelow
        exact ⟨rest, hne, rfl⟩
      · rintro ⟨rest, hne, heq⟩
        obtain ⟨rfl, rfl⟩ := List.cons.inj heq
        refine ⟨rfl, (List.prefix_append_right_inj _).2 ?_⟩
        exact (ih hnames.2 hnames'.2).2 ⟨rest, hne, rfl⟩

end

end Xpact.Library
