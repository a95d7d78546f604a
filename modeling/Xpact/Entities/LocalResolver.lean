import Xpact.Library.FileSystems
import Xpact.Parser.Frames

/-!
# The local resolver

`XP_LOCAL_EXTERNAL_ENTITY_RESOLVER` reads external entities from the files below one directory.  It
works on names: a relative identifier is decoded, appended to the directory of the declaring resource
and made canonical, and the result must begin with the root.  What it reads stands below the root of
the file system tree, not only of the names, since no link is on the way (`local_resolution_iff`).

The system is a POSIX one, and does not change while a request is answered.
-/

namespace Xpact

open Library Program

/-! ## Paths -/

/-- A component of a path. -/
def componentStep (name : String8) : Step String8 :=
  if name = str "." then .here else if name = str ".." then .up else .down name

/-- The separator of names. -/
abbrev slash : Character8 := '/'

/-- Names are not empty and have no separator. -/
def AreNames (names : List String8) : Prop := ∀ name ∈ names, name ≠ [] ∧ slash ∉ name

/-- `PATH` on a POSIX system. -/
structure FilePath where
  hasRoot : Bool
  components : List String8
  areNames : AreNames components

namespace FilePath

theorem not_mem_of_mem_splitOn (s : String8) : ∀ name ∈ s.splitOn slash, slash ∉ name := by
  induction s with
  | nil =>
    intro name hname
    rw [List.splitOn_nil, List.mem_singleton] at hname
    subst hname
    exact List.not_mem_nil
  | cons c s ih =>
    intro name hname
    rw [List.splitOn_cons_eq_if_modifyHead] at hname
    split at hname
    · rw [List.mem_cons] at hname
      cases hname with
      | inl hnil => rw [hnil]; exact List.not_mem_nil
      | inr hrest => exact ih name hrest
    · next hc =>
      cases hparts : s.splitOn slash with
      | nil => rw [hparts] at hname; cases hname
      | cons first rest =>
        rw [hparts] at ih hname
        rw [List.modifyHead_cons, List.mem_cons] at hname
        cases hname with
        | inl hfirst =>
          rw [hfirst, List.mem_cons, not_or]
          refine ⟨fun heq ↦ hc ?_, ih first List.mem_cons_self⟩
          rw [← heq]
          exact beq_self_eq_true _
        | inr hrest => exact ih name (List.mem_cons_of_mem _ hrest)

def ofString (s : String8) : FilePath where
  hasRoot := s.head? = some slash
  components := (s.splitOn slash).filter fun name ↦ !name.isEmpty
  areNames name hname := by
    rw [List.mem_filter, Bool.not_eq_true', List.isEmpty_eq_false_iff] at hname
    exact ⟨hname.2, not_mem_of_mem_splitOn s name hname.1⟩

def parent (p : FilePath) : FilePath where
  hasRoot := p.hasRoot
  components := p.components.dropLast
  areNames name hname := p.areNames name (List.mem_of_mem_dropLast hname)

/-- `extended_path`, for a path without a root. -/
def extendedPath (p q : FilePath) : FilePath where
  hasRoot := p.hasRoot
  components := p.components ++ q.components
  areNames name hname := by
    rw [List.mem_append] at hname
    exact hname.elim (p.areNames name) (q.areNames name)

/-- `canonical_path`, when the current working path is `current`. -/
def canonicalPath (current : List String8) (p : FilePath) : List String8 :=
  FileSystem.normalize (if p.hasRoot then [] else current) (p.components.map componentStep)

theorem areNames_normalize {steps : List (Step String8)} {path : List String8} (hpath : AreNames path)
    (hsteps : ∀ name, .down name ∈ steps → name ≠ [] ∧ slash ∉ name) :
    AreNames (FileSystem.normalize path steps) := by
  induction steps generalizing path with
  | nil => exact hpath
  | cons step steps ih =>
    have hrest : ∀ name, .down name ∈ steps → name ≠ [] ∧ slash ∉ name :=
      fun name hname ↦ hsteps name (List.mem_cons_of_mem _ hname)
    cases step with
    | here => exact ih hpath hrest
    | up => exact ih (fun name hname ↦ hpath name (List.mem_of_mem_dropLast hname)) hrest
    | down name =>
      refine ih (fun name' hname ↦ ?_) hrest
      rw [List.mem_append, List.mem_singleton] at hname
      cases hname with
      | inl hold => exact hpath name' hold
      | inr hnew => rw [hnew]; exact hsteps name List.mem_cons_self

theorem areNames_canonicalPath {current : List String8} (hcurrent : AreNames current)
    (p : FilePath) : AreNames (p.canonicalPath current) := by
  unfold canonicalPath
  apply areNames_normalize
  · split
    · exact nofun
    · exact hcurrent
  · intro name hname
    obtain ⟨component, hcomponent, hstep⟩ := List.mem_map.1 hname
    unfold componentStep at hstep
    split at hstep
    · cases hstep
    · split at hstep
      · cases hstep
      · obtain rfl := Step.down.inj hstep
        exact p.areNames component hcomponent

end FilePath

/-- The name of a canonical path. -/
def pathName (path : List String8) : String8 := writtenPath slash path

/-! ## The system -/

structure LocalSystem where
  files : FileSystem String8 Character8
  currentWorkingPath : List String8
  areNames : AreNames currentWorkingPath

/-- `Default_max_input_bytes`. -/
def maxResourceBytes : Nat := 10485760

/-- How many links the system follows on a path. -/
def maxFollowedLinks : Nat := 40

namespace LocalSystem

variable (sys : LocalSystem)

/-- `is_link_path`. -/
def isLinkPath (path : List String8) : Bool :=
  (sys.files.lstat maxFollowedLinks path).any Entry.isLink

/-- Walk from the root to the leaf until a link is met. -/
def hasLinkComponent (path : List String8) : Bool := path.inits.any sys.isLinkPath

def canonicalPath (p : FilePath) : List String8 := p.canonicalPath sys.currentWorkingPath

/-- What is read from a file, or why nothing is. -/
def readResource (path : List String8) : Except String String8 :=
  if sys.hasLinkComponent path then
    .error "external resource contains a symbolic link/reparse point"
  else
    match sys.files.stat maxFollowedLinks path with
    | some (.plain content true) =>
      if maxResourceBytes < content.length then
        .error "external resource exceeds the input limit"
      else
        .ok content
    | _ => .error "external resource is missing, unreadable or not a regular file"

variable {sys} {path : List String8}

theorem hasLinkComponent_iff :
    sys.hasLinkComponent path = false ↔ sys.files.IsLinkFree path := by
  unfold hasLinkComponent
  rw [List.any_eq_false, FileSystem.isLinkFree_iff maxFollowedLinks]
  refine forall_congr' fun above ↦ ?_
  rw [List.mem_inits, Bool.not_eq_true]
  rfl

end LocalSystem

/-! ## Identifiers -/

/-- `hex_value`. -/
def hexValue (c : Character8) : Option Nat := hexDigitValue c

/-- The bytes of an identifier without percent escapes; control characters are refused. -/
def decodedBytes : String8 → Option String8
  | [] => some []
  | c :: rest =>
    if c = '%' then
      match rest with
      | high :: low :: rest =>
        match hexValue high, hexValue low with
        | some h, some l =>
          let code := h * 16 + l
          if code < 32 ∨ code = 127 then none
          else (decodedBytes rest).map (UInt8.ofNat code :: ·)
        | _, _ => none
      | _ => none
    else if c.toNat < 32 ∨ c.toNat = 127 then
      none
    else
      (decodedBytes rest).map (c :: ·)

/-- `{UTF_CONVERTER}.is_valid_utf_8_string_8`. -/
def isValidUtf8 (s : String8) : Bool := (ByteArray.mk s.toArray).validateUTF8

def decodedIdentifier (identifier : String8) : Option String8 :=
  if identifier.isEmpty then none else (decodedBytes identifier).filter isValidUtf8

/-- An identifier names a resource of another system. -/
def isForeignIdentifier (identifier : String8) : Bool :=
  (FilePath.ofString identifier).hasRoot || identifier.has ':' || identifier.has '?' ||
    identifier.has '#'

/-! ## The resolver -/

structure LocalResolver where
  suiteRoot : List String8
  areNames : AreNames suiteRoot
  suiteIsUsable : Bool
  lastError : String := ""
  lastResolvedResource : Option String8 := none
  resolutionCount : Nat := 0

namespace LocalResolver

def unusableRoot : String :=
  "suite root must be a readable ordinary local directory without links/reparse points"

def reset (r : LocalResolver) : LocalResolver :=
  { r with
    lastResolvedResource := none
    lastError := if r.suiteIsUsable then "" else unusableRoot
    resolutionCount := 0 }

/-- `make`; the root is decided by its name before any file is looked at. -/
def make (sys : LocalSystem) (root : FilePath) : LocalResolver :=
  let suiteRoot := sys.canonicalPath root
  let isLocalRoot := !(str "//").isPrefixOf (pathName suiteRoot)
  let isReadableDirectory :=
    match sys.files.stat maxFollowedLinks suiteRoot with
    | some (.directory isReadable) => isReadable
    | _ => false
  reset
    { suiteRoot
      areNames := root.areNames_canonicalPath sys.areNames
      suiteIsUsable := isLocalRoot && !sys.hasLinkComponent suiteRoot && isReadableDirectory }

/-- The name of the root begins the name of the path, at a separator. -/
def isContained (r : LocalResolver) (path : List String8) : Bool :=
  let root := pathName r.suiteRoot
  let root := if !root.isEmpty && root.getLast? != some slash then root ++ [slash] else root
  root.isPrefixOf (pathName path)

def isAllowedDocument (sys : LocalSystem) (r : LocalResolver) (p : FilePath) : Bool :=
  r.suiteIsUsable && r.isContained (sys.canonicalPath p) && !sys.hasLinkComponent (sys.canonicalPath p)

/-- The resource that a request names, or why it is refused. -/
def requestedResource (sys : LocalSystem) (systemId : String8) (base : Option String8)
    (r : LocalResolver) : Except String (List String8) :=
  if !r.suiteIsUsable then
    .error unusableRoot
  else
    match base.filter fun base ↦ !base.isEmpty && isValidUtf8 base with
    | none => .error "external resource declaration has no valid document base"
    | some base =>
      match decodedIdentifier systemId with
      | none => .error "invalid or empty external resource identifier"
      | some identifier =>
        if isForeignIdentifier identifier then
          .error "only relative local external resource identifiers are allowed"
        else if !r.isAllowedDocument sys (.ofString base) then
          .error "external resource declaration base is outside the suite or contains a link"
        else
          let resource :=
            sys.canonicalPath ((FilePath.ofString base).parent.extendedPath (.ofString identifier))
          if !r.isContained resource || sys.hasLinkComponent resource then
            .error "external resource escapes the suite or contains a symbolic link/reparse point"
          else
            .ok resource

def resolveExternalEntityFromBase (sys : LocalSystem) (systemId : String8) (base : Option String8)
    (r : LocalResolver) : Option String8 × LocalResolver :=
  let asked := { r with lastResolvedResource := none, resolutionCount := r.resolutionCount + 1 }
  match r.requestedResource sys systemId base with
  | .error message => (none, { asked with lastError := message })
  | .ok resource =>
    match sys.readResource resource with
    | .error message => (none, { asked with lastError := message })
    | .ok text =>
      (some text, { asked with lastError := "", lastResolvedResource := some (pathName resource) })

/-! ## Confinement -/

section

variable {sys : LocalSystem} {r : LocalResolver} {path : List String8}

theorem pathName_of_ne_nil (h : path ≠ []) : pathName path = writtenNames slash path := if_neg h

/-- The name of a directory, with the separator behind it. -/
theorem rootName_eq (hpath : AreNames path) :
    (if !(pathName path).isEmpty && (pathName path).getLast? != some slash then
      pathName path ++ [slash] else pathName path) = writtenDirectory slash path := by
  cases path using List.reverseRecOn with
  | nil => rfl
  | append_singleton path name =>
    obtain ⟨hne, hslash⟩ := hpath name (List.mem_append_right _ (List.mem_singleton_self name))
    have hname : pathName (path ++ [name]) = writtenNames slash path ++ slash :: name := by
      rw [pathName_of_ne_nil (List.append_ne_nil_of_right_ne_nil _ (List.cons_ne_nil _ _))]
      simp [writtenNames]
    have hlast : (pathName (path ++ [name])).getLast? ≠ some slash := by
      rw [hname, List.getLast?_append_of_ne_nil _ (List.cons_ne_nil _ _),
        List.getLast?_cons_of_ne_nil hne]
      intro h
      exact hslash (List.mem_of_getLast? h)
    have hempty : (pathName (path ++ [name])).isEmpty = false := by
      rw [hname]
      simp
    rw [if_pos (by rw [hempty, bne_iff_ne.2 hlast]; rfl)]
    rw [pathName_of_ne_nil (List.append_ne_nil_of_right_ne_nil _ (List.cons_ne_nil _ _))]
    rfl

/-- A path is contained in the root when it is below it, and always when the root is that of the file
system. -/
theorem isContained_iff (hpath : AreNames path) :
    r.isContained path = true ↔
      r.suiteRoot = [] ∨ ∃ rest, rest ≠ [] ∧ path = r.suiteRoot ++ rest := by
  unfold isContained
  dsimp only
  rw [rootName_eq r.areNames, List.isPrefixOf_iff_prefix]
  by_cases hroot : r.suiteRoot = []
  · refine iff_of_true ?_ (.inl hroot)
    rw [hroot]
    unfold pathName writtenPath
    split
    · exact List.prefix_refl _
    · next hne =>
      obtain ⟨name, rest, rfl⟩ := List.exists_cons_of_ne_nil hne
      exact ⟨name ++ writtenNames slash rest, rfl⟩
  · rw [or_iff_right hroot]
    by_cases hnil : path = []
    · subst hnil
      refine iff_of_false (fun h ↦ ?_) ?_
      · have hlength := h.length_le
        obtain ⟨name, rest, hcons⟩ := List.exists_cons_of_ne_nil hroot
        rw [hcons, writtenDirectory, writtenNames_cons, List.length_append, List.length_cons]
          at hlength
        exact absurd hlength (by simp [pathName, writtenPath])
      · rintro ⟨rest, hne, heq⟩
        exact hne (List.append_eq_nil_iff.1 heq.symm).2
    · rw [pathName_of_ne_nil hnil]
      exact writtenDirectory_prefix_iff (fun name hname ↦ (r.areNames name hname).2)
        fun name hname ↦ (hpath name hname).2

/-- What a request reads, in terms of the files themselves. -/
theorem readResource_eq_ok_iff {text : String8} :
    sys.readResource path = .ok text ↔ sys.files.IsLinkFree path ∧
      sys.files.entry path = some (.plain text true) ∧ text.length ≤ maxResourceBytes := by
  unfold LocalSystem.readResource
  cases hlinks : sys.hasLinkComponent path with
  | true =>
    have hfree : ¬sys.files.IsLinkFree path := fun h ↦ by
      rw [LocalSystem.hasLinkComponent_iff.2 h] at hlinks
      cases hlinks
    simp only [if_true, reduceCtorEq, hfree, false_and]
  | false =>
    have hfree := LocalSystem.hasLinkComponent_iff.1 hlinks
    rw [if_neg Bool.false_ne_true, FileSystem.stat_eq_entry _ hfree]
    simp only [hfree, true_and]
    split
    · next content hentry =>
      rw [hentry, Option.some.injEq, Entry.plain.injEq]
      split
      · next hlong =>
        refine iff_of_false (fun h ↦ by cases h) ?_
        rintro ⟨⟨rfl, -⟩, hle⟩
        omega
      · next hshort =>
        rw [Except.ok.injEq]
        constructor
        · rintro rfl
          exact ⟨⟨rfl, rfl⟩, by omega⟩
        · exact fun h ↦ h.1.1
    · next hother =>
      refine iff_of_false (fun h ↦ by cases h) ?_
      rintro ⟨hentry, -⟩
      exact hother text hentry

/-- A document of the suite: its path stands below the root, without a link. -/
def IsDocument (sys : LocalSystem) (r : LocalResolver) (path : List String8) : Prop :=
  (r.suiteRoot = [] ∨ ∃ rest, rest ≠ [] ∧ path = r.suiteRoot ++ rest) ∧ sys.files.IsLinkFree path

theorem isAllowedDocument_iff {p : FilePath} : r.isAllowedDocument sys p = true ↔
    r.suiteIsUsable = true ∧ r.IsDocument sys (sys.canonicalPath p) := by
  unfold isAllowedDocument IsDocument
  have hcontained : r.isContained (sys.canonicalPath p) = true ↔ _ :=
    isContained_iff (p.areNames_canonicalPath sys.areNames)
  rw [Bool.and_eq_true, Bool.and_eq_true, Bool.not_eq_true', LocalSystem.hasLinkComponent_iff,
    hcontained, and_assoc]

/-- A path that is refused is not that of a document. -/
theorem isRefused_iff {p : FilePath} :
    (!r.isContained (sys.canonicalPath p) || sys.hasLinkComponent (sys.canonicalPath p)) = true ↔
      ¬r.IsDocument sys (sys.canonicalPath p) := by
  have hcontained : r.isContained (sys.canonicalPath p) = true ↔ _ :=
    isContained_iff (p.areNames_canonicalPath sys.areNames)
  rw [← Bool.not_eq_false, Bool.or_eq_false_iff, Bool.not_eq_false', hcontained,
    LocalSystem.hasLinkComponent_iff]
  rfl

/-- The resource of a request, in terms of the files themselves. -/
theorem requestedResource_eq_ok_iff {systemId : String8} {base : Option String8}
    {path : List String8} : r.requestedResource sys systemId base = .ok path ↔
      r.suiteIsUsable = true ∧ ∃ document identifier, base = some document ∧
        document.isEmpty = false ∧ isValidUtf8 document = true ∧
        decodedIdentifier systemId = some identifier ∧ isForeignIdentifier identifier = false ∧
        r.IsDocument sys (sys.canonicalPath (.ofString document)) ∧
        path = sys.canonicalPath
          ((FilePath.ofString document).parent.extendedPath (.ofString identifier)) ∧
        r.IsDocument sys path := by
  unfold requestedResource
  cases husable : r.suiteIsUsable with
  | false => simp
  | true =>
    simp only [Bool.not_true, Bool.false_eq_true, if_false, true_and]
    cases hbase : base.filter fun base ↦ !base.isEmpty && isValidUtf8 base with
    | none =>
      refine iff_of_false (fun h ↦ by cases h) ?_
      rintro ⟨document, identifier, rfl, hempty, hvalid, -⟩
      rw [Option.filter_some, hempty, hvalid] at hbase
      cases hbase
    | some document =>
      rw [Option.filter_eq_some_iff, Bool.and_eq_true, Bool.not_eq_true'] at hbase
      obtain ⟨rfl, hempty, hvalid⟩ := hbase
      cases hidentifier : decodedIdentifier systemId with
      | none =>
        refine iff_of_false (fun h ↦ by cases h) ?_
        rintro ⟨-, identifier, -, -, -, h, -⟩
        cases h
      | some identifier =>
        dsimp only
        constructor
        · intro h
          split at h
          · cases h
          · next hlocal =>
            split at h
            · cases h
            · next hallowed =>
              rw [Bool.not_eq_true, Bool.not_eq_false', isAllowedDocument_iff] at hallowed
              split at h
              · cases h
              · next hcontained =>
                rw [isRefused_iff, not_not] at hcontained
                obtain rfl := Except.ok.inj h
                exact ⟨document, identifier, rfl, hempty, hvalid, rfl, Bool.eq_false_iff.2 hlocal,
                  hallowed.2, rfl, hcontained⟩
        · rintro ⟨document', identifier', hdocument, -, -, hidentifier', hlocal, hdoc, rfl, hpath⟩
          obtain rfl := Option.some.inj hdocument
          obtain rfl := Option.some.inj hidentifier'
          have hrefused := mt isRefused_iff.1 (not_not.2 hpath)
          rw [hlocal, isAllowedDocument_iff.2 ⟨husable, hdoc⟩, if_neg hrefused]
          rfl

/-- What a request is answered, in terms of the files themselves. -/
theorem resolve_eq_some_iff {systemId : String8} {base : Option String8} {text : String8} :
    (r.resolveExternalEntityFromBase sys systemId base).1 = some text ↔
      ∃ path, r.requestedResource sys systemId base = .ok path ∧
        sys.files.entry path = some (.plain text true) ∧ text.length ≤ maxResourceBytes := by
  unfold resolveExternalEntityFromBase
  cases hrequested : r.requestedResource sys systemId base with
  | error message => simp
  | ok path =>
    obtain ⟨-, -, -, -, -, -, -, -, -, -, -, hfree⟩ := requestedResource_eq_ok_iff.1 hrequested
    simp only [Except.ok.injEq, exists_eq_left']
    cases hread : sys.readResource path with
    | error message =>
      refine iff_of_false (fun h ↦ by cases h) fun h ↦ ?_
      rw [readResource_eq_ok_iff.2 ⟨hfree, h⟩] at hread
      cases hread
    | ok content =>
      rw [readResource_eq_ok_iff] at hread
      rw [Option.some.injEq]
      constructor
      · rintro rfl
        exact hread.2
      · intro h
        have hentry := hread.2.1.symm.trans h.1
        exact (Entry.plain.inj (Option.some.inj hentry)).1

/-- The resource of an answer is where its text stands. -/
theorem lastResolvedResource_of_some {systemId : String8} {base : Option String8} {text : String8}
    {path : List String8}
    (hpath : r.requestedResource sys systemId base = .ok path)
    (h : (r.resolveExternalEntityFromBase sys systemId base).1 = some text) :
    (r.resolveExternalEntityFromBase sys systemId base).2.lastResolvedResource =
      some (pathName path) := by
  unfold resolveExternalEntityFromBase at h ⊢
  rw [hpath] at h ⊢
  dsimp only at h ⊢
  split at h
  · cases h
  · rfl

end

/-- A request is answered exactly when it is relative, made in a document of the suite, and leads to a
regular file that can be read and is below the root with no link on the way. -/
theorem local_resolution_iff (sys : LocalSystem) (r : LocalResolver) (systemId : String8)
    (base : Option String8) (text resource : String8) :
    (r.resolveExternalEntityFromBase sys systemId base).1 = some text ∧
        (r.resolveExternalEntityFromBase sys systemId base).2.lastResolvedResource = some resource ↔
      r.suiteIsUsable = true ∧ ∃ document identifier path, base = some document ∧
        document.isEmpty = false ∧ isValidUtf8 document = true ∧
        decodedIdentifier systemId = some identifier ∧ isForeignIdentifier identifier = false ∧
        r.IsDocument sys (sys.canonicalPath (.ofString document)) ∧
        path = sys.canonicalPath
          ((FilePath.ofString document).parent.extendedPath (.ofString identifier)) ∧
        r.IsDocument sys path ∧ sys.files.entry path = some (.plain text true) ∧
        text.length ≤ maxResourceBytes ∧ resource = pathName path := by
  constructor
  · rintro ⟨htext, hresource⟩
    obtain ⟨path, hpath, hentry, hlength⟩ := resolve_eq_some_iff.1 htext
    rw [lastResolvedResource_of_some hpath htext, Option.some.injEq] at hresource
    obtain ⟨husable, document, identifier, hbase, hempty, hvalid, hidentifier, hlocal, hdocument, heq,
      hresult⟩ := requestedResource_eq_ok_iff.1 hpath
    exact ⟨husable, document, identifier, path, hbase, hempty, hvalid, hidentifier, hlocal, hdocument,
      heq, hresult, hentry, hlength, hresource.symm⟩
  · rintro ⟨husable, document, identifier, path, hbase, hempty, hvalid, hidentifier, hlocal,
      hdocument, heq, hresult, hentry, hlength, rfl⟩
    have hpath : r.requestedResource sys systemId base = .ok path :=
      requestedResource_eq_ok_iff.2 ⟨husable, document, identifier, hbase, hempty, hvalid,
        hidentifier, hlocal, hdocument, heq, hresult⟩
    have htext := resolve_eq_some_iff.2 ⟨path, hpath, hentry, hlength⟩
    exact ⟨htext, lastResolvedResource_of_some hpath htext⟩

/-! ## Parses -/

variable (sys : LocalSystem)

/-- The resolver after a request. -/
def served (r : LocalResolver) (reference : Reference) : LocalResolver :=
  (r.resolveExternalEntityFromBase sys reference.systemId reference.base).2

/-- The resolver of a parser, which has served the earlier requests. -/
def resolver (r : LocalResolver) : Resolver := fun requests reference ↦
  let r := requests.foldl (served sys) r
  let text := (r.resolveExternalEntityFromBase sys reference.systemId reference.base).1
  ⟨⟨text, false, (r.served sys reference).lastResolvedResource, 0⟩, none, false⟩

/-- The answer comes from a document of the suite: a regular file that can be read, and what it is
called. -/
def IsConfined (r : LocalResolver) (answer : Answer) : Prop :=
  ∀ text, answer.text = some text → ∃ path, r.IsDocument sys path ∧
    sys.files.entry path = some (.plain text true) ∧ text.length ≤ maxResourceBytes ∧
    answer.resource = some (pathName path)

section

variable {sys} {r : LocalResolver}

theorem served_suiteRoot (reference : Reference) :
    (r.served sys reference).suiteRoot = r.suiteRoot := by
  unfold served resolveExternalEntityFromBase
  dsimp only
  split
  · rfl
  · split <;> rfl

/-- No request moves the root. -/
theorem foldl_served_suiteRoot (requests : List Reference) :
    (requests.foldl (served sys) r).suiteRoot = r.suiteRoot := by
  induction requests generalizing r with
  | nil => rfl
  | cons reference requests ih => rw [List.foldl_cons, ih, served_suiteRoot]

theorem isConfined_resolver (requests : List Reference) (reference : Reference) :
    r.IsConfined sys (r.resolver sys requests reference).answer := by
  intro text htext
  obtain ⟨path, hpath, hentry, hlength⟩ := resolve_eq_some_iff.1 htext
  obtain ⟨-, -, -, -, -, -, -, -, -, -, hdocument⟩ := requestedResource_eq_ok_iff.1 hpath
  have hbelow := hdocument.1
  rw [foldl_served_suiteRoot] at hbelow
  exact ⟨path, ⟨hbelow, hdocument.2⟩, hentry, hlength, lastResolvedResource_of_some hpath htext⟩

/-- The resolver of the parser, and that what it has answered last is confined. -/
def IsServing (sys : LocalSystem) (r : LocalResolver) (p : Parser) : Prop :=
  p.externalEntityResolver = some (r.resolver sys) ∧
    ∀ answer, p.core.lastAnswer = some answer → r.IsConfined sys answer

/-- A request changes the last answer to what the resolver returns, and no other command does. -/
theorem step_isServing (a : Act) {p : Parser} (hp : r.IsServing sys p) :
    r.IsServing sys (p.step a) := by
  refine ⟨(Parser.step_resolver a p).trans hp.1, ?_⟩
  have hsame (h : (p.step a).core.lastAnswer = p.core.lastAnswer) :
      ∀ answer, (p.step a).core.lastAnswer = some answer → r.IsConfined sys answer :=
    fun answer hanswer ↦ hp.2 answer (h ▸ hanswer)
  cases a with
  | routine c =>
    by_cases hresolve : ∃ request, c = .resolve request
    · obtain ⟨request, rfl⟩ := hresolve
      intro answer hanswer
      simp only [Parser.step, Parser.stepRoutine, Parser.resolve, Parser.resolution, hp.1,
        Option.map_some] at hanswer
      obtain rfl := Option.some.inj hanswer
      exact isConfined_resolver _ _
    · refine hsame (Parser.stepRoutine_unchanged c p (fun q ↦ q.core.lastAnswer) (fun _ ↦ rfl) ?_)
      cases c with
      | resolve request => exact absurd ⟨request, rfl⟩ hresolve
      | _ => rfl
  | _ => exact hsame rfl

/-- Whatever a document declares, and in every state of a call, the entity that the parser has been
given last comes from a file of the suite. -/
theorem local_entities_confined {sys : LocalSystem} {root : FilePath} {p : Parser}
    (hp : p.externalEntityResolver = some ((make sys root).resolver sys)) (entry : Entry)
    (bound : Nat) (input : String8) (n : Nat) {answer : Answer}
    (hanswer : (p.stateAt entry bound input n).core.lastAnswer = some answer) :
    (make sys root).IsConfined sys answer := by
  have hstart : (make sys root).IsServing sys (p.start entry) := ⟨hp, nofun⟩
  have hstate : (make sys root).IsServing sys (p.stateAt entry bound input n) :=
    Parser.machine.execute_invariant (fun a _ ↦ step_isServing a) _ hstart
  exact hstate.2 answer hanswer

end

/-- A suite with an entity, and a link that leaves it. -/
def suiteFiles : FileSystem String8 Character8 where
  entry path :=
    if path = [] ∨ path = [str "suite"] then
      some (.directory true)
    else if path = [str "suite", str "a.ent"] then
      some (.plain (str "text") true)
    else if path = [str "suite", str "b.ent"] then
      some (.link ⟨false, [.up, .down (str "outside")]⟩)
    else if path = [str "outside"] then
      some (.plain (str "secret") true)
    else
      none
  isDirectory_of_isSome := by
    intro path name h
    match path with
    | [] => rfl
    | [first] =>
      by_cases hfirst : first = str "suite"
      · rw [hfirst]
        rfl
      · simp [hfirst] at h
    | _ :: _ :: _ => simp at h

def suite : LocalSystem := ⟨suiteFiles, [], nofun⟩

def suiteResolver : LocalResolver := make suite (.ofString (str "/suite"))

example :
    (suiteResolver.resolveExternalEntityFromBase suite (str "./%61.ent")
      (some (str "/suite/d.xml"))).1 = some (str "text") := by decide +kernel

example :
    (suiteResolver.resolveExternalEntityFromBase suite (str "b.ent")
      (some (str "/suite/d.xml"))).2.lastError =
      "external resource escapes the suite or contains a symbolic link/reparse point" := by
  decide +kernel

/-- A parser of documents of the suite. -/
def suiteParser : Parser :=
  (Parser.make
    { externalEntityPolicy := .externalGeneralEntities
      externalEntityBase := some (str "/suite/d.xml") } .observing).setExternalEntityResolver
    (some (suiteResolver.resolver suite))

def suiteDocument : String8 := str "<!DOCTYPE r [<!ENTITY e SYSTEM \"a.ent\">]><r>&e;</r>"

theorem isSome_suiteAnswer :
    (suiteParser.stateAt .document 40 suiteDocument 1000).core.lastAnswer.isSome = true := by
  decide +kernel

/-- The entity of the document is read from the suite. -/
theorem local_entities_confined_suite :
    ∃ answer : Answer, answer.text = some (str "text") ∧ suiteResolver.IsConfined suite answer := by
  refine ⟨_, ?_, local_entities_confined (p := suiteParser) rfl .document 40 suiteDocument 1000
    (Option.some_get isSome_suiteAnswer).symm⟩
  decide +kernel

end LocalResolver

end Xpact
