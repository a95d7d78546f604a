import Xpact.Parser.Replay

/-!
# A parser that is used again

Every entry point begins with a reset.  Whatever a parser has read before, and however that ended, it
reads the next text as a new parser does (`reuse_eq_fresh`); only the resolver of the application may
remember what it was asked.
-/

namespace Xpact

open Library Program

namespace Parser

/-! ## Histories -/

/-- The states that calls lead to, whatever they read and however they end. -/
inductive Used (p : Parser) : Parser → Prop where
  | unused : Used p p
  | call {entry : Entry} {bound : Nat} {input : String8} {q r : Parser} {ok : Bool} (h : Used p q)
      (hcall : q.call entry bound input = some (ok, r)) : Used p r
  | cachedCall {bound : Nat} {input : String8} {isFinal : Bool} {q r : Parser} {ok : Bool}
      (h : Used p q) (hcall : q.parseWithCachedDoctype bound input isFinal = some (ok, r)) :
      Used p r

/-- How a parser is set up: what no call changes. -/
structure Setup extends Settings where
  externalEntityResolver : Option Resolver

def setup (p : Parser) : Setup := ⟨p.settings, p.externalEntityResolver⟩

theorem step_setup (a : Act) (p : Parser) : (p.step a).setup = p.setup := by
  simp only [setup, step_settings, step_resolver]

theorem setup_of_run {α : Type} {m : Content α} {p q : Parser} {a : α}
    (hrun : m.run machine p = some (a, q)) : q.setup = p.setup :=
  run_unchanged setup step_setup hrun

@[simp] theorem setup_listen (p : Parser) : p.listen.setup = p.setup := rfl

@[simp] theorem setup_reset (p : Parser) : p.reset.setup = p.setup := rfl

@[simp] theorem setup_setError (p : Parser) (message : String) :
    (p.setError message).setup = p.setup := by
  unfold setError
  split <;> rfl

@[simp] theorem setup_dropStaleDoctype (p : Parser) (input : String8) :
    (p.dropStaleDoctype input).setup = p.setup := by
  unfold dropStaleDoctype
  split
  · split <;> rfl
  · rfl

/-! ## Calls -/

section

variable {bound : Nat} {input : String8} {p q : Parser} {ok : Bool}

theorem setup_call {entry : Entry} (hp : p.core.parsingExternalEntity = false)
    (hcall : p.call entry bound input = some (ok, q)) : q.setup = p.setup := by
  have hsettings := call_settings hp hcall
  obtain ⟨⟨ok', r⟩, hrun, hr⟩ := Option.map_eq_some_iff.1 hcall
  obtain ⟨-, rfl⟩ := Prod.mk.inj hr
  have hresolver : r.externalEntityResolver = p.externalEntityResolver :=
    congrArg Setup.externalEntityResolver (setup_of_run hrun)
  show Setup.mk (r.finish entry).settings r.externalEntityResolver = p.setup
  rw [hsettings, hresolver]
  rfl

theorem setup_prepareCachedDoctype {isFinal prepared : Bool}
    (h : p.prepareCachedDoctype bound input isFinal = some (prepared, q)) : q.setup = p.setup := by
  unfold prepareCachedDoctype at h
  dsimp only at h
  split at h
  · obtain ⟨⟨ok, r⟩, hrun, hr⟩ := Option.map_eq_some_iff.1 h
    obtain ⟨-, rfl⟩ := Prod.mk.inj hr
    have hsetup : r.setup = p.setup := (setup_of_run hrun).trans (setup_reset p)
    split
    · exact hsetup
    · exact hsetup
  · obtain ⟨-, rfl⟩ := Prod.mk.inj (Option.some.inj h)
    rfl

theorem setup_cachedDocument {isFinal : Bool}
    (h : p.cachedDocument bound input isFinal = some (ok, q)) : q.setup = p.setup := by
  unfold cachedDocument at h
  obtain ⟨⟨prepared, r⟩, hprepare, hrest⟩ := Option.bind_eq_some_iff.1 h
  have hsetup : r.setup = p.setup := by
    rw [setup_prepareCachedDoctype hprepare, setup_dropStaleDoctype]
  dsimp only at hrest
  split at hrest
  · obtain ⟨⟨result, t⟩, hrun, ht⟩ := Option.bind_eq_some_iff.1 hrest
    obtain ⟨-, rfl⟩ := Prod.mk.inj (Option.some.inj ht)
    have hbody : t.setup = p.setup := (setup_of_run hrun).trans hsetup
    split
    · exact hbody
    · exact hbody
  · split at hrest
    · obtain ⟨-, rfl⟩ := Prod.mk.inj (Option.some.inj hrest)
      exact hsetup
    · exact (setup_of_run hrest).trans hsetup

theorem setup_parseWithCachedDoctype {isFinal : Bool}
    (h : p.parseWithCachedDoctype bound input isFinal = some (ok, q)) : q.setup = p.setup := by
  unfold parseWithCachedDoctype at h
  split at h
  · obtain ⟨-, rfl⟩ := Prod.mk.inj (Option.some.inj h)
    rw [setup_setError, setup_reset, setup_listen]
  · exact (setup_cachedDocument h).trans (setup_listen p)

/-- No history changes how the parser is set up. -/
theorem Used.setup_eq (h : p.Used q) (hp : p.core.parsingExternalEntity = false) :
    q.setup = p.setup := by
  induction h with
  | unused => rfl
  | call _ hcall ih =>
    have hinside := congrArg (fun s : Setup ↦ s.parsingExternalEntity) ih
    exact (setup_call (hinside.trans hp) hcall).trans ih
  | cachedCall _ hcall ih => exact (setup_parseWithCachedDoctype hcall).trans ih

/-- The reset at the beginning of a call leaves nothing but the setup and what the resolver was
asked. -/
theorem start_eq_of_setup (entry : Entry) (hsetup : q.setup = p.setup) :
    q.start entry = { p with requests := q.requests }.start entry := by
  simp only [setup, Setup.mk.injEq, settings, Settings.mk.injEq, Declarations.inheritance,
    Inheritance.mk.injEq] at hsetup
  obtain ⟨⟨hconfig, hhandler, ⟨hcontext, hdisabled, hstandalone, hactive⟩, hexternal, hutf8⟩,
    hresolver⟩ := hsetup
  simp only [start, listen, reset, clearCachedDoctype, Declarations.reset,
    Declarations.installInheritedEntityContext, Declarations.inheritedContext, hconfig, hhandler,
    hcontext, hdisabled, hstandalone, hactive, hexternal, hutf8, hresolver]

end

/-- A parser as an application sets it up. -/
def fresh (config : Config) (handler : Handler) (inputIsUtf8 : Bool) (resolver : Option Resolver) :
    Parser :=
  ((make config handler).setInputIsUtf8 inputIsUtf8).setExternalEntityResolver resolver

end Parser

/-- After any history of calls, each ended by success, an error or a stop of the handler, an entry
point does what it does on a new parser whose resolver has been asked the same: it has the same result
and leaves the same parser, with the same events, error, position and tables. -/
theorem reuse_eq_fresh (config : Config) (handler : Handler) (inputIsUtf8 : Bool)
    (resolver : Option Resolver) {q : Parser}
    (hq : (Parser.fresh config handler inputIsUtf8 resolver).Used q) (entry : Entry) (bound : Nat)
    (input : String8) :
    q.call entry bound input =
      { Parser.fresh config handler inputIsUtf8 resolver with
        requests := q.requests }.call entry bound input := by
  have hsetup := hq.setup_eq rfl
  unfold Parser.call
  rw [Parser.start_eq_of_setup entry hsetup]

/-- A new parser that reports everything. -/
def freshObserver : Parser := Parser.fresh {} .observing true none

theorem isSome_unclosed : (freshObserver.call .document 2 (str "<a><b>")).isSome = true := by
  decide +kernel

/-- What an unclosed document leaves. -/
def afterUnclosed : Bool × Parser :=
  (freshObserver.call .document 2 (str "<a><b>")).get isSome_unclosed

/-- After the unclosed document, the next one is read as by a new parser. -/
theorem reuse_eq_fresh_afterUnclosed :
    afterUnclosed.2.call .document 2 (str "<c/>") =
      { freshObserver with requests := afterUnclosed.2.requests }.call .document 2 (str "<c/>") := by
  have hcall : freshObserver.call .document 2 (str "<a><b>") =
      some (afterUnclosed.1, afterUnclosed.2) := (Option.some_get isSome_unclosed).symm
  exact reuse_eq_fresh {} .observing true none (.call .unused hcall) .document 2 (str "<c/>")

end Xpact
