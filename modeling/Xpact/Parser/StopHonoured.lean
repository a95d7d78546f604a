import Xpact.Parser.ElementStacks
import Xpact.Parser.StopMarkup

/-!
# Stop requests in a call

A stop that is recorded in a call is honoured at once, exactly when the run does not come to one of
the places where an event is delivered behind it.
-/

namespace Xpact

open Library Program Routine

-- A routine is one goal of instance search for each of its steps.
set_option synthInstance.maxSize 100000
set_option synthInstance.maxHeartbeats 200000

namespace Parser

/-! ## Entry points -/

section

variable (input : String8) (start i bound : Nat)

instance fresh_documentStep : HonoursFresh (documentStep bound input i) := by
  unfold documentStep; infer_instance

instance fresh_documentPrefixStep : HonoursFresh (documentPrefixStep bound input i) := by
  unfold documentPrefixStep; infer_instance

instance fresh_bodyStep (isFinal : Bool) : HonoursFresh (bodyStep bound isFinal input i) := by
  unfold bodyStep; infer_instance

instance guards_tokensFinished :
    Guards watchedRoutineMachine IsUnstopped (tokensFinished input i) false :=
  guards_finished (input.length < i)

instance honours_tokens (step : String8 → Nat → Content Nat)
    [∀ input i, HonoursFresh (step input i)] :
    HonoursContent (tokens step input start) := by
  unfold tokens; infer_instance

instance honours_checkAtEnd (condition : Scene → Bool) (message : String) :
    HonoursContent (checkAtEnd input condition message) := by
  unfold checkAtEnd; infer_instance

end

section Literal

variable (input : String8) (bound : Nat)

instance silent_externalParameterLiteralContentStart :
    IsSilent (externalParameterLiteralContentStart input) := by
  unfold externalParameterLiteralContentStart; infer_instance

instance silent_externalParameterLiteralTextStart :
    IsSilent (externalParameterLiteralTextStart input) := by
  unfold externalParameterLiteralTextStart; infer_instance

instance unstopped_externalParameterLiteral :
    HonoursUnstopped (externalParameterLiteral bound input) := by
  have hloop := unstopped_appendParameterText input bound inferInstance
  unfold externalParameterLiteral
  repeat
    first
      | refine ObeysFrom.ite (by infer_instance) ?_
      | refine ObeysFrom.bind (by infer_instance) (by infer_instance) fun _ ↦ ?_
  exact ObeysFrom.bind_obeys (hloop _ _) inferInstance

instance honours_checkParameterLiteral : HonoursContent (checkParameterLiteral bound input) := by
  unfold checkParameterLiteral; infer_instance

end Literal

theorem isOngoing_eq_false {p : Parser} (h : p.IsHalted) : p.scene.isOngoing = false := by
  show (!p.core.hasError && !p.core.isSuspended) = false
  cases h with
  | inl herror => rw [herror, Bool.not_true, Bool.false_and]
  | inr hsuspended => rw [hsuspended, Bool.not_true, Bool.and_false]

section

variable {bound : Nat} {input : String8} {isFinal : Bool} {p q : Parser}

end

end Parser

/-- A handler that asks for a stop in the first event it receives. -/
def impatientHandler : Handler :=
  { Handler.observing with
    stopRequested := fun events ↦ !events.isEmpty
    stopIsResumable := fun _ ↦ true }

end Xpact
