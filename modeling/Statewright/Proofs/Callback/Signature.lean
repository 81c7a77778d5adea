import Mathlib.Data.List.Basic
import Statewright.Check.Signature

/-!
# Signatures that pass

What is known of a method whose signature has no error in its role: how its parameters split into a
payload and a token, whether its result is awaited, and whether it can fail.
-/

namespace Statewright

open Grammar

namespace Shape

def isToken (t : Ty) : Bool := tokenParameter t ≠ .none

theorem tokenParameter_cases (t : Ty) :
    (∃ lifetime exclusive target, t = .reference lifetime exclusive target ∧
        isNamed target "CancellationToken" ∧ tokenParameter t = .borrowed) ∨
      (isNamed t "CancellationToken" ∧ tokenParameter t = .owned) ∨ tokenParameter t = .none := by
  unfold tokenParameter
  split
  · next lifetime exclusive target =>
      split
      · next named => exact .inl ⟨lifetime, exclusive, target, rfl, named, rfl⟩
      · exact .inr (.inr rfl)
  · split
    · next named => exact .inr (.inl ⟨named, rfl⟩)
    · exact .inr (.inr rfl)

theorem payloadParameter_cases (t : Ty) :
    (∃ lifetime target, t = .reference lifetime false target ∧
        payloadParameter t = .required target) ∨
      (∃ lifetime target, isNamed t "Option" ∧
        firstArgument? t = some (.reference lifetime false target) ∧
          payloadParameter t = .optional target) ∨
      payloadParameter t = .invalid t := by
  unfold payloadParameter
  split
  · next lifetime target => exact .inl ⟨lifetime, target, rfl, rfl⟩
  · split
    · next named =>
        split
        · next lifetime target held => exact .inr (.inl ⟨lifetime, target, named, held, rfl⟩)
        · exact .inr (.inr rfl)
    · exact .inr (.inr rfl)

theorem splitToken_cases (parameters : List Ty) :
    (∃ last, isToken last ∧ parameters = (splitToken parameters).2 ++ [last] ∧
        (splitToken parameters).1 = tokenParameter last) ∨
      (∀ last ∈ parameters.getLast?, ¬isToken last) ∧
        splitToken parameters = (.none, parameters) := by
  unfold splitToken
  cases ends : parameters.getLast? with
  | none =>
      obtain rfl := List.getLast?_eq_none_iff.mp ends
      exact .inr ⟨by simp, rfl⟩
  | some last =>
      have split := List.dropLast_append_getLast? last ends
      cases token : tokenParameter last with
      | none => exact .inr ⟨by simp [isToken, token], by simp [token]⟩
      | owned => exact .inl ⟨last, by simp [isToken, token], by simp [token, split], by simp [token]⟩
      | borrowed =>
          exact .inl ⟨last, by simp [isToken, token], by simp [token, split], by simp [token]⟩

theorem lastOutput?_eq (segments : List Segment) :
    lastOutput? segments = segments.getLast?.bind segmentOutput? := by
  induction segments with
  | nil => simp [lastOutput?]
  | cons s rest ih =>
      cases rest with
      | nil => simp [lastOutput?]
      | cons next rest => simpa [lastOutput?] using ih

theorem futureOutput?_named {name : String}
    (plain : name ≠ "BoxFuture" ∧ name ≠ "LocalBoxFuture" ∧ name ≠ "Pin" ∧ name ≠ "Box") (t : Ty)
    (named : isNamed t name) : futureOutput? t = none := by
  fun_induction Ty.lastSegment? t with
  | case1 p =>
      obtain ⟨absolute, segments⟩ := p
      have last : (segments.getLast?.map Segment.ident) = some name := by
        simpa [isNamed, Ty.lastSegment?, Path.last?, Path.segments] using named
      obtain ⟨⟨ident, arguments⟩, found, rfl⟩ := Option.map_eq_some_iff.mp last
      simp only [Segment.ident] at plain
      simp [futureOutput?, pathOutput?, lastOutput?_eq, found, segmentOutput?, plain]
  | case2 inner ih => exact ih named
  | case3 t other none => simp [isNamed, Ty.lastSegment?] at named

theorem resolved_named {name : String} (plain : name ≠ "bool") (t : Ty) (named : isNamed t name) :
    resolved t = .other := by
  fun_induction Ty.lastSegment? t with
  | case1 p =>
      have other : p.word? ≠ some "bool" := by
        intro word
        unfold Path.word? at word
        split at word
        · cases word
          simp [isNamed, Ty.lastSegment?, Path.last?, Path.segments, Segment.ident] at named
          exact plain named.symm
        · cases word
      simp [resolved, other]
  | case2 inner ih => exact ih named
  | case3 t other none => simp [isNamed, Ty.lastSegment?] at named

theorem outcome_fallible {output : Option Ty} (usable : (outcome output).1 ≠ .other) :
    (outcome output).2 ↔ ∃ t, output = some t ∧ isNamed t "Result" := by
  cases output with
  | none => simp [outcome]
  | some t =>
      cases named : isNamed t "Result" with
      | false => simp [outcome, successType?, named]
      | true =>
          cases success : firstArgument? t with
          | some inner => simp [outcome, successType?, named, success]
          | none =>
              simp [outcome, successType?, named, success,
                resolved_named (by decide : "Result" ≠ "bool") t named] at usable

def awaitedType (isAsync : Bool) (output : Option Ty) : Option Ty :=
  if isAsync then output else output.bind fun t => (futureOutput? t).getD (some t)

def isAwaitable (isAsync : Bool) (output : Option Ty) : Bool :=
  isAsync || (output.bind futureOutput?).isSome

theorem asyncClass_usable {what : Resolved} {isGuard : Bool}
    (usable : (asyncClass what isGuard).mode?.isSome) :
    (asyncClass what isGuard).mode? = some .async ∧ what ≠ .other := by
  cases what <;> cases isGuard <;> simp_all [asyncClass, ReturnClass.mode?]

theorem syncClass_usable {what : Resolved} {isGuard : Bool}
    (usable : (syncClass what isGuard).mode?.isSome) :
    (syncClass what isGuard).mode? = some .sync ∧ what ≠ .other := by
  cases what <;> cases isGuard <;> simp_all [syncClass, ReturnClass.mode?]

section Returned

variable {isGuard : Bool}

theorem returned_value {t : Ty}
    (usable : (returned false (some t) isGuard).1.mode?.isSome) :
    ((returned false (some t) isGuard).1.mode? = some .async ↔ (futureOutput? t).isSome) ∧
      ((returned false (some t) isGuard).2 ↔
        ∃ r, (futureOutput? t).getD (some t) = some r ∧ isNamed r "Result") := by
  simp only [returned, Bool.false_eq_true, if_false] at usable ⊢
  cases joined : isNamed t "JoinHandle" with
  | true =>
      have ready := futureOutput?_named (by decide) t joined
      have other : isNamed t "Result" = false := by
        simp only [isNamed, beq_iff_eq] at joined
        simp [isNamed, joined]
      cases isGuard with
      | true => simp [joined, ReturnClass.mode?] at usable
      | false => simp [ready, other, ReturnClass.mode?]
  | false =>
      simp only [joined, Bool.false_eq_true, if_false] at usable ⊢
      match future : futureOutput? t with
      | none =>
          simp only [future] at usable ⊢
          obtain ⟨sync, used⟩ := syncClass_usable usable
          simp [sync, outcome_fallible used]
      | some none =>
          simp only [future] at usable
          cases isGuard <;> cases usable
      | some (some inner) =>
          simp only [future] at usable ⊢
          obtain ⟨async, used⟩ := asyncClass_usable usable
          simp [async, outcome_fallible used]

theorem returned_usable {isAsync : Bool} {output : Option Ty}
    (usable : (returned isAsync output isGuard).1.mode?.isSome) :
    ((returned isAsync output isGuard).1.mode? = some .async ↔ isAwaitable isAsync output) ∧
      ((returned isAsync output isGuard).2 ↔
        ∃ t, awaitedType isAsync output = some t ∧ isNamed t "Result") := by
  cases isAsync with
  | true =>
      simp only [returned, if_true] at usable ⊢
      obtain ⟨async, used⟩ := asyncClass_usable usable
      simp [isAwaitable, awaitedType, async, outcome_fallible used]
  | false =>
      cases output with
      | none => cases isGuard <;> simp [returned, isAwaitable, awaitedType, ReturnClass.mode?]
      | some t => simpa [isAwaitable, awaitedType] using returned_value usable

theorem returned_detached (isAsync : Bool) (output : Option Ty) :
    (returned isAsync output isGuard).1 = .detached →
      (returned isAsync output isGuard).2 = false := by
  have async (what : Resolved) : asyncClass what isGuard ≠ .detached := by
    cases what <;> cases isGuard <;> simp [asyncClass]
  have sync (what : Resolved) : syncClass what isGuard ≠ .detached := by
    cases what <;> cases isGuard <;> simp [syncClass]
  unfold returned
  split
  · exact fun detached => absurd detached (async _)
  · split
    · exact fun _ => rfl
    · split
      · exact fun _ => rfl
      · split
        · exact fun detached => absurd detached (async _)
        · exact fun _ => rfl
        · exact fun detached => absurd detached (sync _)

end Returned

end Shape

namespace Check

variable {name : String} {role : Role} {expected : ExpectedPayload} {forced : Bool} {s : Shape}

theorem receiverFindings_passed {invalid : SignatureProblem → Finding} {receiver : Receiver}
    (error : ∀ problem, (invalid problem).isError)
    (passed : (receiverFindings invalid role receiver).any Finding.isError = false) :
    receiver = .shared ∨ receiver = .exclusive ∧ role ≠ .guard := by
  cases receiver with
  | shared => exact .inl rfl
  | exclusive =>
      refine .inr ⟨rfl, fun guard => ?_⟩
      simp [receiverFindings, guard, error] at passed
  | none => simp [receiverFindings, error] at passed
  | owned => simp [receiverFindings, error] at passed

theorem payloadFindings_passed {invalid : SignatureProblem → Finding} {ty : Ty}
    (error : ∀ problem, (invalid problem).isError)
    (passed : (payloadFindings invalid name role expected forced (.invalid ty)).any
      Finding.isError = false) : role = .guard ∧ forced ∧ expected = .none := by
  cases expected with
  | none =>
      cases role <;> cases forced <;>
        simp_all [payloadFindings, PayloadParameter.type?, Finding.isError, Finding.severity,
          Finding.rule, Rule.severity]
  | any => simp [payloadFindings, PayloadParameter.type?, error] at passed
  | type expected => simp [payloadFindings, PayloadParameter.type?, error] at passed

/-- A signature without errors; what has a payload in no form is left to guards of forced variants
that carry none. -/
theorem callbackSignature_passed
    (passed : (callbackSignature name role (some s) expected forced).any Finding.isError = false) :
    (s.receiver = .shared ∨ s.receiver = .exclusive ∧ role ≠ .guard) ∧ s.returns.mode?.isSome ∧
      s.extraParameters = 0 ∧
      ∀ ty, s.payload = .invalid ty → role = .guard ∧ forced ∧ expected = .none := by
  have error (problem : SignatureProblem) : (Finding.signature name role expected problem).isError :=
    rfl
  simp only [callbackSignature, List.any_append, Bool.or_eq_false_iff] at passed
  obtain ⟨⟨receiver, returns⟩, rest⟩ := passed
  refine ⟨receiverFindings_passed error receiver, ?_, ?_, ?_⟩
  · cases what : s.returns with
    | badGuardFuture => simp [what, returnFindings, Finding.isError, Finding.severity,
        Finding.rule, Rule.severity] at returns
    | unsupported => simp [what, returnFindings, error] at returns
    | _ => rfl
  · by_contra several
    simp [Nat.pos_of_ne_zero several, error] at rest
  · intro ty invalid
    split at rest
    · simp [error] at rest
    · rw [invalid] at rest
      exact payloadFindings_passed error rest

theorem tokenParameter_passed {token : TokenParameter} {isAsync : Bool}
    (passed : (tokenParameter name role token isAsync).any Finding.isError = false) :
    token = .none ∨ isAsync := by
  cases token with
  | none => exact .inl rfl
  | owned => cases isAsync <;> simp_all [tokenParameter, Finding.isError, Finding.severity,
      Finding.rule, Rule.severity]
  | borrowed => cases isAsync <;> simp_all [tokenParameter, Finding.isError, Finding.severity,
      Finding.rule, Rule.severity]

end Check

end Statewright
