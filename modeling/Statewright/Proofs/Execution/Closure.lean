import Statewright.Proofs.Execution.Course

/-!
# Closure

A property of computations that survives sequencing and holds of the single steps that machines
are made of holds of whole questions and transfers. What the property is decides only which steps
have to be looked at.
-/

namespace Statewright

variable {σ υ ω α : Type}

/-- The property is kept by sequencing, and guards do not break it. -/
structure Run.Closed (h : Host σ υ ω) (P : {α : Type} → Run σ υ ω α → Prop) : Prop where
  pure {α : Type} (a : α) : P (pure a)
  bind {α β : Type} {r : Run σ υ ω α} {f : α → Run σ υ ω β} :
    P r → (∀ a, P (f a)) → P (r >>= f)
  invoke c given : P (h.invoke c given)
  guardFailed guard error : P (Run.log (.guardFailed guard error))

structure Run.MoveClosed (h : Host σ υ ω) (P : {α : Type} → Run σ υ ω α → Prop) : Prop
    extends Run.Closed h P where
  log entry : entry.isTold = false → P (Run.log entry)
  settle state : P (Run.change fun m => { m with state })

variable {h : Host σ υ ω} {P : {α : Type} → Run σ υ ω α → Prop}

namespace Run.Closed

variable (closed : Run.Closed h P)
include closed

theorem andThen {first rest : Run σ υ ω Bool} (one : P first) (two : P rest) :
    P (first.andThen rest) := by
  refine closed.bind one fun holds => ?_
  cases holds
  · exact closed.pure false
  · exact two

theorem all {step : α → Run σ υ ω Bool} (each : ∀ a, P (step a)) (steps : List α) :
    P (Run.all step steps) := by
  induction steps with
  | nil => exact closed.pure true
  | cons a rest ih => exact closed.andThen (each a) ih

theorem any {ask : α → Run σ υ ω Bool} (each : ∀ a, P (ask a)) (asked : List α) :
    P (Run.any ask asked) := by
  induction asked with
  | nil => exact closed.pure false
  | cons a rest ih =>
      refine closed.bind (each a) fun holds => ?_
      cases holds
      · exact ih
      · exact closed.pure true

theorem allows (guard : Callback) (payload : Option υ) : P (h.allows guard payload) := by
  unfold Host.allows
  split
  · exact closed.pure false
  · refine closed.bind (closed.invoke guard _) fun answer => ?_
    split
    · exact closed.pure true
    · exact closed.pure false
    · split
      · exact closed.bind (closed.guardFailed guard _) fun _ => closed.pure false
      · exact closed.pure true

theorem wouldTake (payload : Option υ) (t : Transition) :
    P (Execution.wouldTake h payload t) := by
  unfold Execution.wouldTake
  split
  · exact closed.allows _ payload
  · exact closed.pure true

theorem permittedAmong (e : Emission) (state : String) (triggers : List String) :
    P (Execution.permittedAmong e h state triggers) := by
  induction triggers with
  | nil => exact closed.pure []
  | cons trigger rest ih =>
      have others (permitted : Bool) : P (do
          let others ← Execution.permittedAmong e h state rest
          return if permitted then trigger :: others else others) :=
        closed.bind ih fun _ => closed.pure _
      rw [Execution.permittedAmong]
      split
      · exact closed.bind (closed.pure true) others
      · exact closed.bind (closed.any (closed.wouldTake none) _) others

section Asking

variable (e : Emission) (current : P (Run.read Machine.state))
include current

theorem canFire (trigger : String) (payload : Option υ) :
    P (Execution.canFire e h trigger payload) := by
  rw [Execution.canFire]
  split
  · exact closed.bind current fun _ => closed.any (closed.wouldTake _) _
  · exact closed.pure false

theorem permittedTriggers : P (Execution.permittedTriggers e h) :=
  closed.bind current fun _ => closed.permittedAmong e _ _

end Asking

end Run.Closed

theorem Run.MoveClosed.perform? (closed : Run.MoveClosed h P) (c : Option Callback)
    (payload : Option υ) : P (h.perform? c payload) := by
  cases c with
  | none => exact closed.pure true
  | some c =>
      simp only [Host.perform?, Host.perform]
      split
      · exact closed.pure true
      · refine closed.bind (closed.invoke c _) fun answer => ?_
        split
        · exact closed.bind (closed.log _ rfl) fun _ => closed.pure false
        · exact closed.pure true

theorem still_closed (h : Host σ υ ω) : Run.Closed h Run.Still where
  pure := .pure
  bind := .bind
  invoke := h.invoke_still
  guardFailed := Host.guardFailed_still

theorem uniform_closed (h : Host σ υ ω) : Run.MoveClosed h Run.Uniform where
  pure := .pure
  bind := .bind
  invoke c given := (h.invoke_still c given).uniform
  guardFailed _ _ := fun _ _ same => ⟨rfl, same, rfl⟩
  log _ _ := fun _ _ same => ⟨rfl, same, rfl⟩
  settle _ := fun _ _ same => ⟨rfl, same, rfl⟩

end Statewright
