import Statewright.Callback.Use
import Statewright.Extension
import Statewright.Hierarchy

/-!
# Running machines

A running machine owns its current state, a history, the data that callbacks work on and its
extensions. Whatever runs on it leaves a trace: the states left and entered, the callbacks called
and those that failed, and what extensions were told.
-/

namespace Statewright

open Grammar

inductive Answer
  | holds
  | refuses
  | fails (error : String)
  deriving DecidableEq, Repr

structure Host (σ υ ω : Type) where
  isOf : υ → Ty → Bool
  typeName : υ → String
  call : Callback → Option υ → σ → Answer × σ
  react : Reaction ω υ

structure Machine (σ ω : Type) where
  state : String
  history : History
  data : σ
  extensions : List ω

inductive TraceEntry (υ : Type)
  | exited (state : String)
  | entered (state : String)
  | called (callback : Callback) (payload : Option υ)
  | guardFailed (guard : Callback) (error : String)
  | effectFailed (callback : Callback) (error : String)
  | told (notice : Notice υ)

def Run (σ υ ω α : Type) : Type := Machine σ ω → α × Machine σ ω × List (TraceEntry υ)

namespace Run

variable {σ υ ω α : Type}

instance : Monad (Run σ υ ω) where
  pure a := fun m => (a, m, [])
  bind r f := fun m =>
    let (a, next, first) := r m
    let (b, last, rest) := f a next
    (b, last, first ++ rest)

def read (f : Machine σ ω → α) : Run σ υ ω α := fun m => (f m, m, [])

def change (f : Machine σ ω → Machine σ ω) : Run σ υ ω Unit := fun m => ((), f m, [])

def log (entry : TraceEntry υ) : Run σ υ ω Unit := fun m => ((), m, [entry])

def all (step : α → Run σ υ ω Bool) : List α → Run σ υ ω Bool
  | [] => pure true
  | a :: rest => do if ← step a then all step rest else pure false

def any (ask : α → Run σ υ ω Bool) : List α → Run σ υ ω Bool
  | [] => pure false
  | a :: rest => do if ← ask a then pure true else any ask rest

end Run

namespace Host

variable {σ υ ω : Type} (h : Host σ υ ω)

def payloadAs (payload : Option υ) (ty : Ty) : Option υ := payload.filter fun p => h.isOf p ty

/-- What a callback is given as its payload; nothing if it is not called for want of one. -/
def given? (c : Callback) (payload : Option υ) : Option (Option υ) :=
  match c.payloadPass with
  | .nothing => some none
  | .maybe ty => some (h.payloadAs payload ty)
  | .present ty => (h.payloadAs payload ty).map some

def invoke (c : Callback) (given : Option υ) : Run σ υ ω Answer := fun m =>
  let (answer, data) := h.call c given m.data
  (answer, { m with data }, [.called c given])

/-- Whether a guard allows a transition. A failure is logged and refuses; only what is fallible
can fail. -/
def allows (guard : Callback) (payload : Option υ) : Run σ υ ω Bool := do
  match h.given? guard payload with
  | none => pure false
  | some given =>
    match ← h.invoke guard given with
    | .holds => pure true
    | .refuses => pure false
    | .fails error =>
      if guard.fallible then
        Run.log (.guardFailed guard error)
        pure false
      else pure true

/-- Runs a callback for its effect; a failure is logged if the result is looked at. -/
def perform (c : Callback) (payload : Option υ) : Run σ υ ω Bool := do
  match h.given? c payload with
  | none => pure true
  | some given =>
    match ← h.invoke c given, c.resultUse with
    | .fails error, .inspected =>
      Run.log (.effectFailed c error)
      pure false
    | _, _ => pure true

def perform? (c : Option Callback) (payload : Option υ) : Run σ υ ω Bool :=
  match c with
  | some c => h.perform c payload
  | none => pure true

def tell (attempt : Attempt υ) (hook : Hook) : Run σ υ ω Unit := fun m =>
  let (extensions, notices) := notify h.react m.extensions ⟨attempt, hook⟩
  ((), { m with extensions }, notices.map .told)

end Host

end Statewright
