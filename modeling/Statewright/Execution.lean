import Statewright.Execution.Transfer
import Statewright.Emit

/-!
# Execution

What the emitted code of a machine does when it runs: how it starts, how a trigger is dispatched
to the candidates of the current state, and how its questions are answered.
-/

namespace Statewright.Execution

variable {σ υ ω : Type} (e : Emission) (h : Host σ υ ω)

/-- A new machine. One with nested states settles in a leaf; no callback runs. -/
def start (state : String) (data : σ) : Machine σ ω :=
  let history := History.ofSize (if e.isHierarchical then e.model.states.length else 0)
  let settled :=
    if e.isHierarchical then
      stateAt e (e.model.hierarchy.resolveEntry history (e.stateIndex state))
    else state
  { state := settled, history, data, extensions := [] }

/-! ## Payloads -/

def visible (payload : Option υ) : Option υ := if e.carriesPayload then payload else none

def enforced? (trigger : String) : Option Grammar.Ty :=
  if e.payload = .multi then
    (e.model.payloadArms.find? fun (pattern, _) => pattern.all (· == trigger)).map (·.2)
  else none

def passes (trigger : String) (payload : Option υ) : Bool :=
  match payload, enforced? e trigger with
  | some p, some ty => h.isOf p ty
  | _, _ => true

/-! ## Dispatch -/

inductive Verdict
  | denied
  | failed
  | taken
  deriving DecidableEq, Repr

def tell (a : Attempt υ) (hook : Hook) : Run σ υ ω Unit :=
  if e.isObserved then h.tell a hook else pure ()

/-- Whether the guard of a candidate allows it; extensions are told of the question and of the
answer. -/
def allowed (a : Attempt υ) (t : Transition) : Run σ υ ω Bool := do
  match t.guard with
  | none => pure true
  | some guard =>
    tell e h a (.evaluation guard.name)
    let result ← h.allows guard a.payload
    tell e h a (.evaluated guard.name result)
    pure result

def attempt (state : String) (t : Transition) (payload : Option υ) : Run σ υ ω Verdict := do
  let a : Attempt υ := { source := state, trigger := t.trigger, target := t.target, payload }
  tell e h a .before
  if ← allowed e h a t then
    if ← transfer e h payload t then
      tell e h a (.after true)
      pure .taken
    else
      tell e h a (.after false)
      pure .failed
  else
    tell e h a (.after false)
    pure .denied

/-- Tries candidates in order; only a guard that refuses leads on to the next one. -/
def tryCandidates (state : String) (payload : Option υ) : List Transition → Run σ υ ω Bool
  | [] => pure false
  | t :: rest => do
    match ← attempt e h state t payload with
    | .taken => pure true
    | .failed => pure false
    | .denied => tryCandidates state payload rest

/-- Fires a trigger; tells whether a transition was taken. -/
def tryFire (trigger : String) (payload : Option υ) : Run σ υ ω Bool := do
  let payload := visible e payload
  if passes e h trigger payload then
    let state ← Run.read Machine.state
    tryCandidates e h state payload (consulted (e.model.candidatesOn state trigger))
  else pure false

def fire (trigger : String) (payload : Option υ) : Run σ υ ω (Except Rejection Unit) := do
  let state ← Run.read Machine.state
  if ← tryFire e h trigger payload then pure (.ok ())
  else pure (.error { state, trigger, payloadType := payload.map h.typeName })

/-! ## Questions -/

def wouldTake (payload : Option υ) (t : Transition) : Run σ υ ω Bool :=
  match t.guard with
  | some guard => h.allows guard payload
  | none => pure true

/-- Whether a trigger would be taken now. Guards are asked, and nothing else runs. -/
def canFire (trigger : String) (payload : Option υ) : Run σ υ ω Bool := do
  let payload := visible e payload
  if passes e h trigger payload then
    let state ← Run.read Machine.state
    Run.any (wouldTake h payload) (consulted (e.model.candidatesOn state trigger))
  else pure false

/-- The triggers that would be taken now, among the given ones; no guard is asked of a trigger
with a candidate that needs none. -/
def permittedAmong (state : String) : List String → Run σ υ ω (List String)
  | [] => pure []
  | trigger :: rest => do
    let candidates := e.model.candidatesOn state trigger
    let permitted ←
      if anyUnguarded candidates then pure true
      else Run.any (wouldTake h none) (consulted candidates)
    let others ← permittedAmong state rest
    pure (if permitted then trigger :: others else others)

def permittedTriggers : Run σ υ ω (List String) := do
  let state ← Run.read Machine.state
  permittedAmong e h state (e.model.sortedTriggers state)

/-- The table of the first state with this name that has one. -/
def listedTriggers (state : String) : List String :=
  match e.handling.find? (·.name == state) with
  | some s => e.model.definedTriggers s.name
  | none => []

def matchesPattern (state trigger : String) : Bool :=
  e.handling.any fun s => s.name == state && (e.model.definedTriggers s.name).contains trigger

/-- The triggers with a candidate in the current state, whatever its guard would say. -/
def definedTriggers (m : Machine σ ω) : List String := listedTriggers e m.state

def hasTransition (m : Machine σ ω) (trigger : String) : Bool := matchesPattern e m.state trigger

def isIn (m : Machine σ ω) (state : String) : Bool :=
  e.model.hierarchy.isIn (e.stateIndex m.state) (e.stateIndex state)

def activePath (m : Machine σ ω) : List String :=
  (e.model.hierarchy.activePath (e.stateIndex m.state)).map (stateAt e)

def addExtension (m : Machine σ ω) (extension : ω) : Machine σ ω :=
  { m with extensions := m.extensions ++ [extension] }

end Statewright.Execution
