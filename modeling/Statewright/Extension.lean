import Statewright.Text.Quoted

/-!
# Extensions

An extension watches a machine: it is told of every attempt to take a transition, of the guard
that is evaluated for it and of the end of the attempt. It may fail on any of these; a failure is
recorded and stays without effect on the machine and on the other extensions.
-/

namespace Statewright

structure Attempt (υ : Type) where
  source : String
  trigger : String
  target : String
  payload : Option υ

inductive Hook
  | before
  | after (success : Bool)
  | evaluation (guard : String)
  | evaluated (guard : String) (result : Bool)
  deriving DecidableEq, Repr

structure Event (υ : Type) where
  attempt : Attempt υ
  hook : Hook

namespace Hook

def name : Hook → String
  | before => "before"
  | after _ => "after"
  | evaluation _ => "evaluation"
  | evaluated _ _ => "evaluated"

def method : Hook → String
  | before => "on_before_transition"
  | after _ => "on_after_transition"
  | evaluation _ => "on_guard_evaluation"
  | evaluated _ _ => "on_guard_evaluated"

def details : Hook → List String
  | before => []
  | after success => [toString success]
  | evaluation guard => [guard]
  | evaluated guard result => [guard, toString result]

end Hook

def recordText (name : String) (fields : List (String × String)) : String :=
  name ++ " \x7b " ++ ", ".intercalate (fields.map fun (field, value) => field ++ ": " ++ value) ++
    " \x7d"

def Attempt.description {υ : Type} (a : Attempt υ) : String :=
  recordText "TransitionContext"
    [("from", a.source), ("trigger", a.trigger), ("to", a.target),
     ("has_payload", toString a.payload.isSome)]

inductive Notice (υ : Type)
  | delivered (extension : Nat) (event : Event υ)
  | panicked (extension : Nat) (event : Event υ)

abbrev Reaction (ω υ : Type) := ω → Event υ → ω × Bool

/-- Tells each extension in turn of an event; `i` numbers the first of them. -/
def notifyFrom {ω υ : Type} (react : Reaction ω υ) (event : Event υ) :
    Nat → List ω → List ω × List (Notice υ)
  | _, [] => ([], [])
  | i, extension :: rest =>
    let (after, panics) := react extension event
    let (others, notices) := notifyFrom react event (i + 1) rest
    (after :: others,
      .delivered i event :: (if panics then [.panicked i event] else []) ++ notices)

def notify {ω υ : Type} (react : Reaction ω υ) (extensions : List ω) (event : Event υ) :
    List ω × List (Notice υ) :=
  notifyFrom react event 0 extensions

def logLine (level message : String) (values : List (String × String)) : String :=
  " ".intercalate (level :: message :: values.map fun (key, value) => key ++ "=" ++ value)

def panicLine {υ : Type} (extension : Nat) (event : Event υ) : String :=
  logLine "ERROR" "state machine extension panicked"
    [("hook", event.hook.method), ("extension", toString extension),
     ("from", event.attempt.source), ("trigger", event.attempt.trigger)]

structure Rejection where
  state : String
  trigger : String
  payloadType : Option String := none
  deriving DecidableEq, Repr

namespace Rejection

def message (r : Rejection) : String :=
  "no valid transition from state " ++ r.state ++ " on trigger " ++ r.trigger ++
    match r.payloadType with
    | some name => " with payload of type " ++ name
    | none => ""

def description (r : Rejection) : String :=
  let payload := match r.payloadType with
    | some name => "Some(" ++ Text.debugQuoted name ++ ")"
    | none => "None"
  recordText "InvalidTransition"
    [("state", r.state), ("trigger", r.trigger), ("payload_type", payload)]

end Rejection

end Statewright
