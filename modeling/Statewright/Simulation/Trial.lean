import Statewright.Execution
import Statewright.Simulation.Recorder

/-!
# Trials

A trial runs a machine against scripted callbacks and recorders, one operation at a time, and
keeps a log of what it does.
-/

namespace Statewright.Simulation

/-! ## Scripts -/

structure Script where
  answers : List (String × List Answer) := []
  deriving DecidableEq, Repr

namespace Script

def set (s : Script) (callback : String) (answers : List Answer) : Script :=
  ⟨(callback, answers) :: s.answers.filter (·.1 != callback)⟩

/-- The next answer of a callback. The last one is given for ever, and a callback without any
says that all is well. -/
def next (s : Script) (callback : String) : Answer × Script :=
  match s.answers.lookup callback with
  | some (answer :: rest) =>
    (answer, if rest.isEmpty then s else s.set callback rest)
  | _ => (.holds, s)

end Script

/-- Guards and callbacks that can fail follow the script; others have nothing to answer. -/
def host : Host Script Payload Recorder :=
  { isOf := fun p ty => ty.text == p.type
    typeName := Payload.type
    call := fun c _ script =>
      if c.role = .guard || c.fallible then script.next c.name else (.holds, script)
    react := Recorder.react }

/-! ## Logs -/

def shownAttempt (a : Attempt Payload) : Attempt Payload :=
  { a with
    source := Text.withoutMark a.source
    trigger := Text.withoutMark a.trigger
    target := Text.withoutMark a.target }

def shownNotice : Notice Payload → Notice Payload
  | .delivered i event => .delivered i { event with attempt := shownAttempt event.attempt }
  | .panicked i event => .panicked i { event with attempt := shownAttempt event.attempt }

def callLine (cancelled : Bool) (c : Callback) (given : Option Payload) : String :=
  let payload := match c.payloadPass with
    | .nothing => []
    | _ => [payloadText given]
  let token := if c.token = .none then [] else ["cancelled=" ++ toString cancelled]
  " ".intercalate (["call", c.name] ++ payload ++ token)

def failureLine (machine message : String) (c : Callback) (error : String) : String :=
  logLine "WARN" message
    [("machine", machine), ("callback", c.name), ("error", Text.debugQuoted error)]

def entryLines (machine : String) (cancelled : Bool) (recorders : List Recorder) :
    TraceEntry Payload → List String
  | .exited _ | .entered _ => []
  | .called c given => [callLine cancelled c given]
  | .guardFailed c error => [failureLine machine "guard failed" c error]
  | .effectFailed c error => [failureLine machine "state machine callback failed" c error]
  | .told notice => Recorder.noticeLines recorders (shownNotice notice)

/-! ## Operations -/

inductive Operation
  | tryFire (trigger : String)
  | canFire (trigger : String)
  | fire (trigger : String)
  | permitted
  | current
  | variant
  | hasTransition (trigger : String)
  | defined
  | isIn (state : String)
  | activePath
  | addExtension (recorder : Recorder)
  | answer (callback : String) (answers : List Answer)
  | cancel

inductive Result
  | nothing
  | truth (value : Bool)
  | accepted
  | rejected (rejection : Rejection)
  | name (text : String)
  | names (texts : List String)

inductive Refusal
  | payloadKind
  | unsupported
  deriving DecidableEq, Repr

namespace Operation

def takesPayload : Operation → Bool
  | tryFire _ | canFire _ | fire _ => true
  | _ => false

def ignoresPayload : Operation → Bool
  | variant | cancel => true
  | _ => false

def isOffered (e : Emission) : Operation → Bool
  | hasTransition _ | defined => e.model.config.structuralApi
  | isIn _ | activePath => e.isHierarchical
  | addExtension _ => e.isObserved
  | _ => true

def payloadRefusal? (e : Emission) (op : Operation) (p : Payload) : Option Refusal :=
  if op.ignoresPayload then none
  else match e.payload with
    | .none => some .unsupported
    | .single =>
      if op.takesPayload && e.model.defaultPayload.any (host.isOf p) then none
      else some .payloadKind
    | .multi => if op.takesPayload then none else some .payloadKind

def refusal? (e : Emission) (op : Operation) (payload : Option Payload) : Option Refusal :=
  (payload.bind (payloadRefusal? e op)).or
    (if op.isOffered e then none else some .unsupported)

end Operation

/-! ## Trials -/

structure Trial where
  emission : Emission
  machine : Machine Script Recorder
  cancelled : Bool := false

namespace Trial

def begin (e : Emission) (state : String) (script : Script) : Trial :=
  { emission := e, machine := Execution.start e state script }

def state (t : Trial) : String := Text.withoutMark t.machine.state

def shownNames (names : List String) : Result := .names (names.map Text.withoutMark)

def execute {α : Type} (t : Trial) (r : Run Script Payload Recorder α) :
    α × Trial × List String :=
  let (a, machine, trace) := r t.machine
  (a, { t with machine },
    trace.flatMap (entryLines t.emission.model.name t.cancelled t.machine.extensions))

/-- The result of firing; a rejection shows its names. -/
def fired : Except Rejection Unit → Result
  | .ok () => .accepted
  | .error r =>
    .rejected { r with state := Text.withoutMark r.state, trigger := Text.withoutMark r.trigger }

def run (t : Trial) (op : Operation) (payload : Option Payload) : Result × Trial × List String :=
  let e := t.emission
  match op with
  | .tryFire trigger => (t.execute (Execution.tryFire e host trigger payload)).map .truth id
  | .canFire trigger => (t.execute (Execution.canFire e host trigger payload)).map .truth id
  | .fire trigger => (t.execute (Execution.fire e host trigger payload)).map fired id
  | .permitted => (t.execute (Execution.permittedTriggers e host)).map shownNames id
  | .current => (.name t.state, t, [])
  | .variant => (.name e.variant.name, t, [])
  | .hasTransition trigger => (.truth (Execution.hasTransition e t.machine trigger), t, [])
  | .defined => (shownNames (Execution.definedTriggers e t.machine), t, [])
  | .isIn state => (.truth (Execution.isIn e t.machine state), t, [])
  | .activePath => (shownNames (Execution.activePath e t.machine), t, [])
  | .addExtension r =>
    (.nothing, { t with machine := Execution.addExtension t.machine r }, [])
  | .answer callback answers =>
    (.nothing, { t with machine := { t.machine with data := t.machine.data.set callback answers } },
      [])
  | .cancel => (.nothing, { t with cancelled := true }, [])

end Trial

end Statewright.Simulation
