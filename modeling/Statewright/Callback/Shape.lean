import Statewright.Callback

/-!
# Shapes of signatures

Reads from a method's signature how it is called in a given role. All spellings of a future are
alike: an asynchronous method, `impl` and `dyn` types with a future among their bounds, boxed and
pinned ones, and the usual aliases.
-/

namespace Statewright

open Grammar

namespace Shape

inductive Resolved
  | unit
  | bool
  | other
  deriving DecidableEq, Repr

def resolved : Ty → Resolved
  | .tuple [] _ => .unit
  | .paren inner | .group inner => resolved inner
  | .path p => if p.word? = some "bool" then .bool else .other
  | _ => .other

def isNamed (t : Ty) (name : String) : Bool := (t.lastSegment?.map Segment.ident) == some name

def firstArgument? (t : Ty) : Option Ty := t.lastSegment?.bind (·.typeArguments.head?)

def successType? (t : Ty) : Option Ty :=
  if isNamed t "Result" then firstArgument? t else none

def outcome : Option Ty → Resolved × Bool
  | none => (.unit, false)
  | some t =>
    match successType? t with
    | some success => (resolved success, true)
    | none => (resolved t, false)

/-- The output that the first future among some bounds declares: nothing if there is no future. -/
def boundOutput? : List Bound → Option (Option Ty)
  | [] => none
  | .trait _ _ p :: rest =>
    match p.last? with
    | some (.mk "Future" arguments) => some (declaredOutput arguments)
    | _ => boundOutput? rest
  | _ :: rest => boundOutput? rest
where
  declaredOutput : Arguments → Option Ty
    | .angle _ arguments _ => arguments.findSome? fun
      | .binding "Output" _ t => some t
      | _ => none
    | _ => none

mutual

def futureOutput? : Ty → Option (Option Ty)
  | .implBound bounds _ | .object _ bounds _ => boundOutput? bounds
  | .paren inner | .group inner => futureOutput? inner
  | .path p => pathOutput? p
  | _ => none

def pathOutput? : Path → Option (Option Ty)
  | .mk _ segments => lastOutput? segments

def lastOutput? : List Segment → Option (Option Ty)
  | [] => none
  | [s] => segmentOutput? s
  | _ :: s :: rest => lastOutput? (s :: rest)

/-- An alias of a boxed future names its output first; a pin or a box holds the future. -/
def segmentOutput? : Segment → Option (Option Ty)
  | .mk name arguments =>
    if name == "BoxFuture" || name == "LocalBoxFuture" then
      some (Segment.mk name arguments).typeArguments.head?
    else if name == "Pin" || name == "Box" then heldOutput? arguments
    else none

def heldOutput? : Arguments → Option (Option Ty)
  | .angle _ arguments _ => firstTypeOutput? arguments
  | _ => none

def firstTypeOutput? : List Argument → Option (Option Ty)
  | [] => none
  | .type t :: _ => futureOutput? t
  | _ :: rest => firstTypeOutput? rest

end

def asyncClass (what : Resolved) (isGuard : Bool) : ReturnClass :=
  match what, isGuard with
  | .bool, true => .asyncBool
  | _, true => .badGuardFuture
  | .unit, false => .asyncVoid
  | _, false => .unsupported

def syncClass (what : Resolved) (isGuard : Bool) : ReturnClass :=
  match what, isGuard with
  | .bool, true => .syncBool
  | .unit, false => .syncVoid
  | _, _ => .unsupported

def returned (isAsync : Bool) (output : Option Ty) (isGuard : Bool) : ReturnClass × Bool :=
  if isAsync then
    let (what, fallible) := outcome output
    (asyncClass what isGuard, fallible)
  else match output with
    | none => (if isGuard then .unsupported else .syncVoid, false)
    | some t =>
      if isNamed t "JoinHandle" then (if isGuard then .badGuardFuture else .detached, false)
      else match futureOutput? t with
        | some (some inner) =>
          let (what, fallible) := outcome (some inner)
          (asyncClass what isGuard, fallible)
        | some none => (if isGuard then .badGuardFuture else .unsupported, false)
        | none =>
          let (what, fallible) := outcome (some t)
          (syncClass what isGuard, fallible)

def tokenParameter (t : Ty) : TokenParameter :=
  match t with
  | .reference _ _ target =>
    if isNamed target "CancellationToken" then .borrowed else .none
  | _ => if isNamed t "CancellationToken" then .owned else .none

def payloadParameter (t : Ty) : PayloadParameter :=
  match t with
  | .reference _ false target => .required target
  | _ =>
    if isNamed t "Option" then
      match firstArgument? t with
      | some (.reference _ false target) => .optional target
      | _ => .invalid t
    else .invalid t

def splitToken (parameters : List Ty) : TokenParameter × List Ty :=
  match parameters.getLast? with
  | some last =>
    match tokenParameter last with
    | .none => (.none, parameters)
    | token => (token, parameters.dropLast)
  | none => (.none, [])

def ofSignature (receiver : Receiver) (parameters : List Ty) (output : Option Ty) (isAsync : Bool)
    (role : Role) : Shape :=
  let (returns, fallible) := returned isAsync output (role = .guard)
  let (token, others) := splitToken parameters
  { returns
    fallible
    receiver
    payload := match others with
      | [] => .none
      | t :: _ => payloadParameter t
    token
    extraParameters := others.length - 1 }

end Shape

end Statewright
