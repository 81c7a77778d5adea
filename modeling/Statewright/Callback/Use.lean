import Statewright.Callback

/-!
# Uses of callbacks

How a machine calls a callback: with which arguments, whether the call is awaited, and what is
done with its result. Both the emitted code and the execution of a model follow this.
-/

namespace Statewright

open Grammar

inductive PayloadPass
  | nothing
  | present (ty : Ty)
  | maybe (ty : Ty)

inductive ResultUse
  | ignored
  | inspected
  | dropped
  deriving DecidableEq, Repr

namespace Callback

def payloadPass (c : Callback) : PayloadPass :=
  match c.payload with
  | .required ty => .present ty
  | .optional ty => .maybe ty
  | .none | .invalid _ => .nothing

def argumentCount (c : Callback) : Nat :=
  (match c.payloadPass with
    | .nothing => 0
    | _ => 1) + if c.token = .none then 0 else 1

def isAwaited (c : Callback) (machineIsAsync : Bool) : Bool := c.isAsync && machineIsAsync

def resultUse (c : Callback) : ResultUse :=
  if c.detached then .dropped else if c.fallible then .inspected else .ignored

end Callback

end Statewright
