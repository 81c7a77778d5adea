import Statewright.Grammar.Item

/-!
# Callbacks

A callback is a method that a machine calls: a guard, an action, or what runs when a state is
entered or left. Its shape is what its signature says about how to call it.
-/

namespace Statewright

open Grammar

inductive Role
  | guard
  | action
  | onEntry
  | onExit
  deriving DecidableEq, Repr

namespace Role

def name : Role → String
  | guard => "guard"
  | action => "action"
  | onEntry => "on_entry"
  | onExit => "on_exit"

def all : List Role := [guard, action, onEntry, onExit]

def ofName? (s : String) : Option Role := all.find? (·.name == s)

end Role

inductive ReturnClass
  | syncVoid
  | asyncVoid
  /-- A handle on spawned work, which nobody awaits. -/
  | detached
  | syncBool
  | asyncBool
  /-- A future of a guard that does not resolve to a truth value. -/
  | badGuardFuture
  | unsupported
  deriving DecidableEq, Repr

inductive CallMode
  | sync
  | async
  deriving DecidableEq, Repr

def ReturnClass.mode? : ReturnClass → Option CallMode
  | syncVoid | syncBool | detached => some .sync
  | asyncVoid | asyncBool => some .async
  | badGuardFuture | unsupported => none

inductive PayloadParameter
  | none
  /-- `&P`: callable only with a payload. -/
  | required (ty : Ty)
  /-- `Option<&P>`: callable with or without one. -/
  | optional (ty : Ty)
  | invalid (ty : Ty)

namespace PayloadParameter

def type? : PayloadParameter → Option Ty
  | none => Option.none
  | required ty | optional ty | invalid ty => some ty

def isPresent (p : PayloadParameter) : Bool := p.type?.isSome

end PayloadParameter

inductive TokenParameter
  | none
  | owned
  | borrowed
  deriving DecidableEq, Repr

structure Shape where
  returns : ReturnClass
  fallible : Bool
  receiver : Receiver
  payload : PayloadParameter
  token : TokenParameter
  extraParameters : Nat

structure Callback where
  name : String
  role : Role
  isAsync : Bool := false
  fallible : Bool := false
  payload : PayloadParameter := .none
  token : TokenParameter := .none
  detached : Bool := false

namespace Callback

def expectsPayload (c : Callback) : Bool := c.payload.isPresent

def hasPlainForm (c : Callback) : Bool :=
  match c.payload with
  | .none | .optional _ => true
  | _ => false

end Callback

/-! ## The mode of a machine -/

inductive MachineMode
  | unset
  | sync
  | async
  deriving DecidableEq, Repr

namespace MachineMode

/-- The mode behind one more callback; nothing if an asynchronous callback meets a synchronous
machine. -/
def joined? : MachineMode → CallMode → Option MachineMode
  | unset, .sync => some sync
  | unset, .async => some async
  | sync, .sync => some sync
  | sync, .async => none
  | async, _ => some async

def isAsync (m : MachineMode) : Bool := m = async

end MachineMode

end Statewright
