import Statewright.Declaration.Arguments

/-!
# Declarations

The five attributes that declare a machine: the machine itself, its transitions, its internal
transitions, its states and the payload types of its triggers.
-/

namespace Statewright

open Grammar Declaration

structure MachineArguments where
  state : Option Path := none
  trigger : Option Path := none
  payload : Option Ty := none
  variant : Option Variant := none
  extensions : Bool := false
  structuralApi : Bool := false
  continueOnCapturedContext : Bool := false
  hierarchy : Bool := false

structure TransitionArguments where
  source : Reference
  trigger : Reference
  target : Reference
  guard : Option String := none
  action : Option String := none

structure InternalArguments where
  state : Reference
  trigger : Reference
  action : String
  guard : Option String := none

structure StateArguments where
  state : Reference
  onEntry : Option String := none
  onExit : Option String := none
  parent : Option Reference := none
  initial : Bool := false
  history : HistoryMode := .none

/-- The arguments of a payload type; no trigger stands for the whole machine. -/
structure PayloadArguments where
  ty : Ty
  trigger : Option Reference := none

namespace MachineArguments

def slots : List (Slot MachineArguments) :=
  [.ofReader "state" typePath fun s v => { s with state := some v },
   .ofReader "trigger" typePath fun s v => { s with trigger := some v },
   .ofReader "payload" payloadType fun s v => { s with payload := some v },
   .ofReader "variant" Declaration.variant fun s v => { s with variant := some v },
   .ofTruth "extensions" fun s v => { s with extensions := v },
   .ofTruth "structural_api" fun s v => { s with structuralApi := v },
   .ofTruth "continue_on_captured_context" fun s v => { s with continueOnCapturedContext := v },
   .ofTruth "hierarchy" fun s v => { s with hierarchy := v }]

def read (a : Attribute) : Except (List ArgumentError) MachineArguments :=
  readAttribute slots {} a

end MachineArguments

namespace TransitionArguments

structure Draft where
  source : Option Reference := none
  trigger : Option Reference := none
  target : Option Reference := none
  guard : Option String := none
  action : Option String := none

def slots : List (Slot Draft) :=
  [.ofReader "from" reference (fun s v => { s with source := some v }) true,
   .ofReader "trigger" reference (fun s v => { s with trigger := some v }) true,
   .ofReader "to" reference (fun s v => { s with target := some v }) true,
   .ofReader "guard" methodName fun s v => { s with guard := some v },
   .ofReader "action" methodName fun s v => { s with action := some v }]

def finish (d : Draft) : Except (List ArgumentError) TransitionArguments :=
  match d.source, d.trigger, d.target with
  | some source, some trigger, some target =>
    .ok { source, trigger, target, guard := d.guard, action := d.action }
  | _, _, _ => .error []

def read (a : Attribute) : Except (List ArgumentError) TransitionArguments :=
  readAttribute slots {} a >>= finish

end TransitionArguments

namespace InternalArguments

structure Draft where
  state : Option Reference := none
  trigger : Option Reference := none
  action : Option String := none
  guard : Option String := none

def slots : List (Slot Draft) :=
  [.ofReader "state" reference (fun s v => { s with state := some v }) true,
   .ofReader "trigger" reference (fun s v => { s with trigger := some v }) true,
   .ofReader "action" methodName (fun s v => { s with action := some v }) true,
   .ofReader "guard" methodName fun s v => { s with guard := some v }]

def finish (d : Draft) : Except (List ArgumentError) InternalArguments :=
  match d.state, d.trigger, d.action with
  | some state, some trigger, some action => .ok { state, trigger, action, guard := d.guard }
  | _, _, _ => .error []

def read (a : Attribute) : Except (List ArgumentError) InternalArguments :=
  readAttribute slots {} a >>= finish

end InternalArguments

namespace StateArguments

structure Draft where
  state : Option Reference := none
  onEntry : Option String := none
  onExit : Option String := none
  parent : Option Reference := none
  initial : Bool := false
  history : HistoryMode := .none

def slots : List (Slot Draft) :=
  [.ofReader "state" reference (fun s v => { s with state := some v }) true,
   .ofReader "on_entry" methodName fun s v => { s with onEntry := some v },
   .ofReader "on_exit" methodName fun s v => { s with onExit := some v },
   .ofReader "parent" reference fun s v => { s with parent := some v },
   .ofTruth "initial" fun s v => { s with initial := v },
   .ofReader "history" historyMode fun s v => { s with history := v }]

def finish (d : Draft) : Except (List ArgumentError) StateArguments :=
  match d.state with
  | some state =>
    .ok { state, onEntry := d.onEntry, onExit := d.onExit, parent := d.parent
          initial := d.initial, history := d.history }
  | none => .error []

def read (a : Attribute) : Except (List ArgumentError) StateArguments :=
  readAttribute slots {} a >>= finish

end StateArguments

namespace PayloadArguments

structure Draft where
  ty : Option Ty := none
  trigger : Option Reference := none

def slots : List (Slot Draft) :=
  [.ofReader "ty" payloadType (fun s v => { s with ty := some v }) true,
   .ofReader "trigger" reference fun s v => { s with trigger := some v }]

def finish (d : Draft) : Except (List ArgumentError) PayloadArguments :=
  match d.ty with
  | some ty => .ok { ty, trigger := d.trigger }
  | none => .error []

def read (a : Attribute) : Except (List ArgumentError) PayloadArguments :=
  readAttribute slots {} a >>= finish

end PayloadArguments

/-! ## Attributes -/

inductive DeclarationKind
  | machine
  | transition
  | internal
  | state
  | payload
  deriving DecidableEq, Repr

namespace DeclarationKind

def name : DeclarationKind → String
  | machine => "state_machine"
  | transition => "transition"
  | internal => "internal_transition"
  | state => "state"
  | payload => "payload_type"

def all : List DeclarationKind := [machine, transition, internal, state, payload]

def of? (a : Attribute) : Option DeclarationKind := all.find? fun k => a.isNamed k.name

end DeclarationKind

/-- Whether an attribute is a declaration; such attributes are consumed. -/
def isDeclaration (a : Attribute) : Bool := (DeclarationKind.of? a).isSome

inductive MachineDeclaration
  | machine (arguments : MachineArguments)
  | transition (arguments : TransitionArguments)
  | internal (arguments : InternalArguments)
  | state (arguments : StateArguments)
  | payload (arguments : PayloadArguments)

def MachineDeclaration.read (kind : DeclarationKind) (a : Attribute) :
    Except (List ArgumentError) MachineDeclaration :=
  match kind with
  | .machine => .machine <$> MachineArguments.read a
  | .transition => .transition <$> TransitionArguments.read a
  | .internal => .internal <$> InternalArguments.read a
  | .state => .state <$> StateArguments.read a
  | .payload => .payload <$> PayloadArguments.read a

structure Declared (α : Type) where
  value : α
  pos : Position

end Statewright
