import Statewright.Callback.Use
import Statewright.Model

/-!
# Emitted code

The pieces that the code of every machine is put together from. What is emitted follows from the
model, the variant and the way payloads are carried.
-/

namespace Statewright

open Grammar

structure Emission where
  model : Model
  variant : Variant
  payload : PayloadKind

/-! ## Names -/

namespace Names

def stateField : String := "__fsm_state"
def historyField : String := "__fsm_history"
def extensionsField : String := "__fsm_extensions"
def hierarchyTable : String := "__FSM_HIERARCHY"
def statesTable : String := "__FSM_STATES"
def indexFunction : String := "__fsm_index"
def dispatch : String := "__fsm_dispatch"
def query : String := "__fsm_query"
def enter : String := "__fsm_enter"
def exit : String := "__fsm_exit"
def candidateLabel : Token := .lifetime "'__candidate"

end Names

namespace Emit

/-! ## Fragments -/

/-- Lines of documentation; a blank line separates paragraphs. -/
def docs (lines : List String) : Code :=
  lines.flatMap fun line =>
    let text := if line.isEmpty then "r\"\"" else "r\" " ++ line ++ "\""
    symbol '#' ++ brackets ["doc", '=', .literal text]

def allow (lints : List String) : Code :=
  symbol '#' ++ brackets (code [["allow"], parens (commaSeparated (lints.map word))])

def support (words : List String) : Code := absolutePath ("fastfsm" :: words)

def option (name : String) : Code := absolutePath ["core", "option", "Option", name]

def nothing : Code := option "None"

def something (inner : Code) : Code := option "Some" ++ parens inner

def result (name : String) : Code := absolutePath ["core", "result", "Result", name]

def count (n : Nat) : Token := .literal (toString n ++ "usize")

def place (n : Nat) : Token := .literal (toString n)

def applied (name : Code) (arguments : List Code) : Code :=
  code [name, ['<'], commaSeparated arguments, ['>']]

def anyPayload : Code :=
  parens (code
    [["dyn"], absolutePath ["core", "any", "Any"], ['+'],
     absolutePath ["core", "marker", "Send"], ['+'], absolutePath ["core", "marker", "Sync"]])

def maybePayload : Code :=
  applied (absolutePath ["core", "option", "Option"]) [symbol '&' ++ anyPayload]

def payloadAs (ty : Ty) : Code :=
  code [["payload", '.', "and_then"],
    parens (code [['|', "payload", '|', "payload", '.', "downcast_ref"], colons, ['<'], ty.code,
      ['>'], parens []])]

def noPayloadBinding : Code :=
  code [["let", "payload", ':'], maybePayload, ['='], nothing, [';']]

def vector (name : List String) : Code := absolutePath (["std", "vec", "Vec"] ++ name)

def methodCall (object : Code) (method : String) (arguments : Code) : Code :=
  code [object, ['.', method], parens arguments]

def self (field : String) : Code := ["self", '.', field]

end Emit

namespace Emission

open Emit

variable (e : Emission)

def isAsync : Bool := e.model.config.isAsync

def isHierarchical : Bool := e.model.config.hierarchy

def carriesPayload : Bool := e.payload ≠ .none

def isObserved : Bool := e.variant.hasExtensions

def stateType : Code := word e.model.stateType

def triggerType : Code := word e.model.triggerType

def statePath (state : String) : Code := pathOf [e.model.stateType, state]

def triggerPath (trigger : String) : Code := pathOf [e.model.triggerType, trigger]

def stateIndex (state : String) : Nat := (e.model.stateIndex? state).getD 0

def asyncWord : Code := if e.isAsync then ["async"] else []

def await : Code := if e.isAsync then ['.', "await"] else []

def payloadParameter : Code :=
  if e.carriesPayload then code [[',', "payload", ':'], maybePayload] else []

def tokenType : Code := symbol '&' ++ support ["CancellationToken"]

def tokenParameter : Code :=
  if e.isAsync then code [[',', "cancel", ':'], tokenType] else []

def tokenArgument : Code := if e.isAsync then [',', "cancel"] else []

def forwarded (payload : Code) : Code :=
  (if e.carriesPayload then symbol ',' ++ payload else []) ++ e.tokenArgument

def hasPayloadInScope : Bool :=
  e.carriesPayload || e.model.callbacks.any Callback.expectsPayload

def payloadBinding : Code :=
  if !e.carriesPayload && e.hasPayloadInScope then noPayloadBinding else []

def observedPayload : Code := if e.hasPayloadInScope then ["payload"] else nothing

def rejectionType : Code := applied (support ["InvalidTransition"]) [e.stateType, e.triggerType]

def fireResult : Code :=
  code [absolutePath ["core", "result", "Result"], ['<'], parens [], [','], e.rejectionType, ['>']]

end Emission

end Statewright
