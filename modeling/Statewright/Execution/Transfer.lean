import Statewright.Emit.Basic
import Statewright.Execution.Basic

/-!
# Transfers

What taking a transition does: the states left run their exit callbacks, then the action runs,
then the states entered run their entry callbacks, and the machine is in its new state. The first
failure ends all of this, and the machine stays in its old state.
-/

namespace Statewright.Execution

variable {σ υ ω : Type} (e : Emission) (h : Host σ υ ω) (payload : Option υ)

def stateAt (place : Nat) : String := (e.model.states[place]?.map StateModel.name).getD ""

def walkCallback (callbackOf : StateModel → Option Callback) (place : Nat) : Option Callback :=
  if e.model.config.hasEntryExit then e.model.states[place]?.bind callbackOf else none

def leave (place : Nat) : Run σ υ ω Bool := do
  Run.change fun m => { m with history := m.history.record e.model.hierarchy place }
  Run.log (.exited (stateAt e place))
  h.perform? (walkCallback e StateModel.onExit place) payload

def enter (place : Nat) : Run σ υ ω Bool := do
  Run.log (.entered (stateAt e place))
  h.perform? (walkCallback e StateModel.onEntry place) payload

def nestedTransfer (t : Transition) : Run σ υ ω Bool := do
  let table := e.model.hierarchy
  let target := e.stateIndex t.target
  let scope := table.scope? (e.stateIndex t.source) target
  let current ← Run.read fun m => e.stateIndex m.state
  if ← Run.all (leave e h payload) (table.exitPath current scope) then
    if ← h.perform? t.action payload then
      let leaf ← Run.read fun m => table.resolveEntry m.history target
      if ← Run.all (enter e h payload) (table.entryPath scope leaf) then
        Run.change fun m => { m with state := stateAt e leaf }
        pure true
      else pure false
    else pure false
  else pure false

def flatTransfer (t : Transition) : Run σ υ ω Bool := do
  Run.log (.exited t.source)
  if ← h.perform? ((e.model.state? t.source).bind StateModel.onExit) payload then
    if ← h.perform? t.action payload then
      Run.log (.entered t.target)
      if ← h.perform? ((e.model.state? t.target).bind StateModel.onEntry) payload then
        Run.change fun m => { m with state := t.target }
        pure true
      else pure false
    else pure false
  else pure false

/-- Takes a transition; tells whether nothing failed. An internal one runs its action only. -/
def transfer (t : Transition) : Run σ υ ω Bool :=
  if t.internal then h.perform? t.action payload
  else if e.isHierarchical then nestedTransfer e h payload t
  else flatTransfer e h payload t

end Statewright.Execution
