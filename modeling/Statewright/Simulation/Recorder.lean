import Statewright.Extension

/-!
# Recorders

An extension for trials: it writes a line for every event it is told of, and panics on the hooks
it is asked to. A silent one overrides no hook at all.
-/

namespace Statewright.Simulation

structure Payload where
  type : String
  text : String
  deriving DecidableEq, Repr

def payloadText (p : Option Payload) : String := (p.map Payload.text).getD "none"

structure Recorder where
  name : String
  panicOn : List String := []
  silent : Bool := false
  deriving DecidableEq, Repr

namespace Recorder

/-- A recorder never changes; it panics behind its line. -/
def react : Reaction Recorder Payload := fun r event =>
  (r, !r.silent && r.panicOn.contains event.hook.name)

def lines (r : Recorder) (event : Event Payload) : List String :=
  if r.silent then []
  else
    let a := event.attempt
    [" ".intercalate
      (["ext", r.name, event.hook.name, a.source, a.trigger, a.target, payloadText a.payload] ++
        event.hook.details)]

def noticeLines (recorders : List Recorder) : Notice Payload → List String
  | .delivered i event => (recorders[i]?.map (lines · event)).getD []
  | .panicked i event => [panicLine i event]

end Recorder

end Statewright.Simulation
