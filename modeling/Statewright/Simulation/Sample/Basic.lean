import Statewright.Build
import Statewright.Emit
import Statewright.Grammar.Reading

/-!
# Samples

A sample is the text of a module with one machine. Samples are read by the driver that runs trials,
and by nothing else: no theorem is about them.
-/

namespace Statewright.Simulation

structure Sample where
  name : String
  source : List String

namespace Sample

def text (s : Sample) : String := "\n".intercalate s.source

def module? (s : Sample) : Option Grammar.Module :=
  (Token.trees? s.text).bind Grammar.Parser.module.onAll

def emission? (s : Sample) : Option Emission := do
  let facts := ModuleFacts.ofModule (← s.module?)
  let machine ← facts.machines.head?
  let model ← (machine.build facts).1
  model.emission.toOption

end Sample

end Statewright.Simulation
