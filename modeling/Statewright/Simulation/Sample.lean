import Statewright.Simulation.Sample.Nested
import Statewright.Simulation.Sample.Observed
import Statewright.Simulation.Sample.Payload
import Statewright.Simulation.Sample.Plain

/-!
# All samples

The samples that the driver of trials finds by name; no theorem is about them.
-/

namespace Statewright.Simulation.Sample

def all : List Sample :=
  [relay, job, ticker, document, duplicate, numbered, mute, basicForced, spawner, blind, collide,
   raw, checkout, primitive, till, tillDefault, methodPayload, forcedMulti, worker, forcedExt,
   blindExt, full, fullMulti, loader, asyncPay, asyncFull, generic, lamp, navigator, heater, vault,
   histOnly, asyncTree, treeMulti]

def ofName? (name : String) : Option Sample := all.find? (·.name == name)

end Statewright.Simulation.Sample
