/-!
# Variants

A machine is emitted in one of six variants, which differ in the features its code offers.
-/

namespace Statewright

inductive Variant
  | pure
  | basic
  | withPayload
  | withMultiPayload
  | withExtensions
  | full
  deriving DecidableEq, Repr

inductive PayloadKind
  | none
  | single
  | multi
  deriving DecidableEq, Repr

structure Features where
  payload : PayloadKind
  triggerPayloads : Nat := 0
  entryExit : Bool
  extensions : Bool

namespace PayloadKind

def name : PayloadKind → String
  | none => "None"
  | single => "Single"
  | multi => "Multi"

def ofName? : String → Option PayloadKind
  | "None" => some none
  | "Single" => some single
  | "Multi" => some multi
  | _ => Option.none

end PayloadKind

namespace Variant

def name : Variant → String
  | pure => "Pure"
  | basic => "Basic"
  | withPayload => "WithPayload"
  | withMultiPayload => "WithMultiPayload"
  | withExtensions => "WithExtensions"
  | full => "Full"

def all : List Variant := [pure, basic, withPayload, withMultiPayload, withExtensions, full]

def ofName? (s : String) : Option Variant := all.find? (·.name == s)

/-- The variant a declaration names, whatever the case of its letters and with or without
underscores. -/
def ofText? (s : String) : Option Variant :=
  let plain := (s.toList.filter (· != '_')).map Char.toLower
  all.find? fun v => v.name.toList.map Char.toLower == plain

def hasPayload : Variant → Bool
  | withPayload | withMultiPayload | full => true
  | _ => false

def hasExtensions : Variant → Bool
  | withExtensions | full => true
  | _ => false

def select (f : Features) : Variant :=
  match f.payload, f.extensions with
  | .none, true => withExtensions
  | .none, false => if f.entryExit then basic else pure
  | _, true => full
  | .multi, false => withMultiPayload
  | .single, false => withPayload

def emittedPayload (declared : PayloadKind) : Variant → PayloadKind
  | withMultiPayload => .multi
  | withPayload => .single
  | full => if declared = .multi then .multi else .single
  | pure | basic | withExtensions => .none

end Variant

end Statewright
