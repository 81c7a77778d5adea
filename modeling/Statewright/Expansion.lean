import Statewright.Build
import Statewright.Emit

/-!
# Expansion

A module with machines becomes a module without declarations: the structs of its machines gain
their private fields, the attributes that declare machines go, and the emitted code of each
machine follows with its report.
-/

namespace Statewright

open Grammar Declaration

inductive ExpansionError
  | argumentsGiven
  | noContent
  deriving DecidableEq, Repr

def ExpansionError.message : ExpansionError → String
  | argumentsGiven => "#[fsm] takes no arguments"
  | noContent => "#[fsm] needs an inline module: `mod name \x7b ... \x7d`"

def withoutDeclarations (attributes : List Attribute) : List Attribute :=
  attributes.filter fun a => !isDeclaration a

def Grammar.Associated.bare : Associated → Associated
  | .method m =>
    .method
      { m with
        attributes := withoutDeclarations m.attributes
        innerAttributes := withoutDeclarations m.innerAttributes }
  | .other c => .other c

/-- An item without declarations. Only structs and methods outside of traits carry any. -/
def Grammar.Item.bare : Item → Item
  | .struct s => .struct { s with attributes := withoutDeclarations s.attributes }
  | .implementation i =>
    if i.traitFront.isNone then
      .implementation { i with entries := i.entries.map Associated.bare }
    else .implementation i
  | item => item

/-- The code to emit for a machine, unless an error was found, and the report on it. -/
def MachineFacts.expand (machine : MachineFacts) (facts : ModuleFacts) :
    Option Emission × Report :=
  match machine.build facts with
  | (none, report) => (none, report)
  | (some model, report) =>
    match model.emission with
    | .ok e => (some e, report)
    | .error findings =>
      let pos := (machine.primary?.map Declared.pos).getD machine.pos
      (none, report ++ findings.map fun f => Diagnostic.ofOutcome pos f.outcome)

def Emission.structFields (e : Emission) : List NamedField :=
  e.fields.map fun (name, type) => { name, ty := .other type }

/-- Adds fields to a struct; any other item stays. -/
def Grammar.Item.withFields (added : List NamedField) : Item → Item
  | .struct s => .struct (s.withFields added)
  | item => item

def errorCode (errors : List ArgumentError) : Code :=
  errors.flatMap fun e => Diagnostic.stop e.message

def expandItems (facts : ModuleFacts) (items : List Item) : List Item :=
  let expanded := facts.machines.map fun m => (m.itemIndex, m.expand facts)
  let fieldsAt (index : Nat) : List NamedField :=
    expanded.flatMap fun (i, emission, _) =>
      if i = index then (emission.map Emission.structFields).getD [] else []
  let kept := items.zipIdx.map fun (item, i) =>
    let added := fieldsAt i
    (if added.isEmpty then item else item.withFields added).bare
  let appended := expanded.flatMap fun (_, emission, report) =>
    [(emission.map Emission.items).getD [], report.code]
  kept ++ (errorCode facts.errors :: appended).map Item.other

/-- Expands a module; the attribute that asks for it takes no arguments. -/
def Grammar.Module.expand (arguments : Code) (m : Module) : Except ExpansionError Module :=
  if !arguments.isEmpty then .error .argumentsGiven
  else
    match m.items with
    | none => .error .noContent
    | some items => .ok { m with items := some (expandItems (ModuleFacts.ofModule m) items) }

end Statewright
