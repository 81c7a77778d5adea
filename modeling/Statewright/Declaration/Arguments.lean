import Statewright.Declaration.Value
import Statewright.Text.Similarity

/-!
# Argument lists

The arguments of a declaration are visited in order and every problem is collected; missing ones
are reported last. An argument is a bare name, a name with a value, or a name with a list.
-/

namespace Statewright.Declaration

open Grammar

inductive Entry
  | literal
  | named (name : String) (input : AttributeInput)

/-- One entry. A truth value in front of `=` is a name. -/
def parseEntry : Parser Entry := do
  let isBool := match ← Parser.seesWord? with
    | some "true" | some "false" => true
    | _ => false
  if (← Parser.seesLiteral) && !(isBool && (← Parser.seesMark "=" 1)) then
    let _ ← Parser.literal
    pure .literal
  else
    let path ← Parser.attributePath
    pure (.named ("::".intercalate path.names) (← Parser.attributeForm))

def parseEntries (content : List Tree) : Option (List Entry) :=
  (Parser.commaList parseEntry).onAll content |>.map (·.1)

/-- A value from what stands behind its name; a list must at least be readable as one. -/
def readInput {α : Type} (read : Reader α) : AttributeInput → Except Problem α
  | .word => .error (.wrongForm "word")
  | .value e pos => read ⟨e, pos⟩
  | .list content =>
    .error (if (parseEntries content).isSome then .wrongForm "list" else .unreadable)

def readTruth : AttributeInput → Except Problem Bool
  | .word => .ok true
  | input => readInput truth input

structure Slot (σ : Type) where
  name : String
  required : Bool := false
  set : AttributeInput → σ → Except Problem σ

def Slot.ofReader {σ α : Type} (name : String) (read : Reader α) (put : σ → α → σ)
    (required : Bool := false) : Slot σ :=
  ⟨name, required, fun input s => (readInput read input).map (put s)⟩

def Slot.ofTruth {σ : Type} (name : String) (put : σ → Bool → σ) : Slot σ :=
  ⟨name, false, fun input s => (readTruth input).map (put s)⟩

structure Progress (σ : Type) where
  values : σ
  met : List String := []
  errors : List ArgumentError := []

def Progress.step {σ : Type} (slots : List (Slot σ)) (p : Progress σ) : Entry → Progress σ
  | .literal => { p with errors := p.errors ++ [⟨.wrongForm "literal", none⟩] }
  | .named name input =>
    match slots.find? (·.name == name) with
    | none =>
      let closest := Text.closest? name (slots.map Slot.name)
      { p with errors := p.errors ++ [⟨.unknownField name closest, none⟩] }
    | some slot =>
      if p.met.contains name then
        { p with errors := p.errors ++ [⟨.duplicateField name, none⟩] }
      else match slot.set input p.values with
        | .ok values => { p with values, met := name :: p.met }
        | .error problem =>
          { p with met := name :: p.met, errors := p.errors ++ [⟨problem, some name⟩] }

def missingSlots {σ : Type} (slots : List (Slot σ)) (met : List String) : List ArgumentError :=
  slots.filterMap fun f =>
    if f.required && !met.contains f.name then some ⟨.missingField f.name, none⟩ else none

def readEntries {σ : Type} (slots : List (Slot σ)) (start : σ) (entries : List Entry) :
    Except (List ArgumentError) σ :=
  let p := entries.foldl (Progress.step slots) { values := start }
  let errors := p.errors ++ missingSlots slots p.met
  if errors.isEmpty then .ok p.values else .error errors

def readAttribute {σ : Type} (slots : List (Slot σ)) (start : σ) (a : Attribute) :
    Except (List ArgumentError) σ :=
  match a.input with
  | .word => readEntries slots start []
  | .list content =>
    match parseEntries content with
    | some entries => readEntries slots start entries
    | none => .error [⟨.unreadable, none⟩]
  | .value _ _ => .error [⟨.noArgumentList, none⟩]

end Statewright.Declaration
