import Statewright.Declaration

/-!
# Facts about a module

What the declarations of machines refer to: the enums of a module with the values of their
members, the signatures of its methods, and the declarations on its structs. Nothing is judged
here; arguments that cannot be read are recorded as errors.
-/

namespace Statewright

open Grammar Declaration

/-! ## Enums -/

structure EnumMember where
  name : String
  pos : Position
  value : Option Int

structure EnumFacts where
  name : String
  members : List EnumMember

namespace EnumFacts

def successor (value : Option Int) : Option Int :=
  value.bind fun n => if n < greatestValue then some (n + 1) else none

/-- The members with their discriminants; `next` is the one of a member that states none. -/
def valued : Option Int → List Member → List EnumMember
  | _, [] => []
  | next, m :: rest =>
    let value := match m.discriminant with
      | some e => e.integer?
      | none => next
    ⟨m.name, m.pos, value⟩ :: valued (successor value) rest

def ofItem (e : Enum) : EnumFacts := ⟨e.name, valued (some 0) e.members⟩

def member? (facts : EnumFacts) (name : String) : Option EnumMember :=
  facts.members.find? (·.name == name)

/-- The member that a path names: its last segment, behind the enum's own name if behind any. -/
def ofPath? (facts : EnumFacts) (p : Path) : Option EnumMember :=
  match p.names.reverse with
  | [] => none
  | [last] => facts.member? last
  | last :: owner :: _ =>
    if owner == facts.name || owner == "Self" then facts.member? last else none

def resolve? (facts : EnumFacts) (r : Reference) : Option EnumMember :=
  match r.expr.bare with
  | .path p | .projection _ _ p => facts.ofPath? p
  | e => e.integer?.bind fun v => facts.members.find? fun m => m.value == some v

end EnumFacts

/-! ## Methods -/

structure MethodFacts where
  owner : String
  name : String
  receiver : Receiver
  parameters : List Ty
  output : Option Ty
  isAsync : Bool
  payloadTypes : List (Declared PayloadArguments)

def readAll {α β : Type} (read : α → Except (List ArgumentError) β) :
    List α → List β × List ArgumentError
  | [] => ([], [])
  | a :: rest =>
    let (values, errors) := readAll read rest
    match read a with
    | .ok b => (b :: values, errors)
    | .error found => (values, found ++ errors)

namespace MethodFacts

def ofMethod (owner : String) (m : Method) : MethodFacts × List ArgumentError :=
  let attributes :=
    (m.attributes ++ m.innerAttributes).filter (·.isNamed DeclarationKind.payload.name)
  let read (a : Attribute) := (PayloadArguments.read a).map fun v => (⟨v, a.pos⟩ : Declared _)
  let (payloadTypes, errors) := readAll read attributes
  ({ owner, name := m.name, receiver := m.receiver, parameters := m.parameters
     output := m.output, isAsync := m.isAsync, payloadTypes }, errors)

end MethodFacts

/-! ## Machines -/

structure MachineFacts where
  name : String
  pos : Position
  generics : Generics
  fields : Fields
  declarations : List (Declared MachineDeclaration)
  itemIndex : Nat
  malformed : Bool

namespace MachineFacts

def ofStruct (itemIndex : Nat) (s : Struct) : MachineFacts × List ArgumentError :=
  let found := s.attributes.filterMap fun a => (DeclarationKind.of? a).map fun k => (k, a)
  let read := fun ((k, a) : DeclarationKind × Attribute) =>
    (MachineDeclaration.read k a).map fun d => (⟨d, a.pos⟩ : Declared _)
  let (declarations, errors) := readAll read found
  ({ name := s.name, pos := s.pos, generics := s.generics, fields := s.fields, declarations
     itemIndex, malformed := declarations.length < found.length }, errors)

def machineDeclarations (m : MachineFacts) : List (Declared MachineArguments) :=
  m.declarations.filterMap fun d =>
    match d.value with
    | .machine arguments => some ⟨arguments, d.pos⟩
    | _ => none

def primary? (m : MachineFacts) : Option (Declared MachineArguments) :=
  m.machineDeclarations.head?

def userFields (m : MachineFacts) : List (String × Ty) :=
  match m.fields with
  | .named fields _ => fields.map fun f => (f.name, f.ty)
  | _ => []

end MachineFacts

/-! ## Modules -/

structure ModuleFacts where
  name : String
  enums : List EnumFacts := []
  otherTypes : List String := []
  methods : List MethodFacts := []
  machines : List MachineFacts := []
  errors : List ArgumentError := []

def ownerName? : Ty → Option String
  | .path p | .projection _ _ p => p.last?.map Segment.ident
  | _ => none

namespace ModuleFacts

def addItem (facts : ModuleFacts) (item : Item) (index : Nat) : ModuleFacts :=
  match item with
  | .enum e => { facts with enums := facts.enums ++ [EnumFacts.ofItem e] }
  | .struct s =>
    let known := { facts with otherTypes := facts.otherTypes ++ [s.name] }
    if s.attributes.any isDeclaration then
      let (machine, errors) := MachineFacts.ofStruct index s
      { known with machines := known.machines ++ [machine], errors := known.errors ++ errors }
    else known
  | .typeItem name _ => { facts with otherTypes := facts.otherTypes ++ [name] }
  | .implementation i =>
    match i.traitFront, ownerName? i.owner with
    | none, some owner =>
      let read := i.entries.filterMap fun
        | .method m => some (MethodFacts.ofMethod owner m)
        | .other _ => none
      { facts with
        methods := facts.methods ++ read.map (·.1)
        errors := facts.errors ++ read.flatMap (·.2) }
    | _, _ => facts
  | .other _ => facts

def ofModule (m : Module) : ModuleFacts :=
  ((m.items.getD []).zipIdx).foldl (fun facts (item, i) => facts.addItem item i)
    { name := m.name }

def findEnum? (facts : ModuleFacts) (name : String) : Option EnumFacts :=
  facts.enums.find? (·.name == name)

def isKnownType (facts : ModuleFacts) (name : String) : Bool := facts.otherTypes.contains name

def methodsOf (facts : ModuleFacts) (owner : String) : List MethodFacts :=
  facts.methods.filter (·.owner == owner)

end ModuleFacts

end Statewright
