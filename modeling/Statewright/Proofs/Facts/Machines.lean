import Statewright.Facts
import Statewright.Proofs.Declaration.Arguments

/-!
# Machines of a module

Every struct that carries a declaration is a machine of its module, in the order of the items. Its
declarations are the ones that can be read; what keeps one from being read is recorded.
-/

namespace Statewright

open Grammar Declaration

theorem of?_named {a : Attribute} {kind : DeclarationKind} (named : a.isNamed kind.name) :
    DeclarationKind.of? a = some kind := by
  have word : a.path.word? = some kind.name := by simpa [Attribute.isNamed] using named
  cases kind <;> simp [DeclarationKind.of?, DeclarationKind.all, Attribute.isNamed, word,
    DeclarationKind.name]

section ReadAll

variable {α β : Type} {read : α → Except (List ArgumentError) β}

theorem readAll_cases (told : ∀ a errors, read a = .error errors → errors ≠ []) (l : List α) :
    (readAll read l).1.length = l.length ∧ (∀ a ∈ l, ∃ b, read a = .ok b) ∨
      (readAll read l).1.length < l.length ∧ (readAll read l).2 ≠ [] ∧
        ∃ a ∈ l, ∀ b, read a ≠ .ok b := by
  induction l with
  | nil => exact .inl ⟨rfl, nofun⟩
  | cons a rest ih =>
      cases outcome : read a with
      | ok b =>
          rcases ih with ⟨whole, each⟩ | ⟨lost, recorded, other, member, fails⟩
          · exact .inl ⟨by simp [readAll, outcome, whole],
              List.forall_mem_cons.mpr ⟨⟨b, outcome⟩, each⟩⟩
          · exact .inr ⟨by simpa [readAll, outcome] using lost, by simpa [readAll, outcome],
              other, List.mem_cons_of_mem a member, fails⟩
      | error errors =>
          have shorter : (readAll read rest).1.length ≤ rest.length := by
            rcases ih with ⟨whole, _⟩ | ⟨lost, _⟩
            · exact Nat.le_of_eq whole
            · exact Nat.le_of_lt lost
          refine .inr ⟨?_, ?_, a, List.mem_cons_self, fun b => by simp [outcome]⟩
          · simpa [readAll, outcome] using Nat.lt_succ_of_le shorter
          · simp [readAll, outcome, told a errors outcome]

end ReadAll

def Grammar.Struct.Readable (s : Struct) : Prop :=
  ∀ a ∈ s.attributes, ∀ kind, DeclarationKind.of? a = some kind →
    ∃ d, MachineDeclaration.read kind a = .ok d

def Grammar.Struct.declaring (s : Struct) : List (DeclarationKind × Attribute) :=
  s.attributes.filterMap fun a => (DeclarationKind.of? a).map fun kind => (kind, a)

theorem Grammar.Struct.mem_declaring {s : Struct} {kind : DeclarationKind} {a : Attribute} :
    (kind, a) ∈ s.declaring ↔ a ∈ s.attributes ∧ DeclarationKind.of? a = some kind := by
  simp only [declaring, List.mem_filterMap, Option.map_eq_some_iff, Prod.mk.injEq]
  constructor
  · rintro ⟨_, member, _, known, rfl, rfl⟩
    exact ⟨member, known⟩
  · rintro ⟨member, known⟩
    exact ⟨a, member, kind, known, rfl, rfl⟩

def readDeclaration (entry : DeclarationKind × Attribute) :
    Except (List ArgumentError) (Declared MachineDeclaration) :=
  (MachineDeclaration.read entry.1 entry.2).map fun d => ⟨d, entry.2.pos⟩

theorem readDeclaration_ok {kind : DeclarationKind} {a : Attribute} :
    (∃ d, readDeclaration (kind, a) = .ok d) ↔ ∃ d, MachineDeclaration.read kind a = .ok d := by
  cases outcome : MachineDeclaration.read kind a <;> simp [readDeclaration, outcome, Except.map]

theorem readDeclaration_told (entry : DeclarationKind × Attribute) (errors : List ArgumentError)
    (failed : readDeclaration entry = .error errors) : errors ≠ [] := by
  cases outcome : MachineDeclaration.read entry.1 entry.2 with
  | ok d => simp [readDeclaration, outcome, Except.map] at failed
  | error found =>
      simp only [readDeclaration, outcome, Except.map, Except.error.injEq] at failed
      exact failed ▸ MachineDeclaration.read_told outcome

theorem ofStruct_eq (i : Nat) (s : Struct) :
    MachineFacts.ofStruct i s =
      ({ name := s.name
         pos := s.pos
         generics := s.generics
         fields := s.fields
         declarations := (readAll readDeclaration s.declaring).1
         itemIndex := i
         malformed := (readAll readDeclaration s.declaring).1.length < s.declaring.length },
       (readAll readDeclaration s.declaring).2) :=
  rfl

theorem ofStruct_cases (i : Nat) (s : Struct) :
    (MachineFacts.ofStruct i s).1.malformed = false ∧ s.Readable ∨
      (MachineFacts.ofStruct i s).1.malformed ∧ ¬s.Readable ∧
        (MachineFacts.ofStruct i s).2 ≠ [] := by
  rw [ofStruct_eq]
  rcases readAll_cases readDeclaration_told s.declaring with
    ⟨whole, each⟩ | ⟨lost, recorded, ⟨kind, a⟩, member, fails⟩
  · refine .inl ⟨by simp [whole], fun a member kind known => ?_⟩
    exact readDeclaration_ok.mp (each _ (Struct.mem_declaring.mpr ⟨member, known⟩))
  · refine .inr ⟨by simpa using lost, fun readable => ?_, recorded⟩
    obtain ⟨member, known⟩ := Struct.mem_declaring.mp member
    obtain ⟨d, read⟩ := readDeclaration_ok.mpr (readable a member kind known)
    exact fails d read

def Grammar.Method.declaring (m : Method) : List Attribute :=
  (m.attributes ++ m.innerAttributes).filter (·.isNamed DeclarationKind.payload.name)

def readPayload (a : Attribute) : Except (List ArgumentError) (Declared PayloadArguments) :=
  (PayloadArguments.read a).map fun v => ⟨v, a.pos⟩

theorem ofMethod_eq (owner : String) (m : Method) :
    MethodFacts.ofMethod owner m =
      ({ owner
         name := m.name
         receiver := m.receiver
         parameters := m.parameters
         output := m.output
         isAsync := m.isAsync
         payloadTypes := (readAll readPayload m.declaring).1 },
       (readAll readPayload m.declaring).2) :=
  rfl

def enum? : Item → Option EnumFacts
  | .enum e => some (EnumFacts.ofItem e)
  | _ => none

def typeName? : Item → Option String
  | .struct s => some s.name
  | .typeItem name _ => some name
  | _ => none

def methodsAt : Item → List (MethodFacts × List ArgumentError)
  | .implementation i =>
    match i.traitFront, ownerName? i.owner with
    | none, some owner => i.entries.filterMap fun
        | .method m => some (MethodFacts.ofMethod owner m)
        | .other _ => none
    | _, _ => []
  | _ => []

def machineAt? : Item × Nat → Option (MachineFacts × List ArgumentError)
  | (.struct s, i) =>
    if s.attributes.any isDeclaration then some (MachineFacts.ofStruct i s) else none
  | _ => none

theorem machineAt?_eq_none {item : Item} (other : ∀ s, item ≠ .struct s) (i : Nat) :
    machineAt? (item, i) = none := by
  cases item with
  | struct s => exact absurd rfl (other s)
  | _ => rfl

def errorsAt (entry : Item × Nat) : List ArgumentError :=
  (machineAt? entry).toList.flatMap Prod.snd ++ (methodsAt entry.1).flatMap Prod.snd

namespace ModuleFacts

def reading (facts : ModuleFacts) (items : List (Item × Nat)) : ModuleFacts where
  name := facts.name
  enums := facts.enums ++ items.filterMap fun entry => enum? entry.1
  otherTypes := facts.otherTypes ++ items.filterMap fun entry => typeName? entry.1
  methods := facts.methods ++ items.flatMap fun entry => (methodsAt entry.1).map Prod.fst
  machines := facts.machines ++ (items.filterMap machineAt?).map Prod.fst
  errors := facts.errors ++ items.flatMap errorsAt

theorem reading_append (facts : ModuleFacts) (items more : List (Item × Nat)) :
    (facts.reading items).reading more = facts.reading (items ++ more) := by
  simp [reading]

theorem addItem_eq (facts : ModuleFacts) (item : Item) (i : Nat) :
    facts.addItem item i = facts.reading [(item, i)] := by
  cases item with
  | struct s =>
      cases declares : s.attributes.any isDeclaration <;>
        simp [addItem, reading, enum?, typeName?, methodsAt, errorsAt, machineAt?, declares]
  | implementation impl =>
      have undeclared : machineAt? (.implementation impl, i) = none := rfl
      cases bare : impl.traitFront with
      | some front =>
          simp [addItem, reading, enum?, typeName?, methodsAt, errorsAt, undeclared, bare]
      | none =>
          cases owned : ownerName? impl.owner with
          | none =>
              simp [addItem, reading, enum?, typeName?, methodsAt, errorsAt, undeclared, bare,
                owned]
          | some owner =>
              simp only [addItem, reading, enum?, typeName?, methodsAt, errorsAt, undeclared, bare,
                owned, List.filterMap_cons, List.filterMap_nil, List.flatMap_cons, List.flatMap_nil,
                List.map_nil, List.append_nil]
              rfl
  | _ => simp [addItem, reading, enum?, typeName?, methodsAt, errorsAt, machineAt?_eq_none]

theorem foldl_addItem (items : List (Item × Nat)) (facts : ModuleFacts) :
    items.foldl (fun facts (item, i) => facts.addItem item i) facts = facts.reading items := by
  induction items generalizing facts with
  | nil => simp [reading]
  | cons entry rest ih =>
      rw [List.foldl_cons, ih]
      show (facts.addItem entry.1 entry.2).reading rest = _
      rw [addItem_eq, reading_append, List.singleton_append]

variable {m : Module} {items : List Item} (content : m.items = some items)
include content

theorem ofModule_eq : ofModule m = reading { name := m.name } items.zipIdx := by
  rw [← foldl_addItem, ofModule, content, Option.getD_some]

theorem ofModule_enums : (ofModule m).enums = items.filterMap enum? := by
  rw [ofModule_eq content]
  show items.zipIdx.filterMap (enum? ∘ Prod.fst) = _
  rw [← List.filterMap_map, List.zipIdx_map_fst]

theorem ofModule_methods :
    (ofModule m).methods = items.flatMap fun item => (methodsAt item).map Prod.fst := by
  rw [ofModule_eq content]
  show (items.zipIdx.flatMap fun entry => (methodsAt entry.1).map Prod.fst) = _
  rw [← List.flatMap_map Prod.fst fun item => (methodsAt item).map Prod.fst, List.zipIdx_map_fst]

theorem ofModule_machines :
    (ofModule m).machines = (items.zipIdx.filterMap machineAt?).map Prod.fst := by
  rw [ofModule_eq content]
  rfl

theorem ofModule_errors : (ofModule m).errors = items.zipIdx.flatMap errorsAt := by
  rw [ofModule_eq content]
  rfl

theorem ofModule_struct {i : Nat} {s : Struct} (there : items[i]? = some (.struct s))
    (declares : s.attributes.any isDeclaration) :
    (MachineFacts.ofStruct i s).1 ∈ (ofModule m).machines ∧
      (MachineFacts.ofStruct i s).2 ⊆ (ofModule m).errors := by
  have listed : (.struct s, i) ∈ items.zipIdx := List.mk_mem_zipIdx_iff_getElem?.mpr there
  have declared : machineAt? (.struct s, i) = some (MachineFacts.ofStruct i s) := if_pos declares
  constructor
  · rw [ofModule_machines content]
    exact List.mem_map_of_mem (List.mem_filterMap.mpr ⟨_, listed, declared⟩)
  · rw [ofModule_errors content]
    refine fun e known => List.mem_flatMap.mpr ⟨_, listed, ?_⟩
    simp [errorsAt, declared, known]

end ModuleFacts

end Statewright
