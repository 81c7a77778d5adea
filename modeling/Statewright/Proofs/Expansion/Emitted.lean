import Mathlib
import Statewright.Expansion
import Statewright.Proofs.Build.Duplicates
import Statewright.Proofs.Facts.Machines

/-!
# Emitted machines

When the expansion of a module emits code for a machine: whenever its declarations can be read, it
is declared with both its enums on a struct that can be extended, and no error is found. Otherwise
something is said about it.
-/

namespace Statewright

open Grammar Declaration

theorem unreachable_quiet (m : Model) : ∀ f ∈ m.unreachable, f.isError = false := by
  intro f found
  simp only [Model.unreachable, Check.unreachableStates] at found
  split at found
  · obtain ⟨⟨name, i⟩, _, missed⟩ := List.mem_filterMap.mp found
    split at missed
    · cases missed
    · cases missed
      rfl
  · cases found

namespace Build

theorem located_errors (locate : String → Option Position) (fallback : Position)
    (findings : List Finding) :
    (located locate fallback findings).hasErrors = findings.any Finding.isError := by
  simp only [located, Report.hasErrors, List.any_map]
  rfl

theorem Setting.outcome_isSome (cx : Setting) (d : Draft) :
    (cx.outcome d).1.isSome ↔
      (cx.outcome d).2.hasErrors = false ∧ cx.machine.malformed = false := by
  have quiet : (finish cx d).unreachable.any Finding.isError = false :=
    List.any_eq_false.mpr fun f found => by simp [unreachable_quiet _ f found]
  simp only [Setting.outcome, hasErrors_append, located_errors, quiet, Bool.or_false]
  cases d.report.hasErrors <;> cases cx.machine.malformed <;> simp

end Build

theorem emission_eq_error {m : Model} {findings : List Finding}
    (fails : m.emission = .error findings) : ∃ forced, m.config.forced = some forced ∧
      findings.any Finding.isError ∧ findings = Check.forcedVariant forced m.features := by
  have rejected : m.select = .error findings := by
    unfold Model.emission at fails
    cases chosen : m.select with
    | ok variant => simp [chosen, bind, Except.bind, pure, Except.pure] at fails
    | error found => simpa [chosen, bind, Except.bind] using fails
  unfold Model.select at rejected
  split at rejected
  · cases rejected
  · next forced named =>
      extract_lets found at rejected
      split at rejected
      · next errors =>
          obtain rfl := Except.error.inj rejected
          exact ⟨forced, named, errors, rfl⟩
      · cases rejected

namespace MachineFacts

variable (machine : MachineFacts) (facts : ModuleFacts)

theorem build_incomplete (incomplete : ¬machine.Complete) :
    (machine.build facts).1 = none ∧ ∃ d ∈ (machine.build facts).2, d.severity = .warning := by
  unfold build
  extract_lets tell repeated enumOf
  split
  · exact ⟨rfl, _, List.mem_cons_self, rfl⟩
  · next primary declared =>
      extract_lets report stop
      have warned (f : Finding) (mild : f.severity = .warning) :
          (stop f).1 = none ∧ ∃ d ∈ (stop f).2, d.severity = .warning :=
        ⟨rfl, _, List.mem_append_right _ List.mem_cons_self, mild⟩
      split
      · exact warned _ rfl
      · exact warned _ rfl
      · exact warned _ rfl
      · next state trigger stateNamed triggerNamed extensible =>
          exact absurd ⟨⟨primary, declared, by simp [stateNamed], by simp [triggerNamed]⟩,
            extensible⟩ incomplete

theorem build_isSome :
    (machine.build facts).1.isSome ↔ (machine.build facts).2.hasErrors = false ∧
      machine.malformed = false ∧ machine.Complete := by
  by_cases complete : machine.Complete
  · obtain ⟨⟨primary, declared, _⟩, extensible⟩ := id complete
    rcases machine.build_cases facts with ⟨stopped, fails⟩ | ⟨cx, _, _, _, _, known, _⟩
    · simp [stopped, fails complete]
    · have built := build_known declared extensible known
      rw [built, Build.Setting.outcome_isSome]
      simp [complete]
  · have stopped := (machine.build_incomplete facts complete).1
    simp [stopped, complete]

theorem emission_fails {m : Model} {findings : List Finding} (fails : m.emission = .error findings) :
    findings.any Finding.isError := by
  obtain ⟨forced, _, rejected, rfl⟩ := emission_eq_error fails
  exact rejected

theorem expand_isSome :
    (machine.expand facts).1.isSome ↔ (machine.expand facts).2.hasErrors = false ∧
      machine.malformed = false ∧ machine.Complete := by
  rw [expand]
  have built := machine.build_isSome facts
  rcases outcome : machine.build facts with ⟨_ | model, report⟩
  · rwa [outcome] at built
  · rw [outcome] at built
    cases emitted : model.emission with
    | ok e => simpa [emitted] using built
    | error findings =>
        have errors := emission_fails emitted
        simp only [emitted, Build.hasErrors_append]
        have told (pos : Position) :
            Report.hasErrors (findings.map fun f => Diagnostic.ofOutcome pos f.outcome) = true := by
          rw [Report.hasErrors, List.any_map]
          exact errors
        simp [told]

theorem expand_told (missing : (machine.expand facts).1 = none) :
    (∃ d ∈ (machine.expand facts).2, d.severity = .error ∨ d.severity = .warning) ∨
      machine.malformed := by
  cases errors : (machine.expand facts).2.hasErrors with
  | true =>
      obtain ⟨d, reported, error⟩ := List.any_eq_true.mp errors
      exact .inl ⟨d, reported, .inl (by simpa [Diagnostic.isError] using error)⟩
  | false =>
      by_cases complete : machine.Complete
      · have emitted := machine.expand_isSome facts
        simp [missing, errors, complete] at emitted
        exact .inr emitted
      · obtain ⟨stopped, d, reported, warning⟩ := machine.build_incomplete facts complete
        have same : (machine.expand facts).2 = (machine.build facts).2 := by
          rw [expand]
          rcases outcome : machine.build facts with ⟨_ | model, report⟩
          · rfl
          · simp [outcome] at stopped
        exact .inl ⟨d, same ▸ reported, .inr warning⟩

end MachineFacts

/-! ## The expanded module -/

theorem flatMap_zipIdx {α β : Type} (f : α → List β) {items : List α} {i : Nat} {a : α}
    (there : items[i]? = some a) (start : Nat) :
    ((items.zipIdx start).flatMap fun (b, j) => if j = i + start then f b else []) = f a := by
  induction items generalizing i start with
  | nil => simp at there
  | cons b rest ih =>
      have later (k : Nat) (before : k < start + 1) :
          ((rest.zipIdx (start + 1)).flatMap fun (b, j) => if j = k then f b else []) = [] := by
        refine List.flatMap_eq_nil_iff.mpr fun (c, j) listed => if_neg ?_
        have := List.le_snd_of_mem_zipIdx listed
        simp at this
        omega
      cases i with
      | zero =>
          obtain rfl : b = a := by simpa using there
          simp [later start (Nat.lt_succ_self start)]
      | succ i =>
          have rest := ih (by simpa using there) (start + 1)
          simp only [List.zipIdx_cons, List.flatMap_cons]
          rw [if_neg (by omega), List.nil_append, ← rest]
          simp only [Nat.add_assoc, Nat.add_comm 1]

def MachineFacts.code (machine : MachineFacts) (facts : ModuleFacts) : Code :=
  ((machine.expand facts).1.map Emission.items).getD []

def MachineFacts.addedFields (machine : MachineFacts) (facts : ModuleFacts) : List NamedField :=
  ((machine.expand facts).1.map Emission.structFields).getD []

theorem MachineFacts.code_ne_nil (machine : MachineFacts) (facts : ModuleFacts) :
    machine.code facts ≠ [] ↔ (machine.expand facts).1.isSome := by
  rw [code]
  cases (machine.expand facts).1 <;> simp [Emission.items, Statewright.code]

theorem MachineFacts.addedFields_ne_nil (machine : MachineFacts) (facts : ModuleFacts) :
    machine.addedFields facts ≠ [] ↔ (machine.expand facts).1.isSome := by
  rw [addedFields]
  cases (machine.expand facts).1 <;> simp [Emission.structFields, Emission.fields]

section Module

variable {m : Module} {items : List Item} (content : m.items = some items) {i : Nat}
include content

theorem fields_at {item : Item} (there : items[i]? = some item) :
    let facts := ModuleFacts.ofModule m
    ((facts.machines.map fun machine => (machine.itemIndex, machine.expand facts)).flatMap
      fun (j, emission, _) =>
        if j = i then (emission.map Emission.structFields).getD [] else []) =
      (machineAt? (item, i)).toList.flatMap fun found => found.1.addedFields facts := by
  intro facts
  let fieldsOf (item : Item) : List NamedField :=
    (machineAt? (item, i)).toList.flatMap fun found => found.1.addedFields facts
  have placed {item : Item} {j : Nat} {found : MachineFacts × List ArgumentError}
      (declared : machineAt? (item, j) = some found) : found.1.itemIndex = j := by
    unfold machineAt? at declared
    split at declared
    · split at declared
      · next same _ =>
          cases same
          cases declared
          rfl
      · cases declared
    · cases declared
  show _ = fieldsOf item
  rw [← flatMap_zipIdx fieldsOf there 0]
  simp only [facts, ModuleFacts.ofModule_machines content, List.map_map, List.flatMap_map,
    List.filterMap_eq_flatMap_toList, List.flatMap_assoc]
  refine List.flatMap_congr fun (item, j) _ => ?_
  rw [Nat.add_zero]
  by_cases same : j = i
  · subst same
    cases declared : machineAt? (item, j) with
    | none => simp [fieldsOf, declared]
    | some found => simp [fieldsOf, declared, placed declared, MachineFacts.addedFields, facts]
  · cases declared : machineAt? (item, j) with
    | none => simp [same]
    | some found => simp [same, placed declared]

variable {s : Struct} (there : items[i]? = some (.struct s))
  (declares : s.attributes.any isDeclaration)
include there declares

theorem addedFields_at :
    let facts := ModuleFacts.ofModule m
    ((facts.machines.map fun machine => (machine.itemIndex, machine.expand facts)).flatMap
      fun (j, emission, _) =>
        if j = i then (emission.map Emission.structFields).getD [] else []) =
      (MachineFacts.ofStruct i s).1.addedFields facts := by
  have declared : machineAt? (.struct s, i) = some (MachineFacts.ofStruct i s) := if_pos declares
  intro facts
  rw [fields_at content there]
  simp [declared, facts]

theorem expandItems_struct :
    let facts := ModuleFacts.ofModule m
    let added := (MachineFacts.ofStruct i s).1.addedFields facts
    (expandItems facts items)[i]? =
      some (if added = [] then Item.struct s else .struct (s.withFields added)).bare := by
  intro facts added
  have bound : i < items.length := (List.getElem?_eq_some_iff.mp there).1
  have fields := addedFields_at content there declares
  unfold expandItems
  extract_lets expanded fieldsAt kept appended
  have gained : fieldsAt i = added := fields
  rw [List.getElem?_append_left (by simpa [kept] using bound)]
  simp only [kept, List.getElem?_map, List.getElem?_zipIdx, there, Option.map_some, Nat.zero_add,
    gained]
  cases added <;> rfl

end Module

theorem expandItems_code {facts : ModuleFacts} {machine : MachineFacts}
    (declared : machine ∈ facts.machines) (items : List Item) :
    [Item.other (machine.code facts), .other (machine.expand facts).2.code] <:+:
        expandItems facts items ∧
      Item.other (errorCode facts.errors) ∈ expandItems facts items := by
  unfold expandItems
  extract_lets expanded fieldsAt kept appended
  have listed : [machine.code facts, (machine.expand facts).2.code] <:+: appended := by
    simp only [appended, expanded, List.flatMap_def]
    exact List.infix_of_mem_flatten (List.mem_map_of_mem (List.mem_map_of_mem declared))
  have behind : appended <:+: errorCode facts.errors :: appended := (List.suffix_cons _ _).isInfix
  constructor
  · exact ((listed.trans behind).map Item.other).trans (List.suffix_append kept _).isInfix
  · simp

theorem withFields_named {s : Struct} (extensible : ∀ content, s.fields ≠ .tuple content)
    (added : List NamedField) :
    ∃ own trailing, (s.withFields added).fields = .named (own ++ added) trailing := by
  cases fields : s.fields with
  | named own trailing => exact ⟨own, trailing && added.isEmpty, by simp [Struct.withFields, fields]⟩
  | unit => exact ⟨[], false, by simp [Struct.withFields, fields]⟩
  | tuple content => exact absurd fields (extensible content)

/-- Code is emitted for a machine, with fields for its struct, just when its declarations can be
read, it is declared with both its enums on a struct that can be extended, and no error is found.
Otherwise its struct stays as it is, and a finding or an error in its declarations says why. -/
theorem machine_emitted_iff {m : Module} {items : List Item} (content : m.items = some items)
    {i : Nat} {s : Struct} (there : items[i]? = some (.struct s))
    (declares : s.attributes.any isDeclaration) :
    let facts := ModuleFacts.ofModule m
    let machine := (MachineFacts.ofStruct i s).1
    let errors := (MachineFacts.ofStruct i s).2
    let report := (machine.expand facts).2
    let emitted := report.hasErrors = false ∧ s.Readable ∧ machine.Complete
    machine ∈ facts.machines ∧ errors ⊆ facts.errors ∧
      (machine.code facts ≠ [] ↔ emitted) ∧ (machine.addedFields facts ≠ [] ↔ emitted) ∧
      (¬emitted → (∃ d ∈ report, d.severity = .error ∨ d.severity = .warning) ∨ errors ≠ []) ∧
      ∃ out, m.expand [] = .ok { m with items := some out } ∧
        [Item.other (machine.code facts), .other report.code] <:+: out ∧
        Item.other (errorCode facts.errors) ∈ out ∧
        (emitted → ∃ own trailing, (s.withFields (machine.addedFields facts)).fields =
            .named (own ++ machine.addedFields facts) trailing ∧
          out[i]? = some (Item.struct (s.withFields (machine.addedFields facts))).bare) ∧
        (¬emitted → out[i]? = some (Item.struct s).bare) := by
  intro facts machine errors report emitted
  obtain ⟨declared, recorded⟩ := ModuleFacts.ofModule_struct content there declares
  have readable : machine.malformed = false ↔ s.Readable := by
    rcases ofStruct_cases i s with ⟨whole, reads⟩ | ⟨broken, lost, _⟩
    · exact iff_of_true whole reads
    · exact iff_of_false (by simp [machine, broken]) lost
  have settled : (machine.expand facts).1.isSome ↔ emitted := by
    rw [machine.expand_isSome facts, readable]
  have noticed (left : ¬emitted) :
      (∃ d ∈ report, d.severity = .error ∨ d.severity = .warning) ∨ errors ≠ [] := by
    have missing : (machine.expand facts).1 = none := by
      simpa using mt settled.mp left
    refine (machine.expand_told facts missing).imp_right fun malformed => ?_
    rcases ofStruct_cases i s with ⟨whole, _⟩ | ⟨_, _, told⟩
    · cases whole.symm.trans malformed
    · exact told
  have placed := expandItems_struct content there declares
  obtain ⟨listed, stated⟩ := expandItems_code declared items
  refine ⟨declared, recorded, (machine.code_ne_nil facts).trans settled,
    (machine.addedFields_ne_nil facts).trans settled, noticed, expandItems facts items, ?_, listed,
    stated, fun holds => ?_, fun left => ?_⟩
  · simp [Module.expand, content, facts]
  · obtain ⟨_, _, _, extensible⟩ := id holds
    have some_ : machine.addedFields facts ≠ [] :=
      ((machine.addedFields_ne_nil facts).trans settled).mpr holds
    obtain ⟨own, trailing, grown⟩ := withFields_named extensible (machine.addedFields facts)
    exact ⟨own, trailing, grown, placed.trans (congrArg (fun item => some (Item.bare item)) (if_neg some_))⟩
  · have none : machine.addedFields facts = [] := by
      simpa using mt ((machine.addedFields_ne_nil facts).trans settled).mp left
    exact placed.trans (congrArg (fun item => some (Item.bare item)) (if_pos none))

def torchPlace : Position := ⟨1, 0⟩

def torchAttribute (name : String) (arguments : List (String × String)) : Attribute where
  pos := torchPlace
  path := .word name
  input := .list <| arguments.flatMap fun (argument, value) =>
    [.ident argument torchPlace, .mark '=' false torchPlace, .ident value torchPlace,
     .mark ',' false torchPlace]
  code := []

def torch : Struct where
  attributes :=
    [torchAttribute "state_machine" [("state", "State"), ("trigger", "Trigger")],
     torchAttribute "transition" [("from", "On"), ("trigger", "Power"), ("to", "Off")]]
  visibility := []
  name := "Torch"
  pos := torchPlace
  generics := {}
  fields := .unit

def torchItems : List Item :=
  [.enum ⟨"State", [⟨"Off", torchPlace, none⟩, ⟨"On", torchPlace, none⟩], []⟩,
   .enum ⟨"Trigger", [⟨"Power", torchPlace, none⟩], []⟩,
   .struct torch]

def torchModule : Module where
  attributes := []
  front := []
  name := "torch"
  innerAttributes := []
  items := some torchItems

def torchReference (name : String) : Reference := ⟨.path (.word name), torchPlace⟩

def torchFacts : MachineFacts where
  name := "Torch"
  pos := torchPlace
  generics := {}
  fields := .unit
  declarations :=
    [⟨.machine { state := some (.word "State"), trigger := some (.word "Trigger") }, torchPlace⟩,
     ⟨.transition
       ⟨torchReference "On", torchReference "Power", torchReference "Off", none, none⟩,
       torchPlace⟩]
  itemIndex := 2
  malformed := false

theorem torch_read : MachineFacts.ofStruct 2 torch = (torchFacts, []) := by cbv

theorem torch_emitted_warned :
    let facts := ModuleFacts.ofModule torchModule
    torchFacts.code facts ≠ [] ∧ (torchFacts.addedFields facts).map NamedField.name = ["__fsm_state"] ∧
      (torchFacts.expand facts).2.map Diagnostic.rule = [.unreachableState] ∧
      (torchFacts.expand facts).2.hasErrors = false ∧ torch.Readable ∧ torchFacts.Complete := by
  intro facts
  have settled := machine_emitted_iff (m := torchModule) (i := 2) rfl (s := torch) rfl (by decide)
  simp only [torch_read] at settled
  obtain ⟨_, _, emitted, _⟩ := settled
  have accepted : (torchFacts.expand facts).1.isSome := by decide +kernel
  have written := (torchFacts.code_ne_nil facts).mpr accepted
  exact ⟨written, by decide +kernel, by decide +kernel, emitted.mp written⟩

end Statewright
