import Mathlib
import Statewright.Proofs.Build.Agreement
import Statewright.Proofs.Check.Reachability

/-!
# Order of declarations

Declarations that do not repeat each other can be rearranged: the machine is accepted as before, the
same is reported in some order, and the machine that is emitted behaves in the same way.
-/

namespace Statewright

open Grammar Declaration

def Model.Reorders (other m : Model) : Prop :=
  ∃ transitions triggerPayloads, other = { m with transitions, triggerPayloads } ∧
    m.transitions.Perm transitions ∧ m.triggerPayloads.Perm triggerPayloads

namespace Model.Reorders

variable {m other : Model} (reorders : other.Reorders m)
include reorders

theorem features : other.features = m.features := by
  obtain ⟨transitions, payloads, rfl, _, retyped⟩ := reorders
  simp only [Model.features, payloadKind, retyped.isEmpty_eq, retyped.length_eq]

theorem unreachable : other.unreachable = m.unreachable := by
  obtain ⟨transitions, payloads, rfl, moved, _⟩ := reorders
  have same : (m.edges).Perm (Model.edges { m with transitions, triggerPayloads := payloads }) :=
    (moved.map _).append_right _
  exact (Check.unreachableStates_congr (fun edge => same.mem_iff) _).symm

theorem emission :
    (∀ e, m.emission = .ok e → ∃ transitions triggerPayloads,
      other.emission = .ok (e.reordered transitions triggerPayloads) ∧
        e.model.transitions.Perm transitions ∧ e.model.triggerPayloads.Perm triggerPayloads) ∧
      ∀ findings, m.emission = .error findings → other.emission = .error findings := by
  have features := reorders.features
  have kind : other.payloadKind = m.payloadKind := congrArg Features.payload features
  obtain ⟨transitions, payloads, rfl, moved, retyped⟩ := reorders
  have selected : Model.select { m with transitions, triggerPayloads := payloads } = m.select := by
    rw [Model.select, features, Model.select]
  constructor
  · intro e emitted
    obtain ⟨variant, chosen, rfl⟩ := Model.emission_eq_ok.mp emitted
    refine ⟨transitions, payloads, Model.emission_eq_ok.mpr ⟨variant, selected.trans chosen, ?_⟩,
      moved, retyped⟩
    rw [kind]
    rfl
  · intro findings fails
    rw [Model.emission] at fails ⊢
    rw [selected]
    cases chosen : m.select with
    | ok variant => simp [chosen, bind, Except.bind, pure, Except.pure] at fails
    | error found => simpa [chosen, bind, Except.bind] using fails

end Model.Reorders

namespace Build

section Outcome

variable {cx other : Setting} (rearranges : other.Rearranges cx) {d next : Draft}
  (agrees : d.Agrees next)
include rearranges agrees

theorem finish_reorders : (finish other next).Reorders (finish cx d) := by
  refine ⟨next.transitions, next.triggerPayloads, ?_, agrees.transitions,
    agrees.pays.triggerPayloads⟩
  have machine := rearranges.machine
  have fields : other.machine.userFields = cx.machine.userFields := by
    rw [MachineFacts.userFields, machine.fields, MachineFacts.userFields]
  have pays := agrees.pays
  simp only [finish, machine.name, machine.generics, rearranges.facts.name, rearranges.stateEnum,
    rearranges.triggerEnum, rearranges.primary, agrees.states, agrees.hasEntryExit, agrees.isAsync,
    isNested_agree agrees rearranges, fields, pays.defaultPayload, pays.hasPayload, Model.features,
    Model.payloadKind, pays.triggerPayloads.isEmpty_eq, pays.triggerPayloads.length_eq]

theorem outcome_rearranged :
    Option.Rel (fun m next : Model => next.Reorders m) (cx.outcome d).1 (other.outcome next).1 ∧
      (cx.outcome d).2.shown.Perm (other.outcome next).2.shown := by
  have reorders := finish_reorders rearranges agrees
  have rejected : next.report.hasErrors = d.report.hasErrors := by
    rw [Report.hasErrors_shown, Report.hasErrors_shown, agrees.report.any_eq]
  constructor
  · rw [Setting.outcome, Setting.outcome, rejected, rearranges.machine.malformed]
    split
    · exact .none
    · exact .some reorders
  · rw [Setting.outcome, Setting.outcome, Report.shown_append, Report.shown_append,
      Report.shown_located, Report.shown_located, reorders.unreachable]
    exact agrees.report.append_right _

end Outcome

end Build

/-! ## Machines -/

def machine? : MachineDeclaration → Option MachineArguments
  | .machine a => some a
  | .transition _ | .internal _ | .state _ | .payload _ => none

namespace MachineFacts

open Build

theorem machineDeclarations_values (machine : MachineFacts) :
    machine.machineDeclarations.map Declared.value =
      machine.declarations.filterMap fun e => machine? e.value := by
  rw [machineDeclarations, List.map_filterMap]
  refine List.filterMap_congr fun e _ => ?_
  cases e.value <;> rfl

variable {machine other : MachineFacts} {facts again : ModuleFacts}
  (rearranges : other.Rearranges machine) (shares : again.Shares facts)
  (single : machine.machineDeclarations.length ≤ 1)

include shares in
theorem enums?_shared {primary moved : Declared MachineArguments}
    (declared : machine.primary? = some primary) (also : other.primary? = some moved)
    (value : moved.value = primary.value) : other.enums? again = machine.enums? facts := by
  have found : again.findEnum? = facts.findEnum? := by
    funext name
    rw [ModuleFacts.findEnum?, shares.enums, ModuleFacts.findEnum?]
  rw [enums?, also, enums?, declared, Option.bind_some, Option.bind_some, value, found]

include rearranges single in
theorem primary_rearranged : (machine.primary? = none ∧ other.primary? = none) ∨
    ∃ primary moved, machine.primary? = some primary ∧ other.primary? = some moved ∧
      moved.value = primary.value ∧ machine.opening primary = [] ∧ other.opening moved = [] := by
  have same : (machine.machineDeclarations.map Declared.value).Perm
      (other.machineDeclarations.map Declared.value) := by
    rw [machineDeclarations_values, machineDeclarations_values]
    refine filterMap_moved rearranges.declarations fun e => ?_
    obtain ⟨value, pos⟩ := e
    cases value <;> rfl
  rcases Nat.le_one_iff_eq_zero_or_eq_one.mp single with missing | alone
  · have nothing := List.length_eq_zero_iff.mp missing
    rw [nothing, List.map_nil, List.nil_perm, List.map_eq_nil_iff] at same
    exact .inl ⟨by simp [primary?, nothing], by simp [primary?, same]⟩
  · obtain ⟨primary, alone⟩ := List.length_eq_one_iff.mp alone
    rw [alone, List.map_singleton, List.singleton_perm] at same
    obtain ⟨moved, also, value⟩ := List.map_eq_singleton_iff.mp same.symm
    exact .inr ⟨primary, moved, by simp [primary?, alone], by simp [primary?, also], value,
      by simp [opening, alone], by simp [opening, also]⟩

include rearranges shares single in
theorem build_rearranged
    (unambiguous : ∀ cx, machine.setting? facts = some cx → cx.Unambiguous) :
    Option.Rel (fun m next : Model => next.Reorders m) (machine.build facts).1
        (other.build again).1 ∧
      (machine.build facts).2.shown.Perm (other.build again).2.shown := by
  rcases primary_rearranged rearranges single with
    ⟨undeclared, also⟩ | ⟨primary, moved, declared, also, value, opening, reopening⟩
  · rw [build_undeclared undeclared, build_undeclared also, rearranges.name]
    exact ⟨.none, .refl _⟩
  have enums := enums?_shared shares declared also value
  have shown {f g : Finding} (same : g = f) :
      Report.shown ([] ++ [Diagnostic.ofOutcome primary.pos f.outcome]) =
        Report.shown ([] ++ [Diagnostic.ofOutcome moved.pos g.outcome]) := by
    rw [same]
    rfl
  by_cases tuple : ∃ content, machine.fields = .tuple content
  · obtain ⟨content, tuple⟩ := tuple
    rw [build_tuple declared tuple, build_tuple also (rearranges.fields.trans tuple), opening,
      reopening]
    exact ⟨.none, .of_eq (shown (by rw [rearranges.name]))⟩
  · have extensible : ∀ content, machine.fields ≠ .tuple content := by simpa using tuple
    have extends? : ∀ content, other.fields ≠ .tuple content := by rwa [rearranges.fields]
    cases known : machine.enums? facts with
    | none =>
        rw [build_open declared extensible known, build_open also extends? (enums.trans known),
          opening, reopening]
        exact ⟨.none, .of_eq (shown (by rw [rearranges.name, value]))⟩
    | some both =>
        obtain ⟨states, triggers⟩ := both
        rw [build_known declared extensible known, build_known also extends? (enums.trans known),
          opening, reopening]
        have clear := unambiguous _ (setting?_eq_some.mpr
          ⟨extensible, primary, states, triggers, declared, known, rfl⟩)
        have settings : Setting.Rearranges ⟨other, again, states, triggers, moved.value⟩
            ⟨machine, facts, states, triggers, primary.value⟩ :=
          ⟨rearranges, shares, rfl, rfl, value⟩
        exact outcome_rearranged settings (draft_agrees settings clear)

include rearranges shares single in
theorem expand_rearranged
    (unambiguous : ∀ cx, machine.setting? facts = some cx → cx.Unambiguous) :
    Option.Rel (fun e next : Emission => ∃ transitions triggerPayloads,
        next = e.reordered transitions triggerPayloads ∧ e.model.transitions.Perm transitions ∧
          e.model.triggerPayloads.Perm triggerPayloads)
        (machine.expand facts).1 (other.expand again).1 ∧
      (machine.expand facts).2.shown.Perm (other.expand again).2.shown := by
  obtain ⟨models, reports⟩ := build_rearranged rearranges shares single unambiguous
  unfold expand
  generalize machine.build facts = first at models reports
  generalize other.build again = second at models reports
  obtain ⟨before, report⟩ := first
  obtain ⟨after, told⟩ := second
  cases models with
  | none => exact ⟨.none, reports⟩
  | @some m next reorders =>
      obtain ⟨emits, fails⟩ := reorders.emission
      cases emitted : m.emission with
      | ok e =>
          obtain ⟨transitions, payloads, also, moved, retyped⟩ := emits e emitted
          simp only [emitted, also]
          exact ⟨.some ⟨transitions, payloads, rfl, moved, retyped⟩, reports⟩
      | error findings =>
          -- told of where the machine is declared, which may have another place now
          simp only [emitted, fails findings emitted, Report.shown_append]
          refine ⟨.none, reports.append (.of_eq ?_)⟩
          rw [Report.shown_findings findings fun _ => _, Report.shown_findings findings fun _ => _]

theorem expand_accepted {e : Emission} (emitted : (machine.expand facts).1 = some e) :
    e.Accepted := by
  rw [expand] at emitted
  rcases built : machine.build facts with ⟨_ | m, report⟩
  · simp [built] at emitted
  · cases outcome : m.emission with
    | error findings => simp [built, outcome] at emitted
    | ok made =>
        obtain rfl : made = e := by simpa [built, outcome] using emitted
        obtain ⟨variant, _, rfl⟩ := Model.emission_eq_ok.mp outcome
        exact ⟨machine, facts, by rw [built], outcome⟩

end MachineFacts

/-! ## Attributes -/

/-- What an attribute declares wherever it stands, or what keeps it from being read. -/
def Grammar.Attribute.declared? (a : Attribute) :
    Option (Except (List ArgumentError) MachineDeclaration) :=
  (DeclarationKind.of? a).map fun kind =>
    (MachineDeclaration.read kind a).map MachineDeclaration.placeless

/-- The struct is the same but for the order of its declarations, the places in it and attributes
that declare nothing. -/
structure Grammar.Struct.Rearranges (t s : Struct) : Prop where
  name : t.name = s.name
  generics : t.generics = s.generics
  fields : t.fields = s.fields
  attributes : (s.attributes.filterMap Attribute.declared?).Perm
    (t.attributes.filterMap Attribute.declared?)

section Attributes

variable {s t : Struct}

theorem Grammar.Struct.rearranges_of_perm {attributes : List Attribute}
    (moved : s.attributes.Perm attributes) : Struct.Rearranges { s with attributes } s :=
  ⟨rfl, rfl, rfl, moved.filterMap _⟩

theorem readAll_values {α β : Type} (read : α → Except (List ArgumentError) β) (l : List α) :
    (readAll read l).1 = l.filterMap fun a => (read a).toOption := by
  induction l with
  | nil => rfl
  | cons a rest ih => cases outcome : read a <;> simp [readAll, outcome, ih, Except.toOption]

theorem ofStruct_declarations (i : Nat) (s : Struct) :
    (MachineFacts.ofStruct i s).1.declarations.map Declared.placeless =
      (s.attributes.filterMap Attribute.declared?).filterMap fun declared =>
        declared.toOption.map fun d => ⟨d, ⟨0, 0⟩⟩ := by
  simp only [MachineFacts.ofStruct, readAll_values, List.map_filterMap, List.filterMap_filterMap]
  refine List.filterMap_congr fun a _ => ?_
  cases known : DeclarationKind.of? a with
  | none => simp [Attribute.declared?, known]
  | some kind =>
      cases read : MachineDeclaration.read kind a <;>
        simp [Attribute.declared?, known, read, Except.map, Except.toOption, Declared.placeless]

/-- What keeps a declaration from being read. -/
def failures {ε α : Type} : Except (List ε) α → List ε
  | .ok _ => []
  | .error found => found

theorem readAll_failures {α β : Type} (read : α → Except (List ArgumentError) β) (l : List α) :
    (readAll read l).2 = l.flatMap fun a => failures (read a) := by
  induction l with
  | nil => rfl
  | cons a rest ih => cases outcome : read a <;> simp [readAll, outcome, ih, failures]

theorem ofStruct_failures (i : Nat) (s : Struct) :
    (MachineFacts.ofStruct i s).2 =
      (s.attributes.filterMap Attribute.declared?).flatMap failures := by
  rw [ofStruct_eq, readAll_failures, Struct.declaring]
  induction s.attributes with
  | nil => rfl
  | cons a rest ih =>
      cases known : DeclarationKind.of? a with
      | none => simpa [Attribute.declared?, known] using ih
      | some kind =>
          cases read : MachineDeclaration.read kind a <;>
            simpa [Attribute.declared?, known, read, readDeclaration, failures, Except.map] using ih

theorem ofStruct_malformed (i : Nat) (s : Struct) : (MachineFacts.ofStruct i s).1.malformed =
    decide (((MachineFacts.ofStruct i s).1.declarations.map Declared.placeless).length <
      (s.attributes.filterMap Attribute.declared?).length) := by
  have found : (s.attributes.filterMap Attribute.declared?).length = (s.attributes.filterMap
      fun a => (DeclarationKind.of? a).map fun kind => (kind, a)).length := by
    simp [List.length_filterMap_eq_countP, Attribute.declared?]
  rw [found, List.length_map]
  rfl

theorem ofStruct_rearranges (rearranges : t.Rearranges s) (i : Nat) :
    (MachineFacts.ofStruct i t).1.Rearranges (MachineFacts.ofStruct i s).1 := by
  have moved : ((MachineFacts.ofStruct i s).1.declarations.map Declared.placeless).Perm
      ((MachineFacts.ofStruct i t).1.declarations.map Declared.placeless) := by
    rw [ofStruct_declarations, ofStruct_declarations]
    exact rearranges.attributes.filterMap _
  refine ⟨rearranges.name, rearranges.generics, rearranges.fields, ?_, moved⟩
  rw [ofStruct_malformed, ofStruct_malformed, moved.length_eq, rearranges.attributes.length_eq]

end Attributes

def Grammar.Item.offers (item : Item) : Option EnumFacts × List MethodFacts :=
  (enum? item, (methodsAt item).map Prod.fst)

theorem shares_of_offers {m other : Module} {items others : List Item}
    (content : m.items = some items) (recontent : other.items = some others)
    (name : other.name = m.name) (same : others.map Item.offers = items.map Item.offers) :
    (ModuleFacts.ofModule other).Shares (ModuleFacts.ofModule m) where
  name := by rw [ModuleFacts.ofModule_eq recontent, ModuleFacts.ofModule_eq content]; exact name
  enums := by
    have enums (items : List Item) :
        items.filterMap enum? = (items.map Item.offers).filterMap Prod.fst := by
      rw [List.filterMap_map]
      rfl
    rw [ModuleFacts.ofModule_enums recontent, ModuleFacts.ofModule_enums content, enums, same,
      ← enums]
  methods := by
    have methods (items : List Item) : (items.flatMap fun item => (methodsAt item).map Prod.fst) =
        (items.map Item.offers).flatMap Prod.snd := by
      rw [List.flatMap_map]
      rfl
    rw [ModuleFacts.ofModule_methods recontent, ModuleFacts.ofModule_methods content, methods, same,
      ← methods]

theorem ofModule_shares {m : Module} {items : List Item} (content : m.items = some items) {i : Nat}
    {s : Struct} (there : items[i]? = some (.struct s)) (t : Struct) :
    (ModuleFacts.ofModule { m with items := some (items.set i (.struct t)) }).Shares
      (ModuleFacts.ofModule m) := by
  refine shares_of_offers content rfl rfl ?_
  have here : (items.map Item.offers)[i]? = some (Item.struct t).offers := by
    rw [List.getElem?_map, there]
    rfl
  obtain ⟨bound, here⟩ := List.getElem?_eq_some_iff.mp here
  rw [List.map_set, ← here, List.set_getElem_self]

theorem errorsAt_struct (i : Nat) (s : Struct) :
    errorsAt (.struct s, i) = (MachineFacts.ofStruct i s).2 := by
  by_cases declares : s.attributes.any isDeclaration
  · simp [errorsAt, machineAt?, methodsAt, declares]
  · have nothing : s.attributes.filterMap Attribute.declared? = [] := by
      refine List.filterMap_eq_nil_iff.mpr fun a listed => ?_
      have quiet := List.any_eq_false.mp (Bool.eq_false_iff.mpr declares) a listed
      simpa [isDeclaration, Attribute.declared?] using quiet
    simp [errorsAt, machineAt?, methodsAt, declares, ofStruct_failures, nothing]

theorem ofModule_errors_rearranged {m : Module} {items : List Item} (content : m.items = some items)
    {i : Nat} {s t : Struct} (there : items[i]? = some (.struct s)) (rearranges : t.Rearranges s) :
    (ModuleFacts.ofModule m).errors.Perm
      (ModuleFacts.ofModule { m with items := some (items.set i (.struct t)) }).errors := by
  have changed : ({ m with items := some (items.set i (.struct t)) } : Module).items =
      some (items.set i (.struct t)) := rfl
  obtain ⟨bound, here⟩ := List.getElem?_eq_some_iff.mp there
  obtain ⟨before, behind, split, -, turned⟩ : ∃ before behind,
      items = before ++ items[i] :: behind ∧ before.length = i ∧
        items.set i (.struct t) = before ++ .struct t :: behind :=
    List.exists_of_set bound
  rw [ModuleFacts.ofModule_errors content, ModuleFacts.ofModule_errors changed, turned, split, here]
  simp only [List.zipIdx_append, List.zipIdx_cons, List.flatMap_append, List.flatMap_cons,
    errorsAt_struct, ofStruct_failures]
  exact ((rearranges.attributes.flatMap_right _).append_right _).append_left _

section Behaviour

open Build Execution

/-- Where neither the machine nor a state, a transition or a payload type is declared twice and all
callbacks agree in their mode, the order of the attributes on a struct does not matter, whether they
can be read or not: the machine is accepted as before, the same is reported in some order, and no
sequence of calls tells the machines apart. -/
theorem attributes_unordered {m : Module} {items : List Item} (content : m.items = some items)
    {i : Nat} {s t : Struct} (there : items[i]? = some (.struct s)) (rearranges : t.Rearranges s) :
    let facts := ModuleFacts.ofModule m
    let again := ModuleFacts.ofModule { m with items := some (items.set i (.struct t)) }
    let machine := (MachineFacts.ofStruct i s).1
    let other := (MachineFacts.ofStruct i t).1
    machine.machineDeclarations.length ≤ 1 →
      (∀ cx, machine.setting? facts = some cx → cx.Unambiguous) →
      ((machine.expand facts).1.isSome ↔ (other.expand again).1.isSome) ∧
        (machine.expand facts).2.shown.Perm (other.expand again).2.shown ∧
        facts.errors.Perm again.errors ∧
        ∀ e next, (machine.expand facts).1 = some e → (other.expand again).1 = some next →
          ∀ (σ υ ω : Type) (h : Host σ υ ω) (state : String) (data : σ) (calls : List (Call σ υ ω)),
            session next h (start next state data) calls =
              session e h (start e state data) calls := by
  intro facts again machine other single unambiguous
  obtain ⟨emissions, reports⟩ := MachineFacts.expand_rearranged (ofStruct_rearranges rearranges i)
    (ofModule_shares content there t) single unambiguous
  refine ⟨?_, reports, ofModule_errors_rearranged content there rearranges, ?_⟩
  · generalize (machine.expand facts).1 = first at emissions
    generalize (other.expand again).1 = second at emissions
    cases emissions <;> simp
  · intro e next emitted also σ υ ω h state data calls
    have accepted := MachineFacts.expand_accepted emitted
    have reaccepted := MachineFacts.expand_accepted also
    rw [emitted, also] at emissions
    cases emissions with
    | some same =>
        obtain ⟨transitions, payloads, rfl, moved, retyped⟩ := same
        exact session_reordered accepted reaccepted moved retyped h (start e state data) calls

def lantern : Struct where
  attributes :=
    [torchAttribute "state_machine" [("state", "State"), ("trigger", "Trigger")],
     torchAttribute "transition" [("from", "Off"), ("trigger", "Power"), ("to", "On")],
     torchAttribute "transition" [("from", "On"), ("trigger", "Power"), ("to", "Off")],
     torchAttribute "state" [("state", "On"), ("on_entry", "glow")]]
  visibility := []
  name := "Lantern"
  pos := torchPlace
  generics := {}
  fields := .unit

def glow : Method where
  attributes := []
  innerAttributes := []
  front := []
  name := "glow"
  generics := {}
  inputs := []
  receiver := .exclusive
  parameters := []
  output := none
  isAsync := false
  body := []

def lanternItems : List Item :=
  [.enum ⟨"State", [⟨"Off", torchPlace, none⟩, ⟨"On", torchPlace, none⟩], []⟩,
   .enum ⟨"Trigger", [⟨"Power", torchPlace, none⟩], []⟩,
   .struct lantern,
   .implementation ⟨[], [], {}, none, .path (.word "Lantern"), [], [.method glow]⟩]

def lanternModule : Module where
  attributes := []
  front := []
  name := "lantern"
  innerAttributes := []
  items := some lanternItems

def lanternTransition (source target : String) : Declared MachineDeclaration :=
  ⟨.transition
    ⟨torchReference source, torchReference "Power", torchReference target, none, none⟩, torchPlace⟩

def lanternFacts : MachineFacts where
  name := "Lantern"
  pos := torchPlace
  generics := {}
  fields := .unit
  declarations :=
    [⟨.machine { state := some (.word "State"), trigger := some (.word "Trigger") }, torchPlace⟩,
     lanternTransition "Off" "On",
     lanternTransition "On" "Off",
     ⟨.state { state := torchReference "On", onEntry := some "glow" }, torchPlace⟩]
  itemIndex := 2
  malformed := false

def lanternSetting : Setting where
  machine := lanternFacts
  facts := .ofModule lanternModule
  stateEnum := ⟨"State", [⟨"Off", torchPlace, some 0⟩, ⟨"On", torchPlace, some 1⟩]⟩
  triggerEnum := ⟨"Trigger", [⟨"Power", torchPlace, some 0⟩]⟩
  primary := { state := some (.word "State"), trigger := some (.word "Trigger") }

theorem lantern_read : MachineFacts.ofStruct 2 lantern = (lanternFacts, []) := by cbv

theorem lantern_unambiguous : lanternSetting.Unambiguous where
  states := by decide +kernel
  transitions := by decide +kernel
  payloads := by decide +kernel
  modes := by decide +kernel

theorem lantern_backwards :
    let turned : Struct := { lantern with attributes := lantern.attributes.reverse }
    let again := { lanternModule with items := some (lanternItems.set 2 (.struct turned)) }
    let other := (MachineFacts.ofStruct 2 turned).1
    (other.expand (.ofModule again)).1.isSome ∧ (other.expand (.ofModule again)).2.shown = [] ∧
      ∀ e next, (lanternFacts.expand (.ofModule lanternModule)).1 = some e →
        (other.expand (.ofModule again)).1 = some next →
        ∀ (h : Host Unit Unit Unit) (calls : List (Call Unit Unit Unit)),
          session next h (start next "Off" ()) calls = session e h (start e "Off" ()) calls := by
  intro turned again other
  have same := attributes_unordered (m := lanternModule) rfl (i := 2) (s := lantern) rfl
    (Struct.rearranges_of_perm (List.reverse_perm lantern.attributes).symm)
  simp only [lantern_read] at same
  have set : lanternFacts.setting? (.ofModule lanternModule) = some lanternSetting := rfl
  obtain ⟨emitted, told, _, behave⟩ := same (Nat.le_of_eq rfl) fun cx found => by
    cases set.symm.trans found
    exact lantern_unambiguous
  have accepted : (lanternFacts.expand (.ofModule lanternModule)).1.isSome := by decide +kernel
  have quiet : (lanternFacts.expand (.ofModule lanternModule)).2.shown = [] := by decide +kernel
  refine ⟨emitted.mp accepted, by simpa [quiet] using told, fun e next first second h calls => ?_⟩
  exact behave e next first second Unit Unit Unit h "Off" () calls

end Behaviour

end Statewright
