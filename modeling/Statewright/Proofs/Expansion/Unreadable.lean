import Statewright.Proofs.Expansion.Order

/-!
# Declarations that cannot be read

A declaration that cannot be read is left out, and an error says so. The rest of its machine is
checked as if it were not there. On the struct it also keeps all code back; on a method it does not.
-/

namespace Statewright

open Grammar Declaration

def Grammar.Attribute.isLegible (a : Attribute) : Bool :=
  (DeclarationKind.of? a).all fun kind => (MachineDeclaration.read kind a).isOk

def legible (attributes : List Attribute) : List Attribute := attributes.filter Attribute.isLegible

def Grammar.Struct.legible (s : Struct) : Struct :=
  { s with attributes := Statewright.legible s.attributes }

def Grammar.Method.legible (m : Method) : Method :=
  { m with
    attributes := Statewright.legible m.attributes
    innerAttributes := Statewright.legible m.innerAttributes }

def Grammar.Associated.legible : Associated → Associated
  | .method m => .method m.legible
  | .other c => .other c

def Grammar.Item.legible : Item → Item
  | .struct s => .struct s.legible
  | .implementation i =>
    if i.traitFront.isNone then
      .implementation { i with entries := i.entries.map Associated.legible }
    else .implementation i
  | item => item

def Grammar.Module.legible (m : Module) : Module :=
  { m with items := m.items.map (List.map Item.legible) }

section ReadAll

variable {α β : Type} (read : α → Except (List ArgumentError) β) (l : List α)

theorem readAll_legible :
    readAll read (l.filter fun a => (read a).isOk) = ((readAll read l).1, []) := by
  induction l with
  | nil => rfl
  | cons a rest ih =>
      cases outcome : read a with
      | ok b =>
          have kept : (read a).isOk = true := by rw [outcome]; rfl
          rw [List.filter_cons, if_pos kept, readAll, ih, readAll, outcome]
      | error errors =>
          have dropped : ¬(read a).isOk = true := by rw [outcome]; exact Bool.false_ne_true
          rw [List.filter_cons, if_neg dropped, ih, readAll, outcome]

theorem readAll_length :
    (readAll read l).1.length = (l.filter fun a => (read a).isOk).length := by
  induction l with
  | nil => rfl
  | cons a rest ih =>
      cases outcome : read a with
      | ok b =>
          have kept : (read a).isOk = true := by rw [outcome]; rfl
          rw [List.filter_cons, if_pos kept, readAll, outcome, List.length_cons, ih,
            List.length_cons]
      | error errors =>
          have dropped : ¬(read a).isOk = true := by rw [outcome]; exact Bool.false_ne_true
          rw [List.filter_cons, if_neg dropped, readAll, outcome, ih]

theorem readAll_errors {a : α} {errors : List ArgumentError} (listed : a ∈ l)
    (failed : read a = .error errors) : errors ⊆ (readAll read l).2 := by
  induction l with
  | nil => cases listed
  | cons b rest ih =>
      rcases List.mem_cons.mp listed with rfl | later
      · rw [readAll, failed]
        exact List.subset_append_left _ _
      · have found := ih later
        rw [readAll]
        cases read b with
        | ok value => exact found
        | error more => exact List.subset_append_of_subset_right _ found

end ReadAll

theorem isOk_map {ε α β : Type} (f : α → β) (outcome : Except ε α) :
    (outcome.map f).isOk = outcome.isOk := by
  cases outcome <;> rfl

theorem declaring_legible (s : Struct) :
    s.legible.declaring = s.declaring.filter fun entry => (readDeclaration entry).isOk := by
  simp only [Struct.declaring, Struct.legible, legible, List.filterMap_filter,
    List.filter_filterMap]
  refine List.filterMap_congr fun a _ => ?_
  cases known : DeclarationKind.of? a with
  | none => simp
  | some kind => simp [Attribute.isLegible, known, readDeclaration, isOk_map, Option.filter]

theorem ofStruct_legible (i : Nat) (s : Struct) :
    MachineFacts.ofStruct i s.legible =
      ({ (MachineFacts.ofStruct i s).1 with malformed := false }, []) := by
  simp only [ofStruct_eq, declaring_legible, readAll_legible, readAll_length, Nat.lt_irrefl,
    decide_false]
  rfl

theorem isLegible_payload {a : Attribute} (named : a.isNamed DeclarationKind.payload.name) :
    a.isLegible = (PayloadArguments.read a).isOk := by
  rw [Attribute.isLegible, of?_named named]
  exact isOk_map _ _

theorem ofMethod_legible (owner : String) (m : Method) :
    MethodFacts.ofMethod owner m.legible = ((MethodFacts.ofMethod owner m).1, []) := by
  have kept : m.legible.declaring = m.declaring.filter fun a => (readPayload a).isOk := by
    simp only [Method.declaring, Method.legible, legible, ← List.filter_append, List.filter_filter]
    refine List.filter_congr fun a _ => ?_
    cases named : a.isNamed DeclarationKind.payload.name with
    | false => simp
    | true => simp [isLegible_payload named, readPayload, isOk_map]
  rw [ofMethod_eq, kept, readAll_legible, ofMethod_eq]
  rfl

theorem methodsAt_legible (item : Item) :
    methodsAt item.legible = (methodsAt item).map fun found => (found.1, []) := by
  cases item with
  | implementation impl =>
      simp only [Item.legible]
      cases bare : impl.traitFront with
      | some front => simp [methodsAt, bare]
      | none =>
          cases owned : ownerName? impl.owner with
          | none => simp [methodsAt, bare, owned]
          | some owner =>
              simp only [methodsAt, bare, owned, Option.isNone_none, if_true, List.filterMap_map,
                List.map_filterMap]
              refine List.filterMap_congr fun entry _ => ?_
              cases entry with
              | method me => simp [Associated.legible, ofMethod_legible]
              | other c => rfl
  | _ => rfl

theorem offers_legible (item : Item) : item.legible.offers = item.offers := by
  refine Prod.ext ?_ ?_
  · cases item with
    | implementation impl =>
        simp only [Item.legible]
        split <;> rfl
    | _ => rfl
  · simp [Item.offers, methodsAt_legible]

theorem Grammar.Module.legible_items {m : Module} {items : List Item}
    (content : m.items = some items) : m.legible.items = some (items.map Item.legible) := by
  rw [legible, content]
  rfl

section Module

variable {m : Module} {items : List Item} (content : m.items = some items)
include content

theorem ofModule_legible :
    (ModuleFacts.ofModule m).Shares (ModuleFacts.ofModule m.legible) := by
  refine shares_of_offers (Module.legible_items content) content rfl ?_
  rw [List.map_map]
  exact List.map_congr_left fun item _ => (offers_legible item).symm

theorem errors_legible : (ModuleFacts.ofModule m.legible).errors = [] := by
  rw [ModuleFacts.ofModule_errors (Module.legible_items content)]
  refine List.flatMap_eq_nil_iff.mpr fun (next, i) listed => ?_
  obtain ⟨item, _, rfl⟩ := List.mem_map.mp (List.fst_mem_of_mem_zipIdx listed)
  have methods : (methodsAt item.legible).flatMap Prod.snd = [] := by
    simp [methodsAt_legible, List.flatMap_map]
  rw [errorsAt, methods, List.append_nil]
  cases item with
  | struct s =>
      simp only [Item.legible, machineAt?]
      split
      · simp [ofStruct_legible]
      · rfl
  | implementation impl =>
      simp only [Item.legible]
      split <;> rfl
  | _ => rfl

end Module

/-! ## Building -/

namespace Build

def Setting.within (cx : Setting) (facts : ModuleFacts) (malformed : Bool) : Setting :=
  { cx with machine := { cx.machine with malformed }, facts }

section Within

variable {cx : Setting} {facts : ModuleFacts} (shares : facts.Shares cx.facts) (malformed : Bool)
include shares

theorem declarePayloads_within :
    declarePayloads (cx.within facts malformed) = declarePayloads cx := by
  obtain ⟨machine, ⟨name, enums, types, methods, machines, errors⟩, states, triggers, primary⟩ := cx
  obtain ⟨name, enums, otherTypes, methods, otherMachines, otherErrors⟩ := facts
  obtain ⟨rfl, rfl, rfl⟩ := shares
  rfl

theorem addDeclaration_within :
    addDeclaration (cx.within facts malformed) = addDeclaration cx := by
  obtain ⟨machine, ⟨name, enums, types, methods, machines, errors⟩, states, triggers, primary⟩ := cx
  obtain ⟨name, enums, otherTypes, methods, otherMachines, otherErrors⟩ := facts
  obtain ⟨rfl, rfl, rfl⟩ := shares
  funext d e
  obtain ⟨value, pos⟩ := e
  cases value <;> rfl

theorem draft_within (report : Report) :
    draft (cx.within facts malformed) report = draft cx report := by
  unfold draft
  rw [declarePayloads_within shares, addDeclaration_within shares]
  rfl

theorem finish_within (d : Draft) : finish (cx.within facts malformed) d = finish cx d := by
  simp only [finish, Setting.within, shares.name]
  rfl

theorem outcome_within (whole : cx.machine.malformed = false) (d : Draft) :
    (cx.within facts malformed).outcome d =
      (if malformed then none else (cx.outcome d).1, (cx.outcome d).2) := by
  have settled : (cx.within facts malformed).machine.malformed = malformed := rfl
  simp only [Setting.outcome, finish_within shares, whole, settled, Bool.or_false]
  refine Prod.ext ?_ rfl
  cases malformed <;> simp

end Within

end Build

namespace MachineFacts

variable {rest : MachineFacts} (whole : rest.malformed = false) {facts known : ModuleFacts}
  (shares : facts.Shares known) (malformed : Bool)
include whole shares

theorem build_lost :
    MachineFacts.build { rest with malformed } facts =
      (if malformed then none else (rest.build known).1, (rest.build known).2) := by
  let machine : MachineFacts := { rest with malformed }
  show machine.build facts = _
  have stopped (report : Report) :
      ((none : Option Model), report) = (if malformed then none else none, report) := by simp
  cases declared : rest.primary? with
  | none =>
      have also : machine.primary? = none := declared
      rw [build_undeclared declared, build_undeclared also]
      exact stopped _
  | some primary =>
      have also : machine.primary? = some primary := declared
      by_cases tuple : ∃ content, rest.fields = .tuple content
      · obtain ⟨content, tuple⟩ := tuple
        rw [build_tuple declared tuple, build_tuple also tuple]
        exact stopped _
      · have extensible : ∀ content, rest.fields ≠ .tuple content := by simpa using tuple
        have enums : machine.enums? facts = rest.enums? known :=
          enums?_shared shares declared also rfl
        cases found : rest.enums? known with
        | none =>
            rw [build_open declared extensible found,
              build_open also extensible (enums.trans found)]
            exact stopped _
        | some both =>
            obtain ⟨states, triggers⟩ := both
            let cx : Build.Setting := ⟨rest, known, states, triggers, primary.value⟩
            have within : (⟨machine, facts, states, triggers, primary.value⟩ : Build.Setting) =
                cx.within facts malformed := rfl
            have around : facts.Shares cx.facts := shares
            rw [build_known declared extensible found,
              build_known also extensible (enums.trans found), within, Build.draft_within around]
            exact Build.outcome_within around malformed whole _

theorem expand_lost : MachineFacts.expand { rest with malformed } facts =
    if malformed then (none, (rest.build known).2) else rest.expand known := by
  have built := build_lost whole shares malformed
  cases malformed with
  | true =>
      unfold expand
      rw [built]
      rfl
  | false =>
      unfold expand
      rw [built]
      rfl

end MachineFacts

/-! ## The expanded module -/

section Module

variable {m : Module} {items : List Item} (content : m.items = some items)
include content

theorem method_errors_recorded {impl : Implementation} (listed : .implementation impl ∈ items)
    (inherent : impl.traitFront = none) {owner : String} (owned : ownerName? impl.owner = some owner)
    {me : Method} (entry : .method me ∈ impl.entries) {a : Attribute} (declared : a ∈ me.declaring)
    {errors : List ArgumentError} (failed : PayloadArguments.read a = .error errors) :
    errors ⊆ (ModuleFacts.ofModule m).errors := by
  have read : readPayload a = .error errors := by rw [readPayload, failed]; rfl
  have told : errors ⊆ (MethodFacts.ofMethod owner me).2 :=
    readAll_errors readPayload me.declaring declared read
  have known : MethodFacts.ofMethod owner me ∈ methodsAt (.implementation impl) := by
    simp only [methodsAt, inherent, owned]
    exact List.mem_filterMap.mpr ⟨_, entry, rfl⟩
  obtain ⟨i, there⟩ := List.mem_iff_getElem?.mp listed
  rw [ModuleFacts.ofModule_errors content]
  refine fun e found => List.mem_flatMap.mpr
    ⟨(_, i), List.mk_mem_zipIdx_iff_getElem?.mpr there, List.mem_append_right _ ?_⟩
  exact List.mem_flatMap.mpr ⟨_, known, told found⟩

/-- What cannot be read is left out, and an error says so: the machine is checked and reported on as
if it were not there. On the struct it keeps back all code and all fields. On a method it does not:
the machine is emitted just as without it. -/
theorem unreadable_left_out {i : Nat} {s : Struct} (there : items[i]? = some (.struct s))
    (declares : s.attributes.any isDeclaration) :
    let facts := ModuleFacts.ofModule m
    let machine := (MachineFacts.ofStruct i s).1
    let errors := (MachineFacts.ofStruct i s).2
    let known := ModuleFacts.ofModule m.legible
    let rest := (MachineFacts.ofStruct i s.legible).1
    rest.malformed = false ∧ known.errors = [] ∧
      (machine.build facts).2 = (rest.build known).2 ∧
      (¬s.Readable → errors ≠ [] ∧ errors ⊆ facts.errors ∧
        machine.expand facts = (none, (rest.build known).2) ∧
        ∃ out, m.expand [] = .ok { m with items := some out } ∧
          out[i]? = some (Item.struct s).bare ∧
          [Item.other [], .other (rest.build known).2.code] <:+: out ∧
          Item.other (errorCode facts.errors) ∈ out) ∧
      (s.Readable → machine.expand facts = rest.expand known) ∧
      ∀ impl me a errors, Item.implementation impl ∈ items → impl.traitFront = none →
        ownerName? impl.owner = some s.name → .method me ∈ impl.entries → a ∈ me.declaring →
        PayloadArguments.read a = .error errors → errors ≠ [] ∧ errors ⊆ facts.errors := by
  intro facts machine errors known rest
  obtain ⟨listed, recorded⟩ := ModuleFacts.ofModule_struct content there declares
  have shares : facts.Shares known := ofModule_legible content
  have legible : rest = { machine with malformed := false } :=
    congrArg Prod.fst (ofStruct_legible i s)
  have whole : rest.malformed = false := congrArg MachineFacts.malformed legible
  have same : machine = { rest with malformed := machine.malformed } := by rw [legible]
  have built := MachineFacts.build_lost whole shares machine.malformed
  have expanded := MachineFacts.expand_lost whole shares machine.malformed
  rw [← same] at built expanded
  refine ⟨whole, errors_legible content, by rw [built], fun unreadable => ?_,
    fun readable => ?_, ?_⟩
  · rcases ofStruct_cases i s with ⟨_, readable⟩ | ⟨malformed, _, told⟩
    · exact absurd readable unreadable
    · have stopped : machine.expand facts = (none, (rest.build known).2) :=
        expanded.trans (if_pos malformed)
      have code : machine.code facts = [] := by rw [MachineFacts.code, stopped]; rfl
      have fields : machine.addedFields facts = [] := by
        rw [MachineFacts.addedFields, stopped]; rfl
      obtain ⟨inside, stated⟩ := expandItems_code listed items
      have placed := expandItems_struct content there declares
      rw [code, stopped] at inside
      refine ⟨told, recorded, stopped, expandItems facts items, ?_, ?_, inside, stated⟩
      · simp [Module.expand, content, facts]
      · exact placed.trans (congrArg (fun item => some (Item.bare item)) (if_pos fields))
  · rcases ofStruct_cases i s with ⟨sound, _⟩ | ⟨_, unreadable, _⟩
    · exact expanded.trans (if_neg (by simp [machine, sound]))
    · exact absurd readable unreadable
  · intro impl me a errors there inherent owned entry declared failed
    exact ⟨PayloadArguments.read_told failed,
      method_errors_recorded content there inherent owned entry declared failed⟩

end Module

def typeless : Attribute := torchAttribute "payload_type" [("trigger", "Put")]

def scale (more : List Attribute) : Struct where
  attributes :=
    [torchAttribute "state_machine" [("state", "State"), ("trigger", "Trigger")],
     torchAttribute "transition"
       [("from", "Empty"), ("trigger", "Put"), ("to", "Full"), ("action", "weigh")]] ++ more
  visibility := []
  name := "Scale"
  pos := torchPlace
  generics := {}
  fields := .unit

def weigh (attributes : List Attribute) : Method := { glow with name := "weigh", attributes }

def weighing (attributes : List Attribute) : Implementation :=
  ⟨[], [], {}, none, .path (.word "Scale"), [], [.method (weigh attributes)]⟩

def scaleItems (onStruct onMethod : List Attribute) : List Item :=
  [.enum ⟨"State", [⟨"Empty", torchPlace, none⟩, ⟨"Full", torchPlace, none⟩], []⟩,
   .enum ⟨"Trigger", [⟨"Put", torchPlace, none⟩], []⟩,
   .struct (scale onStruct),
   .implementation (weighing onMethod)]

def scaleModule (onStruct onMethod : List Attribute) : Module where
  attributes := []
  front := []
  name := "scale"
  innerAttributes := []
  items := some (scaleItems onStruct onMethod)

def scaleFacts : MachineFacts where
  name := "Scale"
  pos := torchPlace
  generics := {}
  fields := .unit
  declarations :=
    [⟨.machine { state := some (.word "State"), trigger := some (.word "Trigger") }, torchPlace⟩,
     ⟨.transition
       ⟨torchReference "Empty", torchReference "Put", torchReference "Full", none, some "weigh"⟩,
       torchPlace⟩]
  itemIndex := 2
  malformed := false

def scaleSurroundings : ModuleFacts where
  name := "scale"
  enums :=
    [⟨"State", [⟨"Empty", torchPlace, some 0⟩, ⟨"Full", torchPlace, some 1⟩]⟩,
     ⟨"Trigger", [⟨"Put", torchPlace, some 0⟩]⟩]
  methods := [⟨"Scale", "weigh", .exclusive, [], none, false, []⟩]

theorem scale_read : MachineFacts.ofStruct 2 (scale []) = (scaleFacts, []) := by cbv

theorem scale_surrounded :
    (ModuleFacts.ofModule (scaleModule [] [typeless])).Shares scaleSurroundings := by
  refine ⟨rfl, ?_, ?_⟩
  · rw [ModuleFacts.ofModule_enums rfl]
    rfl
  · rw [ModuleFacts.ofModule_methods rfl]
    cbv

theorem typeless_unread :
    PayloadArguments.read typeless = .error [⟨.missingField "ty", none⟩] := by cbv

theorem scale_held_back :
    let s := scale [typeless]
    let facts := ModuleFacts.ofModule (scaleModule [typeless] [])
    ¬s.Readable ∧ ((MachineFacts.ofStruct 2 s).1.expand facts).1 = none ∧
      (MachineFacts.ofStruct 2 s).2 ≠ [] ∧ (MachineFacts.ofStruct 2 s).2 ⊆ facts.errors := by
  intro s facts
  obtain ⟨_, _, _, held, _⟩ := unreadable_left_out (m := scaleModule [typeless] []) rfl (i := 2)
    (s := s) rfl (by decide)
  have unreadable : ¬s.Readable := by
    intro readable
    obtain ⟨d, read⟩ := readable typeless (by simp [s, scale]) .payload (of?_named (by decide))
    rw [MachineDeclaration.read, typeless_unread] at read
    cases read
  obtain ⟨told, recorded, stopped, _⟩ := held unreadable
  exact ⟨unreadable, congrArg Prod.fst stopped, told, recorded⟩

theorem scale_emitted_unread :
    let s := scale []
    let facts := ModuleFacts.ofModule (scaleModule [] [typeless])
    Item.implementation (weighing [typeless]) ∈ scaleItems [] [typeless] ∧
      ownerName? (weighing [typeless]).owner = some s.name ∧
      .method (weigh [typeless]) ∈ (weighing [typeless]).entries ∧
      typeless ∈ (weigh [typeless]).declaring ∧
      (∃ errors, PayloadArguments.read typeless = .error errors) ∧
      (MachineFacts.ofStruct 2 s).1.code facts ≠ [] ∧
      (MachineFacts.ofStruct 2 s).1.addedFields facts ≠ [] := by
  intro s facts
  have whole : scaleFacts.malformed = false := rfl
  have same : scaleFacts.expand facts = scaleFacts.expand scaleSurroundings :=
    MachineFacts.expand_lost whole scale_surrounded false
  have accepted : (scaleFacts.expand scaleSurroundings).1.isSome := by decide +kernel
  have emitted : ((MachineFacts.ofStruct 2 s).1.expand facts).1.isSome := by
    rw [scale_read, same]
    exact accepted
  have declared : typeless ∈ (weigh [typeless]).declaring :=
    List.mem_filter.mpr ⟨List.mem_cons_self, by decide⟩
  exact ⟨by simp [scaleItems], by decide, List.mem_cons_self, declared, ⟨_, typeless_unread⟩,
    (MachineFacts.code_ne_nil _ facts).mpr emitted,
    (MachineFacts.addedFields_ne_nil _ facts).mpr emitted⟩

end Statewright
