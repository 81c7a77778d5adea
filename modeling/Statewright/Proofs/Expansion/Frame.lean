import Statewright.Grammar.Reading
import Statewright.Proofs.Emit.Arms
import Statewright.Proofs.Expansion.Emitted

/-!
# What expansion leaves

The items of a module stay where they are, without their declarations; the structs of emitted
machines gain fields, nothing else changes, and all that is emitted stands behind. Nothing is left
to expand.
-/

namespace Statewright

open Grammar Declaration

/-- Fields with others behind their own. A struct without a list of fields gets one. -/
inductive Grammar.Fields.Gains (added : List NamedField) : Fields → Fields → Prop
  | named (own : List NamedField) (trailing : Bool) :
    Gains added (.named own trailing) (.named (own ++ added) false)
  | unit : Gains added .unit (.named added false)

inductive Grammar.Associated.Leaves : Associated → Associated → Prop
  | method (m : Method) :
    Leaves (.method m)
      (.method
        { m with
          attributes := m.attributes.filter (!isDeclaration ·)
          innerAttributes := m.innerAttributes.filter (!isDeclaration ·) })
  | other (code : Code) : Leaves (.other code) (.other code)

inductive Grammar.Item.Leaves (facts : ModuleFacts) : Item × Nat → Item → Prop
  | emitted {s : Struct} {i : Nat} {fields : Fields} (declares : s.attributes.any isDeclaration)
      (written : (MachineFacts.ofStruct i s).1.code facts ≠ [])
      (gains : s.fields.Gains ((MachineFacts.ofStruct i s).1.addedFields facts) fields) :
    Leaves facts (.struct s, i)
      (.struct { s with attributes := s.attributes.filter (!isDeclaration ·), fields })
  | plain {s : Struct} {i : Nat}
      (silent : s.attributes.any isDeclaration → (MachineFacts.ofStruct i s).1.code facts = []) :
    Leaves facts (.struct s, i)
      (.struct { s with attributes := s.attributes.filter (!isDeclaration ·) })
  | inherent {impl : Implementation} {i : Nat} {entries : List Associated}
      (bare : impl.traitFront = none) (left : List.Forall₂ Associated.Leaves impl.entries entries) :
    Leaves facts (.implementation impl, i) (.implementation { impl with entries })
  | same {item : Item} {i : Nat} (noStruct : ∀ s, item ≠ .struct s)
      (noMethods : ∀ impl, item = .implementation impl → impl.traitFront ≠ none) :
    Leaves facts (item, i) item

def Grammar.Item.attributes : Item → List Attribute
  | .struct s => s.attributes
  | .implementation impl =>
    if impl.traitFront.isNone then
      impl.entries.flatMap fun
        | .method m => m.attributes ++ m.innerAttributes
        | .other _ => []
    else []
  | .enum _ | .typeItem _ _ | .other _ => []

def Grammar.Item.declared (item : Item) : List Attribute := item.attributes.filter isDeclaration

/-- The item read back: it prints the same, and its attributes have the same paths. Where it stands
and what it was before it was printed may differ. -/
structure Grammar.Item.Again (item again : Item) : Prop where
  code : again.code = item.code
  paths : again.attributes.map Attribute.path = item.attributes.map Attribute.path

theorem Grammar.Item.Again.quiet {item again : Item} (read : item.Again again)
    (quiet : item.declared = []) : again.declared = [] := by
  refine List.filter_eq_nil_iff.mpr fun a listed => ?_
  obtain ⟨b, there, same⟩ := List.mem_map.mp (read.paths ▸ List.mem_map_of_mem listed)
  have undeclared := List.filter_eq_nil_iff.mp quiet b there
  simpa only [isDeclaration, DeclarationKind.of?, Attribute.isNamed, same] using undeclared

theorem bare_declared (item : Item) : item.bare.declared = [] := by
  refine List.filter_eq_nil_iff.mpr ?_
  cases item with
  | struct s => simp [Item.bare, Item.attributes, withoutDeclarations]
  | implementation impl =>
      cases inherent : impl.traitFront with
      | some front => simp [Item.bare, Item.attributes, inherent]
      | none =>
          simp only [Item.bare, Item.attributes, inherent, Option.isNone_none, if_true,
            List.flatMap_map]
          intro a listed
          obtain ⟨entry, _, inside⟩ := List.mem_flatMap.mp listed
          cases entry with
          | method me =>
              simp only [Associated.bare, withoutDeclarations, ← List.filter_append] at inside
              simpa using (List.mem_filter.mp inside).2
          | other c => cases inside
  | _ => simp [Item.bare, Item.attributes]

theorem withoutDeclarations_quiet {attributes : List Attribute}
    (quiet : attributes.filter isDeclaration = []) : withoutDeclarations attributes = attributes :=
  List.filter_eq_self.mpr fun a listed => by
    simpa using List.filter_eq_nil_iff.mp quiet a listed

section Quiet

variable {item : Item} (quiet : item.declared = [])
include quiet

theorem method_quiet {impl : Implementation} (same : item = .implementation impl)
    (inherent : impl.traitFront = none) {me : Method} (entry : .method me ∈ impl.entries) :
    (me.attributes ++ me.innerAttributes).filter isDeclaration = [] := by
  rw [same, Item.declared, Item.attributes, if_pos (by simp [inherent]), List.filter_flatMap] at quiet
  exact List.flatMap_eq_nil_iff.mp quiet _ entry

theorem bare_quiet : item.bare = item := by
  cases same : item with
  | struct s =>
      have undeclared : s.attributes.filter isDeclaration = [] := by
        rw [same] at quiet
        exact quiet
      rw [Item.bare, withoutDeclarations_quiet undeclared]
  | implementation impl =>
      cases inherent : impl.traitFront with
      | some front => simp [Item.bare, inherent]
      | none =>
          have entries : impl.entries.map Associated.bare = impl.entries := by
            refine (List.map_congr_left fun entry listed => ?_).trans (List.map_id _)
            cases entry with
            | method me =>
                have undeclared := method_quiet quiet same inherent listed
                rw [List.filter_append] at undeclared
                obtain ⟨outer, inner⟩ := List.append_eq_nil_iff.mp undeclared
                rw [Associated.bare, withoutDeclarations_quiet outer,
                  withoutDeclarations_quiet inner]
                rfl
            | other c => rfl
          rw [Item.bare, if_pos (by simp [inherent]), entries]
  | _ => rfl

theorem machineAt?_quiet (i : Nat) : machineAt? (item, i) = none := by
  cases item with
  | struct s =>
      have undeclared : s.attributes.filter isDeclaration = [] := quiet
      exact if_neg (by simpa using List.filter_eq_nil_iff.mp undeclared)
  | _ => rfl

theorem methodsAt_quiet : ∀ found ∈ methodsAt item, found.2 = [] := by
  intro found listed
  cases same : item with
  | implementation impl =>
      rw [same, methodsAt] at listed
      split at listed
      · next bare owned =>
          obtain ⟨entry, there, read⟩ := List.mem_filterMap.mp listed
          cases entry with
          | method me =>
              obtain rfl := Option.some.inj read
              have unread : me.declaring = [] := by
                refine List.filter_eq_nil_iff.mpr fun a declared named => ?_
                have undeclared :=
                  List.filter_eq_nil_iff.mp (method_quiet quiet same bare there) a declared
                rw [isDeclaration, of?_named named] at undeclared
                exact undeclared rfl
              rw [ofMethod_eq, unread]
              rfl
          | other c => cases read
      · cases listed
  | _ =>
      rw [same] at listed
      cases listed

theorem errorsAt_quiet (i : Nat) : errorsAt (item, i) = [] := by
  rw [errorsAt, machineAt?_quiet quiet]
  exact List.flatMap_eq_nil_iff.mpr (methodsAt_quiet quiet)

end Quiet

/-! ## Code that stands behind -/

inductive StandsAlone : Code → Prop
  | unnamed (body : Code) :
    StandsAlone
      (code [word "const", word "_", symbol ':', parens [], symbol '=', braces body, symbol ';'])
  | stop (message : String) : StandsAlone (Diagnostic.stop message)

def StandsBehind (source : Code) : Prop :=
  ∃ pieces : List Code, source = pieces.flatten ∧ ∀ piece ∈ pieces, StandsAlone piece

namespace StandsBehind

theorem nil : StandsBehind [] := ⟨[], rfl, nofun⟩

theorem single {piece : Code} (alone : StandsAlone piece) : StandsBehind piece :=
  ⟨[piece], by simp, by simpa⟩

theorem flatten {sources : List Code} (each : ∀ source ∈ sources, StandsBehind source) :
    StandsBehind sources.flatten := by
  induction sources with
  | nil => exact nil
  | cons source rest ih =>
      obtain ⟨⟨first, rfl, alone⟩, later⟩ := List.forall_mem_cons.mp each
      obtain ⟨others, same, apart⟩ := ih later
      refine ⟨first ++ others, by simp [same], fun piece listed => ?_⟩
      rcases List.mem_append.mp listed with here | there
      · exact alone piece here
      · exact apart piece there

theorem errorCode (errors : List ArgumentError) : StandsBehind (errorCode errors) := by
  rw [Statewright.errorCode, List.flatMap_def]
  refine flatten fun source listed => ?_
  obtain ⟨e, _, rfl⟩ := List.mem_map.mp listed
  exact single (.stop e.message)

theorem report (r : Report) : StandsBehind r.code := by
  rw [Report.code, List.flatMap_def]
  refine flatten fun source listed => ?_
  obtain ⟨d, _, rfl⟩ := List.mem_map.mp listed
  rw [Diagnostic.code]
  split
  · exact single (.stop d.text)
  · exact single (.unnamed _)
  · exact nil

theorem machine (machine : MachineFacts) (facts : ModuleFacts) :
    StandsBehind (machine.code facts) := by
  rw [MachineFacts.code]
  cases (machine.expand facts).1 with
  | none => exact nil
  | some e =>
      show StandsBehind e.items
      unfold Emission.items
      extract_lets owner generics body
      exact single (.unnamed body)

end StandsBehind

def ModuleFacts.appended (facts : ModuleFacts) : List Code :=
  errorCode facts.errors ::
    facts.machines.flatMap fun machine => [machine.code facts, (machine.expand facts).2.code]

theorem appended_standsBehind (facts : ModuleFacts) : StandsBehind facts.appended.flatten := by
  refine .flatten fun source listed => ?_
  rcases List.mem_cons.mp listed with rfl | emitted
  · exact .errorCode _
  · obtain ⟨machine, _, either⟩ := List.mem_flatMap.mp emitted
    rcases List.mem_cons.mp either with rfl | report
    · exact .machine _ _
    · obtain rfl := List.mem_singleton.mp report
      exact .report _

/-! ## The module -/

def ModuleFacts.left (facts : ModuleFacts) (items : List Item) : List Item :=
  items.zipIdx.map fun (item, i) =>
    let expanded := facts.machines.map fun machine => (machine.itemIndex, machine.expand facts)
    let added := expanded.flatMap fun (j, emission, _) =>
      if j = i then (emission.map Emission.structFields).getD [] else []
    (if added.isEmpty then item else item.withFields added).bare

theorem expandItems_eq (facts : ModuleFacts) (items : List Item) :
    expandItems facts items = facts.left items ++ facts.appended.map Item.other := by
  have codes : facts.appended = errorCode facts.errors ::
      (facts.machines.map fun machine => (machine.itemIndex, machine.expand facts)).flatMap
        fun (_, emission, report) => [(emission.map Emission.items).getD [], report.code] := by
    rw [ModuleFacts.appended, List.flatMap_map]
    rfl
  rw [codes]
  rfl

theorem left_declared (facts : ModuleFacts) (items : List Item) :
    ∀ item ∈ facts.left items, item.declared = [] := by
  intro item listed
  obtain ⟨_, _, rfl⟩ := List.mem_map.mp listed
  exact bare_declared _

section Emitted

variable {machine : MachineFacts} {facts : ModuleFacts}

theorem addedFields_nil : machine.addedFields facts = [] ↔ machine.code facts = [] := by
  rw [← not_iff_not]
  exact (machine.addedFields_ne_nil facts).trans (machine.code_ne_nil facts).symm

theorem emitted_gains {i : Nat} {s : Struct}
    (written : (MachineFacts.ofStruct i s).1.addedFields facts ≠ []) :
    let added := (MachineFacts.ofStruct i s).1.addedFields facts
    ∃ fields, s.fields.Gains added fields ∧ s.withFields added = { s with fields } := by
  intro added
  have emitted := ((MachineFacts.ofStruct i s).1.addedFields_ne_nil facts).mp written
  obtain ⟨_, _, _, extensible⟩ := (MachineFacts.expand_isSome _ facts).mp emitted
  cases fields : s.fields with
  | named own trailing =>
      refine ⟨_, .named own trailing, ?_⟩
      simp [Struct.withFields, fields, added, written]
  | unit => exact ⟨_, .unit, by simp [Struct.withFields, fields]⟩
  | tuple content => exact absurd fields (extensible content)

end Emitted

theorem left_leaves {m : Module} {items : List Item} (content : m.items = some items) :
    List.Forall₂ (Item.Leaves (ModuleFacts.ofModule m)) items.zipIdx
      ((ModuleFacts.ofModule m).left items) := by
  rw [ModuleFacts.left, List.forall₂_map_right_iff, List.forall₂_same]
  intro (item, i) listed
  have there : items[i]? = some item := List.mk_mem_zipIdx_iff_getElem?.mp listed
  simp only [fields_at content there]
  cases item with
  | struct s =>
      cases declares : s.attributes.any isDeclaration with
      | false =>
          have undeclared : machineAt? (.struct s, i) = none := if_neg (by simp [declares])
          rw [undeclared]
          exact .plain fun declared => absurd declared (by simp [declares])
      | true =>
          have declared : machineAt? (.struct s, i) = some (MachineFacts.ofStruct i s) :=
            if_pos declares
          simp only [declared, Option.toList_some, List.flatMap_singleton]
          by_cases silent : (MachineFacts.ofStruct i s).1.addedFields (.ofModule m) = []
          · rw [silent]
            exact .plain fun _ => addedFields_nil.mp silent
          · obtain ⟨fields, gains, grown⟩ := emitted_gains silent
            rw [if_neg (by simpa using silent), Item.withFields, grown]
            exact .emitted declares (mt addedFields_nil.mpr silent) gains
  | implementation impl =>
      have undeclared : machineAt? (.implementation impl, i) = none := rfl
      rw [undeclared]
      show Item.Leaves _ (.implementation impl, i) (Item.implementation impl).bare
      by_cases bare : impl.traitFront = none
      · rw [Item.bare, if_pos (by simp [bare])]
        refine .inherent bare (List.forall₂_map_right_iff.mpr (List.forall₂_same.mpr ?_))
        intro entry _
        cases entry with
        | method me => exact .method me
        | other c => exact .other c
      · rw [Item.bare, if_neg (by simpa using bare)]
        refine .same nofun fun other same => ?_
        cases same
        exact bare
  | _ => exact .same nofun nofun

section Quiet

variable {m : Module} {items : List Item} (content : m.items = some items)
  (quiet : ∀ item ∈ items, item.declared = [])
include content quiet

theorem machines_quiet : (ModuleFacts.ofModule m).machines = [] := by
  rw [ModuleFacts.ofModule_machines content, List.map_eq_nil_iff, List.filterMap_eq_nil_iff]
  intro (item, i) listed
  exact machineAt?_quiet (quiet item (List.fst_mem_of_mem_zipIdx listed)) i

theorem errors_quiet : (ModuleFacts.ofModule m).errors = [] := by
  rw [ModuleFacts.ofModule_errors content, List.flatMap_eq_nil_iff]
  intro (item, i) listed
  exact errorsAt_quiet (quiet item (List.fst_mem_of_mem_zipIdx listed)) i

theorem expand_quiet : m.expand [] = .ok { m with items := some (items ++ [.other []]) } := by
  have left : (ModuleFacts.ofModule m).left items = items := by
    rw [ModuleFacts.left, machines_quiet content quiet]
    refine (List.map_congr_left fun (item, i) listed => ?_).trans (List.zipIdx_map_fst 0 items)
    exact bare_quiet (quiet item (List.fst_mem_of_mem_zipIdx listed))
  have appended : (ModuleFacts.ofModule m).appended = [[]] := by
    rw [ModuleFacts.appended, machines_quiet content quiet, errors_quiet content quiet]
    rfl
  simp [Module.expand, content, expandItems_eq, left, appended]

end Quiet

def Grammar.Module.holding (m : Module) (items : List Item) (behind : List Code) : Module :=
  { m with items := some (items ++ behind.map Item.other) }

section Again

variable {items read : List Item} (back : List.Forall₂ Item.Again items read)
include back

theorem again_code : read.flatMap Item.code = items.flatMap Item.code := by
  induction back with
  | nil => rfl
  | cons here _ ih => rw [List.flatMap_cons, List.flatMap_cons, here.code, ih]

theorem again_quiet (quiet : ∀ item ∈ items, item.declared = []) :
    ∀ item ∈ read, item.declared = [] := by
  induction back with
  | nil => exact quiet
  | cons here _ ih =>
      obtain ⟨first, rest⟩ := List.forall_mem_cons.mp quiet
      exact List.forall_mem_cons.mpr ⟨here.quiet first, ih rest⟩

end Again

theorem holding_code (m : Module) (items : List Item) {behind pieces : List Code}
    (same : pieces.flatten = behind.flatten) {read : List Item}
    (back : List.Forall₂ Item.Again (items ++ pieces.map Item.other) read) :
    ({ m with items := some read } : Module).code = (m.holding items behind).code := by
  have codes (sources : List Code) :
      (sources.map Item.other).flatMap Item.code = sources.flatten := by
    rw [List.flatMap_map]
    exact List.flatMap_id
  simp only [Module.code, Module.holding, again_code back, List.flatMap_append, codes, same]

/-- The expansion of a module keeps its items in their order, without their declarations; the struct
of each emitted machine gains the fields of that machine, and no other item changes. All else stands
behind as items of its own. Wherever it can be read back, item by item and what stands behind cut in
any way, the result has no machine, no error, and is its own expansion. -/
theorem expansion_framed {m : Module} {items : List Item} (content : m.items = some items) :
    let facts := ModuleFacts.ofModule m
    ∃ left, m.expand [] = .ok (m.holding left facts.appended) ∧
      List.Forall₂ (Item.Leaves facts) items.zipIdx left ∧
      (∀ item ∈ left, item.declared = []) ∧
      StandsBehind facts.appended.flatten ∧
      ∀ pieces : List Code, pieces.flatten = facts.appended.flatten →
        ∀ read, List.Forall₂ Item.Again (left ++ pieces.map Item.other) read →
          let again : Module := { m with items := some read }
          again.code = (m.holding left facts.appended).code ∧
            (ModuleFacts.ofModule again).machines = [] ∧ (ModuleFacts.ofModule again).errors = [] ∧
            ∃ last, again.expand [] = .ok last ∧ last.code = again.code := by
  intro facts
  refine ⟨facts.left items, ?_, left_leaves content, left_declared facts items,
    appended_standsBehind facts, ?_⟩
  · simp [Module.expand, content, expandItems_eq, facts, Module.holding]
  · intro pieces same read back again
    have quiet : ∀ item ∈ read, item.declared = [] := by
      refine again_quiet back fun item listed => ?_
      rcases List.mem_append.mp listed with kept | behind
      · exact left_declared facts items item kept
      · obtain ⟨code, _, rfl⟩ := List.mem_map.mp behind
        rfl
    have held : again.items = some read := rfl
    refine ⟨holding_code m _ same back, machines_quiet held quiet, errors_quiet held quiet, _,
      expand_quiet held quiet, ?_⟩
    simp [Module.code, again, Item.code]

theorem torch_framed :
    let facts := ModuleFacts.ofModule torchModule
    torchFacts.code facts ≠ [] ∧
      ∃ left, torchModule.expand [] = .ok (torchModule.holding left facts.appended) ∧
        List.Forall₂ (Item.Leaves facts) torchItems.zipIdx left ∧
        (ModuleFacts.ofModule
          (torchModule.holding left [facts.appended.flatten])).machines = [] := by
  intro facts
  have accepted : (torchFacts.expand facts).1.isSome := by decide +kernel
  have content : torchModule.items = some torchItems := rfl
  obtain ⟨left, expanded, leaves, _, _, rest⟩ := expansion_framed content
  obtain ⟨_, machines, _⟩ := rest [facts.appended.flatten] (by simp [facts]) _
    (List.forall₂_same.mpr fun _ _ => ⟨rfl, rfl⟩)
  exact ⟨(torchFacts.code_ne_nil facts).mpr accepted, left, expanded, leaves, machines⟩

/-! ## Code that cannot be read -/

namespace Grammar

theorem exposed_mark (c : Char) (joint : Bool) (pos : Position) (rest : List Tree) :
    exposed (.mark c joint pos :: rest) = .mark c joint pos :: rest := by
  simp [exposed]

namespace Parser

theorem patternWith_bar (inner : Inner) (joint : Bool) (pos : Position) (rest : List Tree)
    (taken written : Code) :
    patternWith inner ⟨.mark '|' joint pos :: rest, taken, written⟩ = none := by
  simp [patternWith, look, past, exposed_mark, opensPathPattern, startsWithName, firstWord?,
    startsWithAnyMark, startsWithMark, behindMarks?, startsWithWord, startsWithLiteral,
    startsWithGroup, keyword?, seesKeyword, mark?, seesMark, bind, StateT.bind, pure, StateT.pure,
    failure, StateT.failure, Alternative.failure]

theorem mark?_bar (joint : Bool) (pos : Position) (rest : List Tree) (taken written : Code) :
    mark? "|" ⟨.mark '|' joint pos :: rest, taken, written⟩ =
      some (true, ⟨rest, .mark '|' :: taken, .mark '|' joint :: written⟩) := by
  simp [mark?, mark, seesMark, startsWithMark, behindMarks?, look, past, exposed_mark, emitting,
    step, Tree.tokens, bind, StateT.bind, pure, StateT.pure]

theorem alternatives_bars (n : Nat) (joint next : Bool) (pos behind : Position) (rest : List Tree)
    (taken written : Code) :
    alternatives (nested n) ⟨.mark '|' joint pos :: .mark '|' next behind :: rest, taken, written⟩ =
      none := by
  have fails (cursor : Cursor) (bar : cursor.ahead = .mark '|' next behind :: rest) :
      (nested n).pattern cursor = none := by
    obtain ⟨ahead, taken, written⟩ := cursor
    obtain rfl : ahead = _ := bar
    cases n with
    | zero => rfl
    | succ n => exact patternWith_bar _ _ _ _ _ _
  simp [alternatives, bind, StateT.bind, mark?_bar, fails]

end Parser

end Grammar

def heater : Struct where
  attributes :=
    [torchAttribute "state_machine" [("state", "State"), ("trigger", "Trigger")],
     torchAttribute "state" [("state", "Low"), ("parent", "On"), ("initial", "true")],
     torchAttribute "transition"
       [("from", "Low"), ("trigger", "Power"), ("to", "Off"), ("guard", "safe")],
     torchAttribute "transition" [("from", "On"), ("trigger", "Power"), ("to", "Off")]]
  visibility := []
  name := "Heater"
  pos := torchPlace
  generics := {}
  fields := .unit

def safe : Method where
  attributes := []
  innerAttributes := []
  front := []
  name := "safe"
  generics := {}
  inputs := []
  receiver := .shared
  parameters := []
  output := some (.path (.mk false [.mk "Result"
    (.angle false [.type (.path (.word "bool")), .type (.path (.word "String"))] false)]))
  isAsync := false
  body := []

def heaterItems : List Item :=
  [.enum ⟨"State",
     [⟨"Off", torchPlace, none⟩, ⟨"On", torchPlace, none⟩, ⟨"Low", torchPlace, none⟩], []⟩,
   .enum ⟨"Trigger", [⟨"Power", torchPlace, none⟩], []⟩,
   .struct heater,
   .implementation ⟨[], [], {}, none, .path (.word "Heater"), [], [.method safe]⟩]

def heaterModule : Module where
  attributes := []
  front := []
  name := "heater"
  innerAttributes := []
  items := some heaterItems

def heaterFacts : MachineFacts where
  name := "Heater"
  pos := torchPlace
  generics := {}
  fields := .unit
  declarations :=
    [⟨.machine { state := some (.word "State"), trigger := some (.word "Trigger") }, torchPlace⟩,
     ⟨.state
       { state := torchReference "Low", parent := some (torchReference "On"), initial := true },
       torchPlace⟩,
     ⟨.transition
       ⟨torchReference "Low", torchReference "Power", torchReference "Off", some "safe", none⟩,
       torchPlace⟩,
     ⟨.transition
       ⟨torchReference "On", torchReference "Power", torchReference "Off", none, none⟩, torchPlace⟩]
  itemIndex := 2
  malformed := false

theorem heater_read : MachineFacts.ofStruct 2 heater = (heaterFacts, []) := by cbv

/-- What is emitted for the heater cannot be read back: behind the arm of its low level stands what
is the rest of the body, and no arm begins like that. -/
theorem heater_unreadable :
    let machine := (MachineFacts.ofStruct 2 heater).1
    let facts := ModuleFacts.ofModule heaterModule
    ∃ e, (machine.expand facts).1 = some e ∧
      braces (e.queryArms "Low") <:+: machine.code facts ∧
      [.mark '|', .mark '|'] <+: (readArm (e.queryArms "Low")).2.2 ∧
      ∀ n joint next pos behind rest,
        Parser.alternatives (Parser.nested n)
          ⟨.mark '|' joint pos :: .mark '|' next behind :: rest, [], []⟩ = none := by
  intro machine facts
  have cut : (heaterFacts.expand facts).1.any (fun e => decide (
      braces (e.queryArms "Low") <:+: e.items ∧
        [.mark '|', .mark '|'] <+: (readArm (e.queryArms "Low")).2.2)) = true := by
    decide +kernel
  obtain ⟨e, emitted, cut⟩ := (Option.any_eq_true _ _).mp cut
  obtain ⟨inside, bars⟩ := of_decide_eq_true cut
  have code : machine.code facts = e.items := by
    simp only [machine, heater_read, MachineFacts.code, emitted]
    rfl
  refine ⟨e, ?_, code ▸ inside, bars, fun n joint next pos behind rest =>
    Parser.alternatives_bars n joint next pos behind rest [] []⟩
  simp only [machine, heater_read, emitted]

end Statewright
