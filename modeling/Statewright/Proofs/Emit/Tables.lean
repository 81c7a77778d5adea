import Statewright.Proofs.Build.Nesting
import Statewright.Proofs.Execution.Session
import Statewright.Proofs.Hierarchy.Descent

/-!
# Emitted tables

The tables emitted for nested states spell out the declared parents, and the walks over them need
no bound. Which child a state is entered through is as the rules on nested states want it, but for
orphans that pass for children.
-/

namespace Statewright

open Grammar Declaration Emit Execution

namespace Emission

variable (e : Emission)

def stateNames : List String := e.model.states.map StateModel.name

def indexArms : List (String × Nat) := e.model.states.zipIdx.map fun (s, i) => (s.name, i)

def indexOf? (name : String) : Option Nat := (e.indexArms.find? (·.1 == name)).map (·.2)

def statesTableOf (names : List String) : Code :=
  code
    [["const", Names.statesTable, ':'], brackets (code [e.stateType, [';', count names.length]]),
     ['='], brackets (commaSeparated (names.map e.statePath)), [';']]

def indexFunctionOf (arms : List (String × Nat)) : Code :=
  code
    [["fn", Names.indexFunction], parens (code [["state", ':'], e.stateType]), arrow, ["usize"],
     braces (code
       [["match", "state"],
        braces (arms.flatMap fun (name, i) => code [e.statePath name, fatArrow, [place i, ',']])])]

theorem statesTable_eq : e.statesTable = e.statesTableOf e.stateNames := by
  simp [statesTable, statesTableOf, stateNames, Function.comp_def]

theorem indexFunction_eq : e.indexFunction = e.indexFunctionOf e.indexArms := by
  simp [indexFunction, indexFunctionOf, indexArms, List.flatMap_map]

theorem indexOf?_eq (name : String) : e.indexOf? name = e.model.stateIndex? name := by
  rw [indexOf?, indexArms, List.find?_map, Model.stateIndex?, List.findIdx?_eq_fst_find?_zipIdx,
    Option.map_map]
  rfl

/-- The tables agree with each other and with the parents that the states have, and walks over
them end. -/
structure Tabulated : Prop where
  states_written : e.statesTable = e.statesTableOf e.stateNames
  index_written : e.indexFunction = e.indexFunctionOf e.indexArms
  parents_length : e.model.hierarchy.parents.length = e.model.states.length
  entries_length : e.model.hierarchy.entryChildren.length = e.model.states.length
  history_length : e.model.hierarchy.history.length = e.model.states.length
  inverse {i : Nat} {name : String} : e.stateNames[i]? = some name ↔ e.indexOf? name = some i
  parent {i : Nat} {s : StateModel} : e.model.states[i]? = some s →
    (e.model.hierarchy.parent? i).map (stateAt e) = s.parent
  rooted {i : Nat} : i < e.model.states.length → ∃ k root, k < e.model.states.length ∧
    e.model.hierarchy.ascend k i = some root ∧ e.model.hierarchy.parent? root = none
  entered {i : Nat} {s : StateModel} : e.model.states[i]? = some s →
    ((e.model.hierarchy.entryChild? i).isSome ↔ ∃ c ∈ e.model.states, c.parent = some s.name)
  ancestors {i : Nat} {s : StateModel} : e.model.states[i]? = some s →
    (e.model.ancestors s.name).map StateModel.name =
      (e.model.hierarchy.ancestorsOrSelf i).tail.map (stateAt e)
  resolved {past : History} {i : Nat} :
    (∀ s c, past.lastActive? s = some c → e.model.hierarchy.parent? c = some s) →
    i < e.model.states.length → ∃ k leaf, k < e.model.states.length ∧
      e.model.hierarchy.Walk past k false i leaf ∧ e.model.hierarchy.resolveEntry past i = leaf ∧
      (∀ c, e.model.hierarchy.parent? c ≠ some leaf) ∧ i ∈ e.model.hierarchy.ancestorsOrSelf leaf

variable {e}

section Distinct

variable (distinct : e.stateNames.Nodup)
include distinct

theorem stateIndex?_getElem {i : Nat} {s : StateModel} (here : e.model.states[i]? = some s) :
    e.model.stateIndex? s.name = some i := by
  obtain ⟨bound, rfl⟩ := List.getElem?_eq_some_iff.mp here
  refine List.findIdx?_eq_some_iff_getElem.mpr ⟨bound, by simp, fun j before same => ?_⟩
  refine List.nodup_iff_getElem?_ne_getElem?.mp distinct j i before (by simpa [stateNames]) ?_
  simpa [stateNames, bound, Nat.lt_trans before bound] using same

theorem isPlace_of_lt {i : Nat} (bound : i < e.model.states.length) : e.model.IsPlace i :=
  ⟨_, stateIndex?_getElem distinct (List.getElem?_eq_getElem bound)⟩

theorem stateNames_inverse {i : Nat} {name : String} :
    e.stateNames[i]? = some name ↔ e.indexOf? name = some i := by
  rw [indexOf?_eq, stateNames, List.getElem?_map]
  constructor
  · intro named
    obtain ⟨s, here, rfl⟩ := Option.map_eq_some_iff.mp named
    exact stateIndex?_getElem distinct here
  · intro found
    obtain ⟨s, here, rfl, _⟩ := Model.stateIndex?_eq_some found
    rw [here, Option.map_some]

end Distinct

theorem nested_drafted {machine : MachineFacts} {facts : ModuleFacts} {states : EnumFacts}
    (built : (machine.build facts).1 = some e.model) (nested : e.isHierarchical)
    (found : facts.findEnum? e.model.stateType = some states) :
    ∃ cx d, cx.machine = machine ∧ cx.stateEnum = states ∧ e.model = Build.finish cx d ∧
      d.Orderly (states.members.map EnumMember.name) ∧ d.Trusted cx ∧
      ∀ f ∈ Build.nestingFindings d, f.isError = false := by
  obtain ⟨cx, report, rfl, rfl, known, clean, model⟩ := Build.build_setting built
  obtain rfl : cx.stateEnum = states := by
    rw [model] at found
    exact Option.some.inj (known.symm.trans found)
  have on : Build.isNested cx (Build.draft cx report) = true := by
    rw [isHierarchical, model] at nested
    exact nested
  exact ⟨cx, Build.draft cx report, rfl, rfl, model, Build.draft_orderly cx report,
    Build.draft_trusted cx report, Build.checkNesting_quiet on clean⟩

section Nested

variable {cx : Build.Setting} {d : Build.Draft} {names : List String}
  (model : e.model = Build.finish cx d) (orderly : d.Orderly names)
  (quiet : ∀ f ∈ Build.nestingFindings d, f.isError = false)
include model orderly quiet

theorem nested_wellFormed : e.model.hierarchy.WellFormed e.model.IsPlace := by
  have circular : Check.circularHierarchy (Build.nestedStates d) = [] := by
    refine Build.circularHierarchy_clean fun f found => quiet f ?_
    simp [Build.nestingFindings, found]
  rw [model]
  exact Model.wellFormed orderly.firstNested
    (Subrelation.wf Build.nestedStates_parent (Check.parents_acyclic circular))

theorem nested_tabulated (distinct : e.stateNames.Nodup) : e.Tabulated := by
  have wf := nested_wellFormed model orderly quiet
  have size := Model.hierarchy_size e.model
  have place {i : Nat} (bound : i < e.model.states.length) : e.model.IsPlace i :=
    isPlace_of_lt distinct bound
  constructor
  · exact e.statesTable_eq
  · exact e.indexFunction_eq
  · exact size
  · exact wf.entry_length.trans size
  · simp [Model.hierarchy]
  · exact stateNames_inverse distinct
  · intro i s here
    rw [Model.parent?_eq, here, Option.bind_some]
    cases parent : s.parent with
    | none => rfl
    | some p =>
        have member : s ∈ d.states := by
          rw [model] at here
          exact List.mem_of_getElem? here
        have known : (e.model.stateIndex? p).isSome :=
          model ▸ Build.parent_known quiet member parent
        obtain ⟨j, found⟩ := Option.isSome_iff_exists.mp known
        obtain ⟨q, there, rfl, _⟩ := Model.stateIndex?_eq_some found
        simp [found, stateAt, there]
  · intro i bound
    obtain ⟨k, root, short, above, top⟩ := wf.ascend_root (place bound)
    exact ⟨k, root, size ▸ short, above, top⟩
  · intro i s here
    rw [Model.entryChild?_place here]
    simp only [Model.isComposite, Model.childrenOf, Bool.not_eq_true', List.isEmpty_eq_false_iff,
      ne_eq, List.filter_eq_nil_iff, beq_iff_eq, not_forall, not_not, exists_prop]
  · intro i s here
    rw [List.map_tail, ← ancestors_names wf (stateIndex?_getElem distinct here), List.tail_cons]
  · intro past i recorded bound
    have sound : past.Sound e.model.hierarchy e.model.IsPlace := by
      intro s c remembered
      have up := recorded s c remembered
      obtain ⟨_, child, _, here, _⟩ := Model.parent?_eq_some up
      exact ⟨up, child.name, stateIndex?_getElem distinct here⟩
    obtain ⟨k, short, walk⟩ := wf.resolveEntry_walk sound (place bound)
    obtain ⟨listed, below⟩ := wf.resolveUnder_below sound (place bound) false
    have leaf := wf.resolveUnder_leaf sound (place bound) false
    refine ⟨k, _, size ▸ short, walk, rfl, fun c up => ?_, below⟩
    have entry := wf.entry_of_parent listed up
    rw [leaf] at entry
    cases entry

end Nested

/-- The tables are faithful, and entries are picked by mark or history; an orphan whose parent
displays as the name of a composite state keeps the latter from being missed. -/
theorem hierarchy_tabulated {machine : MachineFacts} {facts : ModuleFacts} {states : EnumFacts}
    (built : (machine.build facts).1 = some e.model) (nested : e.isHierarchical)
    (found : facts.findEnum? e.model.stateType = some states)
    (distinct : (states.members.map EnumMember.name).Nodup) :
    e.Tabulated ∧
      ∀ i c s, e.model.states[i]? = some s → e.model.hierarchy.entryChild? i = some c →
        ∃ child, e.model.states[c]? = some child ∧ child ∈ e.model.childrenOf s.name ∧
          e.model.hierarchy.parent? c = some i ∧
          ((child.initial ∧ ∀ other ∈ e.model.childrenOf s.name, other.initial → other = child) ∨
            (e.model.childrenOf s.name).head? = some child ∧
              (∀ other ∈ e.model.childrenOf s.name, other.initial = false) ∧
              (s.history ≠ .none ∨ ∃ x ∈ e.model.states, x.initial ∧ x.parent = none ∧
                machine.Orphans states x.name s.name)) := by
  obtain ⟨cx, d, rfl, rfl, model, orderly, trusted, quiet⟩ := nested_drafted built nested found
  have named : e.stateNames.Nodup := by
    rw [stateNames, model]
    exact orderly.stateNames.symm ▸ distinct
  have wf := nested_wellFormed model orderly quiet
  refine ⟨nested_tabulated model orderly quiet named, fun i c s here entry => ?_⟩
  have place : e.model.IsPlace i := ⟨s.name, stateIndex?_getElem named here⟩
  have up := wf.entry_parent place entry
  rw [Model.entryChild?_eq, here, Option.bind_some] at entry
  obtain ⟨child, chosen, there⟩ := Option.bind_eq_some_iff.mp entry
  have below := Model.entryChild?_mem chosen
  obtain ⟨j, known⟩ := List.getElem?_of_mem (Model.mem_childrenOf.mp below).1
  have same := stateIndex?_getElem named known
  rw [there, Option.some.injEq] at same
  -- the rules pick among the states of the draft, which are those of the model
  have member : s ∈ d.states := by
    rw [model] at here
    exact List.mem_of_getElem? here
  rw [model] at chosen below ⊢
  refine ⟨child, by rw [same, ← model]; exact known, below, model ▸ up, ?_⟩
  refine (Build.entryChild?_choice quiet member chosen).imp_right fun ⟨first, plain, why⟩ => ?_
  refine ⟨first, plain, why.imp_right fun ⟨x, inside, initial, top, orphan⟩ => ?_⟩
  exact ⟨x, inside, initial, top, trusted.orphans _ orphan⟩

theorem lamp_tabulated :
    lamp.Tabulated ∧ lamp.model.hierarchy.entryChild? 1 = some 2 ∧
      lamp.model.hierarchy.parent? 2 = some 1 := by
  have distinct : (["Off", "On", "Low", "High"].map lampMember).map EnumMember.name |>.Nodup := by
    decide
  have built : (lampFacts.build lampModule).1 = some lamp.model := rfl
  obtain ⟨tabulated, entries⟩ := hierarchy_tabulated built rfl rfl distinct
  obtain ⟨_, _, _, up, _⟩ := entries 1 2 lampOn rfl rfl
  exact ⟨tabulated, rfl, up⟩

/-- The lower level of the shade is an orphan; a string that reads like the name of a state displays
as that name. -/
def shadeFacts : MachineFacts where
  name := "Shade"
  pos := ⟨1, 0⟩
  generics := {}
  fields := .unit
  itemIndex := 0
  malformed := false
  declarations :=
    [⟨.machine { state := some (.word "State"), trigger := some (.word "Trigger") }, ⟨1, 0⟩⟩,
     ⟨.state
        { state := lampReference "Low"
          parent := some ⟨.literal (.string "\"On\""), ⟨1, 0⟩⟩
          initial := true },
       ⟨1, 0⟩⟩,
     ⟨.state { state := lampReference "High", parent := some (lampReference "On") }, ⟨1, 0⟩⟩,
     ⟨.transition ⟨lampReference "Off", lampReference "Power", lampReference "On", none, none⟩,
       ⟨1, 0⟩⟩,
     ⟨.transition ⟨lampReference "On", lampReference "Power", lampReference "Low", none, none⟩,
       ⟨1, 0⟩⟩]

theorem shade_entry_unmarked :
    ∃ model, (shadeFacts.build lampModule).1 = some model ∧ model.config.hierarchy = true ∧
      (model.states.map StateModel.name).Nodup ∧ model.hierarchy.entryChild? 1 = some 3 ∧
      (model.states[3]?.map fun s => (s.parent, s.initial)) = some (some "On", false) ∧
      model.states[1]?.map StateModel.history = some .none := by
  exact ⟨_, rfl, rfl, by decide, rfl, rfl, rfl⟩

end Emission

end Statewright
