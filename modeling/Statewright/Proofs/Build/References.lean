import Statewright.Proofs.Build.Nesting

/-!
# References

What a declaration refers to is resolved on the spot, and an error is reported where nothing is
found. Parents are the exception: an unresolved one is kept as a text and judged with the parents of
the other declarations of its state, where a parent that resolves or a text that reads like a state
can hide it.
-/

namespace Statewright

open Grammar Declaration

namespace MachineDeclaration

def stateReferences : MachineDeclaration → List Reference
  | .transition a => [a.source, a.target]
  | .internal a => [a.state]
  | .state a => [a.state]
  | .machine _ | .payload _ => []

def triggerReferences : MachineDeclaration → List Reference
  | .transition a => [a.trigger]
  | .internal a => [a.trigger]
  | .machine _ | .state _ | .payload _ => []

def orphan? (states : EnumFacts) : MachineDeclaration → Option (String × String)
  | .state a =>
    (states.resolve? a.state).bind fun state =>
      a.parent.bind fun r =>
        if (states.resolve? r).isNone then some (state.name, r.display) else none
  | _ => none

end MachineDeclaration

namespace MachineFacts

variable (machine : MachineFacts) (facts : ModuleFacts) (states triggers : EnumFacts)

def enums? : Option (EnumFacts × EnumFacts) :=
  machine.primary?.bind fun primary =>
    let enumOf (p : Option Path) : Option EnumFacts :=
      p.bind fun p => (p.last?.map Segment.ident).bind facts.findEnum?
    (enumOf primary.value.state).bind fun states =>
      (enumOf primary.value.trigger).map fun triggers => (states, triggers)

/-- The machine is declared with both its enums, on a struct that can be extended. Where something
of this is missing a warning says so, and its references are not looked at. -/
def Complete : Prop :=
  (∃ primary, machine.primary? = some primary ∧ primary.value.state.isSome ∧
    primary.value.trigger.isSome) ∧ ∀ fields, machine.fields ≠ .tuple fields

def stateReferences : List Reference :=
  machine.declarations.flatMap fun e => e.value.stateReferences

def payloadTypes : List (Declared PayloadArguments) :=
  machine.declarations.filterMap (fun e =>
    match e.value with
    | .payload arguments => some ⟨arguments, e.pos⟩
    | _ => none) ++
    (facts.methodsOf machine.name).flatMap MethodFacts.payloadTypes

def payloadSources : List (Option String × Declared PayloadArguments) :=
  machine.declarations.filterMap (fun e =>
    match e.value with
    | .payload arguments => some (none, ⟨arguments, e.pos⟩)
    | _ => none) ++
    (facts.methodsOf machine.name).flatMap fun m => m.payloadTypes.map fun p => (some m.name, p)

def triggerReferences : List Reference :=
  machine.declarations.flatMap (fun e => e.value.triggerReferences) ++
    (machine.payloadTypes facts).filterMap fun p => p.value.trigger

def orphanTexts : List (String × String) :=
  machine.declarations.filterMap fun e => e.value.orphan? states

def Nests (state parent : String) : Prop :=
  ∃ a pos r, (⟨.state a, pos⟩ : Declared MachineDeclaration) ∈ machine.declarations ∧
    (states.resolve? a.state).map EnumMember.name = some state ∧
      a.parent = some r ∧ (states.resolve? r).map EnumMember.name = some parent

/-- An unresolved parent of the state goes unnoticed: another declaration gives it a parent that
resolves, or the first text among its unresolved parents reads like a member. -/
def Hides (state : String) : Prop :=
  (∃ parent, machine.Nests states state parent) ∨
    ∃ text, ((machine.orphanTexts states).find? (·.1 == state)).map (·.2) = some text ∧
      text ∈ states.members.map EnumMember.name

structure Resolves : Prop where
  ends : ∀ r ∈ machine.stateReferences, (states.resolve? r).isSome
  fired : ∀ r ∈ machine.triggerReferences facts, (triggers.resolve? r).isSome
  parents : ∀ state parent, machine.Orphans states state parent → machine.Hides states state

variable {machine states}

theorem payloadSources_map :
    (machine.payloadSources facts).map Prod.snd = machine.payloadTypes facts := by
  rw [payloadSources, payloadTypes, List.map_append, List.map_filterMap, List.map_flatMap]
  refine congrArg₂ (· ++ ·) (List.filterMap_congr fun e _ => ?_)
    (List.flatMap_congr fun m _ => by simp)
  cases e.value <;> rfl

theorem mem_orphanTexts {state parent : String} :
    (state, parent) ∈ machine.orphanTexts states ↔ machine.Orphans states state parent := by
  constructor
  · intro listed
    obtain ⟨⟨value, pos⟩, declared, orphan⟩ := List.mem_filterMap.mp listed
    cases value with
    | state a =>
        obtain ⟨owner, known, orphan⟩ := Option.bind_eq_some_iff.mp orphan
        obtain ⟨r, above, orphan⟩ := Option.bind_eq_some_iff.mp orphan
        obtain ⟨unresolved, same⟩ := Option.ite_none_right_eq_some.mp orphan
        obtain ⟨rfl, rfl⟩ := Prod.mk.inj (Option.some.inj same)
        exact ⟨a, pos, r, declared, by simp [known], above, by simpa using unresolved, rfl⟩
    | _ => cases orphan
  · rintro ⟨a, pos, r, declared, known, above, unresolved, rfl⟩
    obtain ⟨owner, found, rfl⟩ := Option.map_eq_some_iff.mp known
    refine List.mem_filterMap.mpr ⟨⟨.state a, pos⟩, declared, ?_⟩
    simp [MachineDeclaration.orphan?, found, above, unresolved]

end MachineFacts

namespace Build

variable {cx : Setting}

structure Draft.Carried (d next : Draft) : Prop where
  report : d.report <+: next.report
  states : next.states = d.states
  orphans : next.orphans = d.orphans

namespace Draft.Carried

variable {d middle next : Draft}

theorem refl (d : Draft) : d.Carried d := ⟨List.prefix_rfl, rfl, rfl⟩

theorem trans (first : d.Carried middle) (rest : middle.Carried next) : d.Carried next :=
  ⟨first.report.trans rest.report, rest.states.trans first.states,
    rest.orphans.trans first.orphans⟩

end Draft.Carried

theorem Draft.Told.carried {d next : Draft} (told : d.Told next) : d.Carried next :=
  ⟨told.report, told.states, told.orphans⟩

theorem resolve_carried {facts : EnumFacts} {r : Reference} {d next : Draft}
    {found : Option String} (resolved : resolve facts r d = (found, next)) :
    d.Carried next ∧ (facts.resolve? r = none → next.report.hasErrors) := by
  refine ⟨(resolve_told resolved).carried, fun unresolved => ?_⟩
  obtain ⟨-, rfl⟩ := Prod.mk.inj resolved
  simp only [Draft.tell, hasErrors_append, Bool.or_eq_true]
  right
  rw [unresolved]
  rfl

theorem register_carried (cx : Setting) (e : Edge) (source trigger target : String)
    (pos : Position) (d : Draft) :
    d.Carried (register cx e source trigger target pos d) := by
  unfold register
  split
  · exact (tell_told d _ pos).carried
  · extract_lets payload expected
    rcases guarded : callback? cx e.guard .guard expected pos d with ⟨guard, d₁⟩
    rcases acted : callback? cx e.action .action expected pos d₁ with ⟨action, d₂⟩
    simp only [acted]
    obtain ⟨report, states, orphans⟩ :=
      ((callback?_told guarded).1.trans (callback?_told acted).1).carried
    exact ⟨report, states, orphans⟩

theorem addTransition_carried (cx : Setting) (e : Edge) (pos : Position) (d : Draft) :
    d.Carried (addTransition cx e pos d) ∧
      ((cx.stateEnum.resolve? e.source = none ∨ cx.triggerEnum.resolve? e.trigger = none ∨
        cx.stateEnum.resolve? e.target = none) →
          (addTransition cx e pos d).report.hasErrors) := by
  unfold addTransition
  rcases leaves : resolve cx.stateEnum e.source d with ⟨source, d₁⟩
  rcases fires : resolve cx.triggerEnum e.trigger d₁ with ⟨trigger, d₂⟩
  rcases aims : resolve cx.stateEnum e.target d₂ with ⟨target, d₃⟩
  obtain ⟨first, noSource⟩ := resolve_carried leaves
  obtain ⟨second, noTrigger⟩ := resolve_carried fires
  obtain ⟨third, noTarget⟩ := resolve_carried aims
  simp only [fires, aims]
  have told := first.trans (second.trans third)
  have failing : (cx.stateEnum.resolve? e.source = none ∨ cx.triggerEnum.resolve? e.trigger = none ∨
      cx.stateEnum.resolve? e.target = none) → d₃.report.hasErrors := by
    rintro (unresolved | unresolved | unresolved)
    · exact errors_stay (second.trans third).report (noSource unresolved)
    · exact errors_stay third.report (noTrigger unresolved)
    · exact noTarget unresolved
  split
  · next source trigger target =>
      have last := register_carried cx e source trigger target pos d₃
      exact ⟨told.trans last, fun unresolved => errors_stay last.report (failing unresolved)⟩
  · exact ⟨told, failing⟩

theorem declarePayload_carried (onMethod : Option String) (p : Declared PayloadArguments)
    (d : Draft) :
    d.Carried (declarePayload cx onMethod p d) ∧
      ((∃ r, p.value.trigger = some r ∧ cx.triggerEnum.resolve? r = none) →
        (declarePayload cx onMethod p d).report.hasErrors) := by
  rcases declarePayload_cases cx onMethod p d with
    ⟨r, _, unresolved, same⟩ | ⟨scope, inside, does⟩
  · obtain ⟨carried, fails⟩ := @resolve_carried cx.triggerEnum r d _ _ rfl
    rw [same]
    exact ⟨carried, fun _ => fails unresolved⟩
  · have known : ¬∃ r, p.value.trigger = some r ∧ cx.triggerEnum.resolve? r = none := by
      rintro ⟨r, named, unresolved⟩
      simp [Setting.scope?, named, unresolved] at inside
    refine ⟨?_, fun unresolved => absurd unresolved known⟩
    rcases does with ⟨_, _, same⟩ | ⟨_, same⟩
    · rw [same]
      exact (tell_told d _ p.pos).carried
    · rw [same]
      cases scope <;> exact ⟨List.prefix_rfl, rfl, rfl⟩

theorem addState_known {a : StateArguments} {state : EnumMember} (pos : Position) (d : Draft)
    (known : cx.stateEnum.resolve? a.state = some state) :
    ∃ onEntry onExit d₂, d.Carried d₂ ∧
      (addState cx a pos d).report = d₂.report ∧
      (addState cx a pos d).orphans =
        d₂.orphans ++ (MachineDeclaration.orphan? cx.stateEnum (.state a)).toList ∧
      (addState cx a pos d).states =
        updateState state.name (merge · onEntry onExit
          (a.parent.bind fun r => (cx.stateEnum.resolve? r).map EnumMember.name) a) d₂.states := by
  unfold addState
  split
  · next told resolved =>
      have missing := (Prod.mk.inj resolved).1
      simp [known] at missing
  · next name told resolved =>
      obtain rfl : state.name = name := by simpa [known] using (Prod.mk.inj resolved).1
      have first := (resolve_carried resolved).1
      extract_lets d₀ expected parent orphan
      rcases entered : callback? cx a.onEntry .onEntry expected pos d₀ with ⟨onEntry, d₁⟩
      rcases exited : callback? cx a.onExit .onExit expected pos d₁ with ⟨onExit, d₂⟩
      have start : d.Carried d₀ := ⟨first.report, first.states, first.orphans⟩
      refine ⟨onEntry, onExit, d₂,
        start.trans ((callback?_told entered).1.trans (callback?_told exited).1).carried, ?_⟩
      simp only [exited]
      refine ⟨trivial, ?_, rfl⟩
      cases above : a.parent with
      | none => simp [orphan, above, MachineDeclaration.orphan?, known]
      | some r =>
          cases resolves : cx.stateEnum.resolve? r <;>
            simp [orphan, parent, above, MachineDeclaration.orphan?, known, resolves]

theorem addState_unknown {a : StateArguments} (pos : Position) (d : Draft)
    (unknown : cx.stateEnum.resolve? a.state = none) :
    d.Carried (addState cx a pos d) ∧ (addState cx a pos d).report.hasErrors := by
  unfold addState
  split
  · next told resolved =>
      obtain ⟨carried, fails⟩ := resolve_carried resolved
      exact ⟨carried, fails unknown⟩
  · next name told resolved =>
      have missing := (Prod.mk.inj resolved).1
      simp [unknown] at missing

theorem updateState_nests {Above : String → String → Prop} {name : String}
    {change : StateModel → StateModel} (keeps : ∀ s, (change s).name = s.name)
    (gains : ∀ s p, (change s).parent = some p → s.parent = some p ∨ Above name p)
    {states : List StateModel} (nests : ∀ s ∈ states, ∀ p, s.parent = some p → Above s.name p) :
    ∀ s ∈ updateState name change states, ∀ p, s.parent = some p → Above s.name p := by
  intro s member p parent
  rcases updateState_mem member with old | ⟨old, inside, rfl, rfl⟩
  · exact nests s old p parent
  · rw [keeps]
    rcases gains old p parent with before | new
    · exact nests old inside p before
    · exact new

section Declaration

variable (e : Declared MachineDeclaration) (d : Draft)

theorem addDeclaration_report :
    d.report <+: (addDeclaration cx d e).report ∧
      ((∃ r ∈ e.value.stateReferences, cx.stateEnum.resolve? r = none) ∨
          (∃ r ∈ e.value.triggerReferences, cx.triggerEnum.resolve? r = none) →
        (addDeclaration cx d e).report.hasErrors) := by
  obtain ⟨value, pos⟩ := e
  cases value with
  | transition a =>
      obtain ⟨carried, fails⟩ := addTransition_carried cx (.ofTransition a) pos d
      refine ⟨carried.report, ?_⟩
      rintro (⟨r, named, unresolved⟩ | ⟨r, named, unresolved⟩)
      · rcases List.mem_pair.mp named with rfl | rfl
        · exact fails (.inl unresolved)
        · exact fails (.inr (.inr unresolved))
      · obtain rfl := List.mem_singleton.mp named
        exact fails (.inr (.inl unresolved))
  | internal a =>
      obtain ⟨carried, fails⟩ := addTransition_carried cx (.ofInternal a) pos d
      refine ⟨carried.report, ?_⟩
      rintro (⟨r, named, unresolved⟩ | ⟨r, named, unresolved⟩)
      · obtain rfl := List.mem_singleton.mp named
        exact fails (.inl unresolved)
      · obtain rfl := List.mem_singleton.mp named
        exact fails (.inr (.inl unresolved))
  | state a =>
      cases known : cx.stateEnum.resolve? a.state with
      | none =>
          obtain ⟨carried, fails⟩ := addState_unknown pos d known
          exact ⟨carried.report, fun _ => fails⟩
      | some state =>
          obtain ⟨_, _, d₂, carried, report, _⟩ := addState_known pos d known
          constructor
          · show d.report <+: (addState cx a pos d).report
            rw [report]
            exact carried.report
          · simp [MachineDeclaration.stateReferences, MachineDeclaration.triggerReferences, known]
  | machine a =>
      exact ⟨List.prefix_rfl, by
        simp [MachineDeclaration.stateReferences, MachineDeclaration.triggerReferences]⟩
  | payload a =>
      exact ⟨List.prefix_rfl, by
        simp [MachineDeclaration.stateReferences, MachineDeclaration.triggerReferences]⟩

theorem addDeclaration_orphans :
    (addDeclaration cx d e).orphans = d.orphans ++ (e.value.orphan? cx.stateEnum).toList := by
  have nothing {next : Draft} (carried : d.Carried next) :
      next.orphans = d.orphans ++ (none : Option (String × String)).toList := by
    simp [carried.orphans]
  obtain ⟨value, pos⟩ := e
  cases value with
  | transition a => exact nothing (addTransition_carried cx (.ofTransition a) pos d).1
  | internal a => exact nothing (addTransition_carried cx (.ofInternal a) pos d).1
  | state a =>
      cases known : cx.stateEnum.resolve? a.state with
      | none =>
          have orphan : MachineDeclaration.orphan? cx.stateEnum (.state a) = none := by
            simp [MachineDeclaration.orphan?, known]
          rw [orphan]
          exact nothing (addState_unknown pos d known).1
      | some state =>
          obtain ⟨_, _, d₂, carried, _, orphans, _⟩ := addState_known pos d known
          rw [← carried.orphans]
          exact orphans
  | machine a => exact nothing (.refl d)
  | payload a => exact nothing (.refl d)

theorem addDeclaration_nests {e : Declared MachineDeclaration} {d : Draft}
    (declared : e ∈ cx.machine.declarations)
    (nests : ∀ s ∈ d.states, ∀ p, s.parent = some p → cx.machine.Nests cx.stateEnum s.name p) :
    ∀ s ∈ (addDeclaration cx d e).states, ∀ p, s.parent = some p →
      cx.machine.Nests cx.stateEnum s.name p := by
  have same {next : Draft} (carried : d.Carried next) :
      ∀ s ∈ next.states, ∀ p, s.parent = some p → cx.machine.Nests cx.stateEnum s.name p := by
    rw [carried.states]
    exact nests
  obtain ⟨value, pos⟩ := e
  cases value with
  | transition a => exact same (addTransition_carried cx (.ofTransition a) pos d).1
  | internal a => exact same (addTransition_carried cx (.ofInternal a) pos d).1
  | state a =>
      cases known : cx.stateEnum.resolve? a.state with
      | none => exact same (addState_unknown pos d known).1
      | some state =>
          obtain ⟨onEntry, onExit, d₂, carried, _, _, states⟩ := addState_known pos d known
          show ∀ s ∈ (addState cx a pos d).states, _
          rw [states, carried.states]
          let parent := a.parent.bind fun r => (cx.stateEnum.resolve? r).map EnumMember.name
          have keeps (s : StateModel) : (merge s onEntry onExit parent a).name = s.name := rfl
          refine updateState_nests keeps (fun s p gained => ?_) nests
          refine (Option.or_eq_some_iff.mp gained).imp id fun new => ?_
          obtain ⟨r, above, resolved⟩ := Option.bind_eq_some_iff.mp new.2
          exact ⟨a, pos, r, declared, by simp [known], above, resolved⟩
  | machine a => exact same (.refl d)
  | payload a => exact same (.refl d)

end Declaration

theorem foldl_grows {α : Type} {f : Draft → α → Draft}
    (grows : ∀ d a, d.report <+: (f d a).report) (added : List α) (d : Draft) :
    d.report <+: (added.foldl f d).report := by
  induction added generalizing d with
  | nil => exact List.prefix_rfl
  | cons a rest ih => exact (grows d a).trans (ih (f d a))

theorem foldl_fails {α : Type} {f : Draft → α → Draft}
    (grows : ∀ d a, d.report <+: (f d a).report) {added : List α} {a : α} (member : a ∈ added)
    (fails : ∀ d, (f d a).report.hasErrors) (d : Draft) :
    (added.foldl f d).report.hasErrors := by
  obtain ⟨before, behind, rfl⟩ := List.append_of_mem member
  rw [List.foldl_append, List.foldl_cons]
  exact errors_stay (foldl_grows grows behind _) (fails _)

theorem declarePayloads_eq (cx : Setting) (d : Draft) :
    declarePayloads cx d = (cx.machine.payloadSources cx.facts).foldl
      (fun d (onMethod, p) => declarePayload cx onMethod p d)
      { d with defaultPayload := cx.primary.payload } := rfl

theorem declarePayloads_fails {p : Declared PayloadArguments} {r : Reference}
    (declared : p ∈ cx.machine.payloadTypes cx.facts) (named : p.value.trigger = some r)
    (unresolved : cx.triggerEnum.resolve? r = none) (d : Draft) :
    (declarePayloads cx d).report.hasErrors := by
  rw [← MachineFacts.payloadSources_map] at declared
  obtain ⟨⟨onMethod, p⟩, member, rfl⟩ := List.mem_map.mp declared
  rw [declarePayloads_eq]
  refine foldl_fails (fun d p => (declarePayload_carried p.1 p.2 d).1.report) member ?_ _
  exact fun d => (declarePayload_carried onMethod p d).2 ⟨r, named, unresolved⟩

theorem draft_orphans (cx : Setting) (report : Report) :
    (draft cx report).orphans = cx.machine.orphanTexts cx.stateEnum := by
  unfold draft
  extract_lets start
  have added (declarations : List (Declared MachineDeclaration)) (d : Draft) :
      (declarations.foldl (addDeclaration cx) d).orphans =
        d.orphans ++ declarations.filterMap fun e => e.value.orphan? cx.stateEnum := by
    induction declarations generalizing d with
    | nil => simp
    | cons e rest ih =>
        rw [List.foldl_cons, ih, addDeclaration_orphans, List.append_assoc]
        cases orphan : e.value.orphan? cx.stateEnum <;> simp [orphan]
  rw [(checks_told cx _).orphans, added, declarePayloads_orphans]
  rfl

theorem draft_nests (cx : Setting) (report : Report) :
    ∀ s ∈ (draft cx report).states, ∀ p, s.parent = some p →
      cx.machine.Nests cx.stateEnum s.name p := by
  unfold draft
  extract_lets start
  rw [(checks_told cx _).states]
  refine List.foldlRecOn (motive := fun d : Draft => ∀ s ∈ d.states, ∀ p, s.parent = some p →
    cx.machine.Nests cx.stateEnum s.name p) _ _ ?_ ?_
  · rw [(declarePayloads_kept cx start).states]
    simp [start]
  · exact fun d nests e declared => addDeclaration_nests declared nests

section Clean

variable {report : Report} (clean : (draft cx report).report.hasErrors = false)
include clean

theorem draft_parents {state parent : String}
    (orphan : cx.machine.Orphans cx.stateEnum state parent) :
    cx.machine.Hides cx.stateEnum state := by
  by_contra shown
  have listed := MachineFacts.mem_orphanTexts.mpr orphan
  have names := (draft_orderly cx report).stateNames
  have text : ∃ text, (draft cx report).orphanText? state = some text := by
    have found : ((cx.machine.orphanTexts cx.stateEnum).find? (·.1 == state)).isSome :=
      List.find?_isSome.mpr ⟨_, listed, by simp⟩
    obtain ⟨first, found⟩ := Option.isSome_iff_exists.mp found
    exact ⟨first.2, by rw [Draft.orphanText?, draft_orphans, found]; rfl⟩
  obtain ⟨text, first⟩ := text
  have nested : isNested cx (draft cx report) := by
    have orphans := List.ne_nil_of_mem (Draft.orphanText?_mem first)
    simp [isNested, orphans]
  have known : state ∈ cx.stateEnum.members.map EnumMember.name := by
    obtain ⟨a, _, _, _, resolved, _⟩ := orphan
    obtain ⟨m, found, rfl⟩ := Option.map_eq_some_iff.mp resolved
    exact List.mem_map_of_mem (resolve?_mem found)
  obtain ⟨s, member, rfl⟩ := List.mem_map.mp (names ▸ known)
  have alone : s.parent = none := Option.eq_none_iff_forall_ne_some.mpr fun p above =>
    shown (.inl ⟨p, draft_nests cx report s member p above⟩)
  -- the text stands in for the parent that is missing, so the rules want it to name a state
  have quiet : ∀ f ∈ nestingFindings (draft cx report), f.isError = false :=
    checkNesting_quiet nested clean
  have above : (nestedState (draft cx report) s).parent = some text := by
    simp [nestedState, alone, first]
  have place : ((finish cx (draft cx report)).stateIndex? text).isSome :=
    nested_known quiet member above
  obtain ⟨i, place⟩ := Option.isSome_iff_exists.mp place
  obtain ⟨t, here, rfl, _⟩ := Model.stateIndex?_eq_some place
  refine shown (.inr ⟨t.name, ?_, ?_⟩)
  · rw [← draft_orphans cx report]
    exact first
  · rw [← names]
    exact List.mem_map_of_mem (List.mem_of_getElem? here)

theorem draft_resolves : cx.machine.Resolves cx.facts cx.stateEnum cx.triggerEnum := by
  let start : Draft :=
    { report, states := cx.stateEnum.members.map fun m => { name := m.name } }
  have silent : ¬(cx.machine.declarations.foldl (addDeclaration cx)
      (declarePayloads cx start)).report.hasErrors := by
    intro fails
    have errors : (draft cx report).report.hasErrors := errors_stay (checks_told cx _).report fails
    simp [clean] at errors
  have grows (d : Draft) (e : Declared MachineDeclaration) :
      d.report <+: (addDeclaration cx d e).report := (addDeclaration_report e d).1
  refine ⟨fun r named => ?_, fun r named => ?_, fun state parent => draft_parents clean⟩
  · by_contra missing
    have unresolved : cx.stateEnum.resolve? r = none := by simpa using missing
    obtain ⟨e, declared, named⟩ := List.mem_flatMap.mp named
    apply silent
    apply foldl_fails grows declared
    exact fun d => (addDeclaration_report e d).2 (.inl ⟨r, named, unresolved⟩)
  · by_contra missing
    have unresolved : cx.triggerEnum.resolve? r = none := by simpa using missing
    apply silent
    rcases List.mem_append.mp named with edge | payload
    · obtain ⟨e, declared, named⟩ := List.mem_flatMap.mp edge
      apply foldl_fails grows declared
      exact fun d => (addDeclaration_report e d).2 (.inr ⟨r, named, unresolved⟩)
    · obtain ⟨p, declared, named⟩ := List.mem_filterMap.mp payload
      exact errors_stay (foldl_grows grows _ _) (declarePayloads_fails declared named unresolved _)

end Clean

end Build

/-! ## The whole machine -/

namespace MachineFacts

variable (machine : MachineFacts) (facts : ModuleFacts)

theorem build_cases :
    ((machine.build facts).1 = none ∧ (machine.Complete → (machine.build facts).2.hasErrors)) ∨
      ∃ (cx : Build.Setting) (report unreached : Report),
        cx.machine = machine ∧ cx.facts = facts ∧
          machine.enums? facts = some (cx.stateEnum, cx.triggerEnum) ∧
          machine.build facts =
            (if (Build.draft cx report).report.hasErrors || machine.malformed then none
              else some (Build.finish cx (Build.draft cx report)),
              (Build.draft cx report).report ++ unreached) := by
  unfold build
  extract_lets tell repeated enumOf
  split
  · next undeclared =>
      refine .inl ⟨rfl, fun complete => ?_⟩
      obtain ⟨⟨primary, declared, _⟩, _⟩ := complete
      cases undeclared.symm.trans declared
  · next primary declared =>
      have only {other : Declared MachineArguments} (found : machine.primary? = some other) :
          other = primary := Option.some.inj (found.symm.trans declared)
      extract_lets report stop
      split
      · next tuple => exact .inl ⟨rfl, fun complete => absurd tuple (complete.2 _)⟩
      · next unnamed _ =>
          refine .inl ⟨rfl, fun complete => ?_⟩
          obtain ⟨⟨other, found, named, _⟩, _⟩ := complete
          simp [only found, unnamed] at named
      · next unnamed _ _ =>
          refine .inl ⟨rfl, fun complete => ?_⟩
          obtain ⟨⟨other, found, _, named⟩, _⟩ := complete
          simp [only found, unnamed] at named
      · next state trigger stateNamed triggerNamed _ =>
          split
          · next stateEnum triggerEnum stateFound triggerFound =>
              extract_lets cx d model unreached rejected
              refine .inr ⟨cx, report, unreached, rfl, rfl, ?_, rfl⟩
              simp only [enumOf] at stateFound triggerFound
              simp only [enums?, declared, stateNamed, triggerNamed, Option.bind_some, stateFound,
                triggerFound, Option.map_some, cx]
          · refine .inl ⟨rfl, fun _ => ?_⟩
            simp only [stop, Build.hasErrors_append, Bool.or_eq_true]
            exact .inr rfl

/-- A model comes out only if every reference to an enum resolves to one of its members, and where
one does not an error is reported; but a parent that does not resolve can be hidden by the other
declarations of its state, or by a text that reads like a state. -/
theorem references_resolve :
    ((machine.build facts).1.isSome → ∃ states triggers,
        machine.enums? facts = some (states, triggers) ∧
          machine.Resolves facts states triggers) ∧
      (machine.Complete →
        (¬∃ states triggers, machine.enums? facts = some (states, triggers) ∧
          machine.Resolves facts states triggers) →
        (machine.build facts).1 = none ∧ (machine.build facts).2.hasErrors) := by
  rcases machine.build_cases facts with
    ⟨stopped, warned⟩ | ⟨cx, report, unreached, rfl, rfl, known, built⟩
  · constructor
    · simp [stopped]
    · exact fun complete _ => ⟨stopped, warned complete⟩
  · cases errors : (Build.draft cx report).report.hasErrors with
    | true =>
        rw [built, errors, Build.hasErrors_append, errors]
        simp
    | false =>
        have resolves := Build.draft_resolves errors
        constructor
        · exact fun _ => ⟨cx.stateEnum, cx.triggerEnum, known, resolves⟩
        · exact fun _ broken => absurd ⟨cx.stateEnum, cx.triggerEnum, known, resolves⟩ broken

end MachineFacts

section Porch

def porchReference (name : String) : Reference := ⟨.path (.word name), ⟨1, 0⟩⟩

def porchMember (name : String) : EnumMember := ⟨name, ⟨1, 0⟩, none⟩

def porchStates : EnumFacts := ⟨"State", ["Off", "On", "Low"].map porchMember⟩

def porchTriggers : EnumFacts := ⟨"Trigger", [porchMember "Power"]⟩

def porchModule : ModuleFacts where
  name := "porch"
  enums := [porchStates, porchTriggers]

/-- A light that is low when it is on; `more` declares what else there is. -/
def porchFacts (more : MachineDeclaration) : MachineFacts where
  name := "Porch"
  pos := ⟨1, 0⟩
  generics := {}
  fields := .unit
  itemIndex := 0
  malformed := false
  declarations :=
    [⟨.machine { state := some (.word "State"), trigger := some (.word "Trigger") }, ⟨1, 0⟩⟩,
     ⟨.state { state := porchReference "Low", parent := some (porchReference "On")
               initial := true }, ⟨1, 0⟩⟩,
     ⟨.transition ⟨porchReference "Off", porchReference "Power", porchReference "On", none, none⟩,
       ⟨1, 0⟩⟩,
     ⟨.transition ⟨porchReference "On", porchReference "Power", porchReference "Off", none, none⟩,
       ⟨1, 0⟩⟩,
     ⟨more, ⟨1, 0⟩⟩]

def ghostly : StateArguments :=
  { state := porchReference "Low", parent := some (porchReference "Ghost") }

def brokenPower : MachineDeclaration :=
  .transition ⟨porchReference "Off", porchReference "Knock", porchReference "On", none, none⟩

theorem porch_references :
    ((porchFacts (.state ghostly)).build porchModule).1.isSome ∧
      (∃ states triggers,
        (porchFacts (.state ghostly)).enums? porchModule = some (states, triggers) ∧
          (porchFacts (.state ghostly)).Resolves porchModule states triggers) ∧
      (porchFacts brokenPower).Complete ∧
      ((porchFacts brokenPower).build porchModule).1 = none ∧
      ((porchFacts brokenPower).build porchModule).2.hasErrors := by
  have built : ((porchFacts (.state ghostly)).build porchModule).1.isSome := rfl
  have complete : (porchFacts brokenPower).Complete :=
    ⟨⟨_, rfl, rfl, rfl⟩, by simp [porchFacts]⟩
  have broken : ¬∃ states triggers,
      (porchFacts brokenPower).enums? porchModule = some (states, triggers) ∧
        (porchFacts brokenPower).Resolves porchModule states triggers := by
    rintro ⟨states, triggers, known, resolves⟩
    have enums : (porchFacts brokenPower).enums? porchModule = some (porchStates, porchTriggers) :=
      rfl
    obtain ⟨rfl, rfl⟩ := Prod.mk.inj (Option.some.inj (known.symm.trans enums))
    have knock := resolves.fired (porchReference "Knock") (by
      simp [MachineFacts.triggerReferences, porchFacts, brokenPower,
        MachineDeclaration.triggerReferences])
    cases knock
  obtain ⟨resolved, _⟩ :=
    MachineFacts.references_resolve (porchFacts (.state ghostly)) porchModule
  obtain ⟨_, reported⟩ := MachineFacts.references_resolve (porchFacts brokenPower) porchModule
  exact ⟨built, resolved built, complete, reported complete broken⟩

theorem porch_ghost_unnoticed :
    (porchFacts (.state ghostly)).enums? porchModule = some (porchStates, porchTriggers) ∧
      ((porchFacts (.state ghostly)).build porchModule).1.isSome ∧
      ((porchFacts (.state ghostly)).build porchModule).2.hasErrors = false ∧
      (porchFacts (.state ghostly)).Orphans porchStates "Low" "Ghost" := by
  refine ⟨rfl, rfl, rfl, ghostly, ⟨1, 0⟩, porchReference "Ghost", ?_, rfl, rfl, rfl, rfl⟩
  simp [porchFacts]

end Porch

end Statewright
