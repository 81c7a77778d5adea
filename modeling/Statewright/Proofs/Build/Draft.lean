import Statewright.Build

/-!
# Drafts

What every declaration keeps of a draft: the names of its states, that of several states of one name
only the first gets a parent, that no two transitions share source and trigger, and that callbacks
stand where their role says. To resolve references and callbacks adds to what is reported and noted,
and changes neither states nor transitions.
-/

namespace Statewright

open Grammar

namespace MachineMode

theorem joined?_isAsync {mode next : MachineMode} {call : CallMode}
    (joined : mode.joined? call = some next) :
    next.isAsync = (mode.isAsync || call = .async) := by
  cases mode <;> cases call <;> cases joined <;> rfl

end MachineMode

namespace Build

/-- The report and the token uses may grow and the mode may be joined by another; all else stays. -/
structure Draft.Told (d next : Draft) : Prop where
  report : d.report <+: next.report
  uses : d.tokenUses <+: next.tokenUses
  async : d.mode.isAsync → next.mode.isAsync
  states : next.states = d.states
  orphans : next.orphans = d.orphans
  transitions : next.transitions = d.transitions
  defaultPayload : next.defaultPayload = d.defaultPayload
  triggerPayloads : next.triggerPayloads = d.triggerPayloads
  hasEntryExit : next.hasEntryExit = d.hasEntryExit

namespace Draft.Told

variable {d middle next : Draft}

theorem refl (d : Draft) : d.Told d :=
  ⟨List.prefix_rfl, List.prefix_rfl, id, rfl, rfl, rfl, rfl, rfl, rfl⟩

theorem trans (first : d.Told middle) (rest : middle.Told next) : d.Told next where
  report := first.report.trans rest.report
  uses := first.uses.trans rest.uses
  async := rest.async ∘ first.async
  states := rest.states.trans first.states
  orphans := rest.orphans.trans first.orphans
  transitions := rest.transitions.trans first.transitions
  defaultPayload := rest.defaultPayload.trans first.defaultPayload
  triggerPayloads := rest.triggerPayloads.trans first.triggerPayloads
  hasEntryExit := rest.hasEntryExit.trans first.hasEntryExit

theorem of_report (d : Draft) (more : Report) : d.Told { d with report := d.report ++ more } :=
  ⟨List.prefix_append _ _, List.prefix_rfl, id, rfl, rfl, rfl, rfl, rfl, rfl⟩

end Draft.Told

theorem tell_told (d : Draft) (findings : List Finding) (pos : Position) :
    d.Told (d.tell findings pos) := .of_report d _

theorem resolve_told {facts : EnumFacts} {r : Declaration.Reference} {d next : Draft}
    {found : Option String} (resolved : resolve facts r d = (found, next)) : d.Told next := by
  obtain ⟨-, rfl⟩ := Prod.mk.inj resolved
  exact tell_told d _ _

theorem resolve?_mem {facts : EnumFacts} {r : Declaration.Reference} {m : EnumMember}
    (found : facts.resolve? r = some m) : m ∈ facts.members := by
  have byPath {p : Path} (found : facts.ofPath? p = some m) : m ∈ facts.members := by
    unfold EnumFacts.ofPath? at found
    split at found
    · simp at found
    · exact List.mem_of_find?_eq_some found
    · split at found
      · exact List.mem_of_find?_eq_some found
      · simp at found
  unfold EnumFacts.resolve? at found
  split at found
  · exact byPath found
  · exact byPath found
  · obtain ⟨value, _, found⟩ := Option.bind_eq_some_iff.mp found
    exact List.mem_of_find?_eq_some found

theorem resolve_mem {facts : EnumFacts} {r : Declaration.Reference} {d next : Draft} {name : String}
    (resolved : resolve facts r d = (some name, next)) :
    name ∈ facts.members.map EnumMember.name := by
  obtain ⟨found, -⟩ := Prod.mk.inj resolved
  obtain ⟨m, member, rfl⟩ := Option.map_eq_some_iff.mp found
  exact List.mem_map_of_mem (resolve?_mem member)

theorem resolve_found {facts : EnumFacts} {r : Declaration.Reference} {m : EnumMember}
    (found : facts.resolve? r = some m) (d : Draft) : resolve facts r d = (some m.name, d) := by
  simp [resolve, found, Draft.tell, Check.enumValue]

def Setting.scope? (cx : Setting) (p : PayloadArguments) : Option (Option String) :=
  p.trigger.elim (some none) fun r => (cx.triggerEnum.resolve? r).map fun m => some m.name

def Draft.payloadOf? (d : Draft) : Option String → Option Ty
  | none => d.defaultPayload
  | some trigger => (d.triggerPayloads.find? (·.1 == trigger)).map (·.2)

def Draft.gaining (d : Draft) (ty : Ty) : Option String → Draft
  | none => { d with defaultPayload := some ty }
  | some trigger => { d with triggerPayloads := d.triggerPayloads ++ [(trigger, ty)] }

theorem declarePayload_cases (cx : Setting) (onMethod : Option String)
    (p : Declared PayloadArguments) (d : Draft) :
    (∃ r, p.value.trigger = some r ∧ cx.triggerEnum.resolve? r = none ∧
        declarePayload cx onMethod p d = (resolve cx.triggerEnum r d).2) ∨
      ∃ scope, cx.scope? p.value = some scope ∧
        ((∃ existing, d.payloadOf? scope = some existing ∧
          declarePayload cx onMethod p d = d.tell
            (Check.payloadRedeclaration scope existing.text p.value.ty.text onMethod) p.pos) ∨
          d.payloadOf? scope = none ∧
            declarePayload cx onMethod p d = d.gaining p.value.ty scope) := by
  obtain ⟨⟨ty, trigger⟩, pos⟩ := p
  cases trigger with
  | none =>
      refine .inr ⟨none, rfl, ?_⟩
      cases default : d.defaultPayload with
      | some existing => exact .inl ⟨existing, default, by simp [declarePayload, default]⟩
      | none => exact .inr ⟨default, by simp [declarePayload, default, Draft.gaining]⟩
  | some r =>
      cases resolved : cx.triggerEnum.resolve? r with
      | none => exact .inl ⟨r, rfl, resolved, by simp [declarePayload, resolve, resolved]⟩
      | some m =>
          refine .inr ⟨some m.name, by simp [Setting.scope?, resolved], ?_⟩
          cases found : d.triggerPayloads.find? (·.1 == m.name) with
          | some entry =>
              exact .inl ⟨entry.2, by simp [Draft.payloadOf?, found],
                by simp [declarePayload, resolve_found resolved, found]⟩
          | none =>
              exact .inr ⟨by simp [Draft.payloadOf?, found],
                by simp [declarePayload, resolve_found resolved, found, Draft.gaining]⟩

theorem declarePayload_told (cx : Setting) (onMethod : Option String)
    (p : Declared PayloadArguments) (d : Draft) :
    d.Told (declarePayload cx onMethod p d) ∨
      ∃ scope, d.payloadOf? scope = none ∧
        declarePayload cx onMethod p d = d.gaining p.value.ty scope := by
  rcases declarePayload_cases cx onMethod p d with
    ⟨r, _, _, same⟩ | ⟨scope, _, ⟨_, _, same⟩ | gains⟩
  · exact .inl (same ▸ tell_told d _ r.pos)
  · exact .inl (same ▸ tell_told d _ p.pos)
  · exact .inr ⟨scope, gains⟩

theorem declarePayloads_induction (holds : Draft → Prop) {cx : Setting} {d : Draft}
    (start : holds { d with defaultPayload := cx.primary.payload })
    (step : ∀ onMethod p next, holds next → holds (declarePayload cx onMethod p next)) :
    holds (declarePayloads cx d) :=
  List.foldlRecOn (motive := holds) _ _ start fun next known p _ => step p.1 p.2 next known

def Setting.method? (cx : Setting) (name : String) : Option MethodFacts :=
  (cx.facts.methodsOf cx.machine.name).find? (·.name == name)

def shapeFor (m : MethodFacts) (role : Role) : Shape :=
  Shape.ofSignature m.receiver m.parameters m.output m.isAsync role

structure Setting.Describes (cx : Setting) (c : Callback) (m : MethodFacts) : Prop where
  found : cx.method? c.name = some m
  isAsync : c.isAsync ↔ (shapeFor m c.role).returns.mode? = some .async
  fallible : c.fallible = (shapeFor m c.role).fallible
  payload : c.payload = (shapeFor m c.role).payload
  token : c.token = (shapeFor m c.role).token
  detached : c.detached ↔ (shapeFor m c.role).returns = .detached

def Draft.Notes (d : Draft) (cx : Setting) (expected : ExpectedPayload) (pos : Position)
    (c : Callback) : Prop :=
  ∃ m, cx.Describes c m ∧
    (Check.callbackSignature c.name c.role (some (shapeFor m c.role)) expected
      cx.primary.variant.isSome).any Finding.isError = false ∧
    (c.isAsync → d.mode.isAsync) ∧ ⟨c.name, c.role, c.token, pos⟩ ∈ d.tokenUses

theorem observe_told {method : String} {mode : Option CallMode} {pos : Position} {d next : Draft}
    {kept : Option Draft} (observed : observe method mode pos d = (kept, next)) :
    d.Told next ∧ ∀ k, kept = some k → d.Told k ∧ (mode = some .async → k.mode.isAsync) := by
  unfold observe at observed
  split at observed
  · cases observed
    simp [Draft.Told.refl]
  · split at observed
    · next call mode joined =>
        cases observed
        have async := MachineMode.joined?_isAsync joined
        refine ⟨.refl d, ?_⟩
        rintro k ⟨⟩
        refine ⟨{ Draft.Told.refl d with async := fun on => ?_ }, fun same => ?_⟩
        · simp [async, on]
        · simp [async, Option.some.inj same]
    · cases observed
      have told := tell_told d (Check.modeConflict method d.modeSource (!d.conflictReported)) pos
      exact ⟨{ told with }, by simp⟩

theorem callback_told {cx : Setting} {name : String} {role : Role} {expected : ExpectedPayload}
    {pos : Position} {d next : Draft} {found : Option Callback}
    (resolved : callback cx name role expected pos d = (found, next)) :
    d.Told next ∧
      ∀ c, found = some c → c.name = name ∧ c.role = role ∧ next.Notes cx expected pos c := by
  unfold callback at resolved
  extract_lets method shape findings told at resolved
  have start : d.Told told := tell_told d _ _
  have shaped : shape = (cx.method? name).map (shapeFor · role) := rfl
  have checked : findings = Check.callbackSignature name role shape expected
      cx.primary.variant.isSome := rfl
  -- the shape is split by its value below, and would take the findings along
  clear_value told findings shape
  split at resolved
  · cases resolved
    exact ⟨start, by simp⟩
  · split at resolved
    · cases resolved
      exact ⟨start, by simp⟩
    · next passed =>
        split at resolved
        · next rejected observed =>
            cases resolved
            exact ⟨start.trans (observe_told observed).1, by simp⟩
        · next kept _ observed =>
            cases resolved
            obtain ⟨further, async⟩ := (observe_told observed).2 kept rfl
            have all := start.trans further
            refine ⟨{ all with uses := all.uses.trans (List.prefix_append _ _) }, ?_⟩
            rintro c ⟨⟩
            obtain ⟨m, known, rfl⟩ := Option.map_eq_some_iff.mp shaped.symm
            rw [checked, Bool.not_eq_true] at passed
            exact ⟨rfl, rfl, m, ⟨known, decide_eq_true_iff, rfl, rfl, rfl, decide_eq_true_iff⟩,
              passed, fun on => async (of_decide_eq_true on), by simp⟩

theorem callback?_told {cx : Setting} {name : Option String} {role : Role}
    {expected : ExpectedPayload} {pos : Position} {d next : Draft} {found : Option Callback}
    (resolved : callback? cx name role expected pos d = (found, next)) :
    d.Told next ∧
      ∀ c, found = some c → name = some c.name ∧ c.role = role ∧ next.Notes cx expected pos c := by
  cases name with
  | none =>
      cases resolved
      exact ⟨.refl d, by simp⟩
  | some n =>
      obtain ⟨told, known⟩ := callback_told resolved
      refine ⟨told, fun c here => ?_⟩
      obtain ⟨rfl, noted⟩ := known c here
      exact ⟨rfl, noted⟩

structure Draft.Kept (d next : Draft) : Prop where
  states : next.states = d.states
  transitions : next.transitions = d.transitions
  silent : next.hasEntryExit = false → d.hasEntryExit = false

theorem Draft.Kept.trans {d middle next : Draft} (first : d.Kept middle) (rest : middle.Kept next) :
    d.Kept next :=
  ⟨rest.states.trans first.states, rest.transitions.trans first.transitions,
    first.silent ∘ rest.silent⟩

theorem Draft.Told.kept {d next : Draft} (told : d.Told next) : d.Kept next :=
  ⟨told.states, told.transitions, fun unused => told.hasEntryExit ▸ unused⟩

theorem declarePayload_kept (cx : Setting) (onMethod : Option String)
    (declared : Declared PayloadArguments) (d : Draft) :
    d.Kept (declarePayload cx onMethod declared d) := by
  rcases declarePayload_told cx onMethod declared d with told | ⟨scope, _, same⟩
  · exact told.kept
  · rw [same]
    cases scope <;> exact ⟨rfl, rfl, id⟩

theorem declarePayloads_kept (cx : Setting) (d : Draft) : d.Kept (declarePayloads cx d) :=
  declarePayloads_induction d.Kept ⟨rfl, rfl, id⟩ fun onMethod p next kept =>
    kept.trans (declarePayload_kept cx onMethod p next)

/-! ## The invariant -/

structure Draft.Orderly (names : List String) (d : Draft) : Prop where
  stateNames : d.states.map StateModel.name = names
  firstNested : d.states.Pairwise fun s t => s.name = t.name → t.parent = none
  walkRoles : ∀ s ∈ d.states, (∀ c ∈ s.onEntry, c.role = .onEntry) ∧
    ∀ c ∈ s.onExit, c.role = .onExit
  distinct : d.transitions.Pairwise fun t u => ¬(t.source = u.source ∧ t.trigger = u.trigger)
  edgeRoles : ∀ t ∈ d.transitions, (∀ c ∈ t.guard, c.role = .guard) ∧
    ∀ c ∈ t.action, c.role = .action
  ends : ∀ t ∈ d.transitions, t.source ∈ names ∧ t.target ∈ names
  quiet : d.hasEntryExit = false → ∀ s ∈ d.states, s.onEntry = none ∧ s.onExit = none

theorem Draft.Orderly.of_kept {names : List String} {d next : Draft} (orderly : d.Orderly names)
    (kept : d.Kept next) : next.Orderly names := by
  obtain ⟨states, transitions, silent⟩ := kept
  obtain ⟨stateNames, firstNested, walkRoles, distinct, edgeRoles, ends, quiet⟩ := orderly
  constructor
  · rwa [states]
  · rwa [states]
  · rwa [states]
  · rwa [transitions]
  · rwa [transitions]
  · rwa [transitions]
  · exact fun unused => states ▸ quiet (silent unused)

theorem updateState_names (name : String) (change : StateModel → StateModel)
    (keeps : ∀ s, (change s).name = s.name) (states : List StateModel) :
    (updateState name change states).map StateModel.name = states.map StateModel.name := by
  induction states with
  | nil => rfl
  | cons s rest ih =>
      rw [updateState]
      split <;> simp [keeps, ih]

theorem updateState_mem {name : String} {change : StateModel → StateModel}
    {states : List StateModel} {s : StateModel} (member : s ∈ updateState name change states) :
    s ∈ states ∨ ∃ old ∈ states, old.name = name ∧ s = change old := by
  induction states with
  | nil => simp [updateState] at member
  | cons first rest ih =>
      rw [updateState] at member
      split at member
      · next same =>
          rcases List.mem_cons.mp member with rfl | later
          · exact .inr ⟨first, List.mem_cons_self, by simpa using same, rfl⟩
          · exact .inl (List.mem_cons_of_mem first later)
      · rcases List.mem_cons.mp member with rfl | later
        · exact .inl List.mem_cons_self
        · rcases ih later with old | ⟨old, inside, named, rfl⟩
          · exact .inl (List.mem_cons_of_mem first old)
          · exact .inr ⟨old, List.mem_cons_of_mem first inside, named, rfl⟩

theorem updateState_first {Bare : StateModel → Prop} {name : String}
    {change : StateModel → StateModel} (keeps : ∀ s, (change s).name = s.name)
    {states : List StateModel} (first : states.Pairwise fun s t => s.name = t.name → Bare t) :
    (updateState name change states).Pairwise fun s t => s.name = t.name → Bare t := by
  induction states with
  | nil => exact List.Pairwise.nil
  | cons s rest ih =>
      obtain ⟨here, later⟩ := List.pairwise_cons.mp first
      rw [updateState]
      split
      · refine List.pairwise_cons.mpr ⟨fun t member same => ?_, later⟩
        exact here t member ((keeps s).symm.trans same)
      · next other =>
          refine List.pairwise_cons.mpr ⟨fun t member same => ?_, ih later⟩
          rcases updateState_mem member with old | ⟨old, inside, named, rfl⟩
          · exact here t old same
          · -- the changed state is the first of its name, and `s` has another one
            exact absurd (same.trans ((keeps old).trans named)) (by simpa using other)

theorem register_orderly (cx : Setting) (e : Edge) {source trigger target : String} (pos : Position)
    {names : List String} {d : Draft} (orderly : d.Orderly names) (leaves : source ∈ names)
    (aims : target ∈ names) : (register cx e source trigger target pos d).Orderly names := by
  unfold register
  split
  · exact orderly.of_kept ⟨rfl, rfl, id⟩
  · next fresh =>
      extract_lets payload expected
      rcases guarded : callback? cx e.guard .guard expected pos d with ⟨guard, d₁⟩
      rcases acted : callback? cx e.action .action expected pos d₁ with ⟨action, d₂⟩
      obtain ⟨first, guardKnown⟩ := callback?_told guarded
      obtain ⟨second, actionKnown⟩ := callback?_told acted
      have kept := (first.trans second).kept
      obtain ⟨stateNames, firstNested, walkRoles, distinct, edgeRoles, ends, quiet⟩ :=
        orderly.of_kept kept
      simp only [acted]
      refine ⟨stateNames, firstNested, walkRoles, ?_, ?_, ?_, quiet⟩
      · refine List.pairwise_append.mpr ⟨distinct, List.pairwise_singleton _ _, ?_⟩
        intro t old u new same
        rw [List.mem_singleton.mp new] at same
        rw [kept.transitions] at old
        exact fresh (List.any_eq_true.mpr ⟨t, old, by simp [same.1, same.2]⟩)
      · intro t member
        rcases List.mem_append.mp member with old | new
        · exact edgeRoles t old
        · rw [List.mem_singleton.mp new]
          exact ⟨fun c given => (guardKnown c given).2.1, fun c given => (actionKnown c given).2.1⟩
      · intro t member
        rcases List.mem_append.mp member with old | new
        · exact ends t old
        · rw [List.mem_singleton.mp new]
          exact ⟨leaves, aims⟩

theorem addTransition_orderly (cx : Setting) (e : Edge) (pos : Position) {d : Draft}
    (orderly : d.Orderly (cx.stateEnum.members.map EnumMember.name)) :
    (addTransition cx e pos d).Orderly (cx.stateEnum.members.map EnumMember.name) := by
  unfold addTransition
  rcases leaves : resolve cx.stateEnum e.source d with ⟨source, d₁⟩
  rcases fires : resolve cx.triggerEnum e.trigger d₁ with ⟨trigger, d₂⟩
  rcases aims : resolve cx.stateEnum e.target d₂ with ⟨target, d₃⟩
  have told := orderly.of_kept
    ((resolve_told leaves).trans ((resolve_told fires).trans (resolve_told aims))).kept
  simp only [fires, aims]
  split
  · exact register_orderly cx e pos told (resolve_mem leaves) (resolve_mem aims)
  · exact told

theorem addState_orderly (cx : Setting) (a : StateArguments) (pos : Position) {names : List String}
    {d : Draft} (orderly : d.Orderly names) : (addState cx a pos d).Orderly names := by
  unfold addState
  split
  · next told resolved => exact orderly.of_kept (resolve_told resolved).kept
  · next name told resolved =>
      extract_lets d₀ expected parent orphan
      rcases entered : callback? cx a.onEntry .onEntry expected pos d₀ with ⟨onEntry, d₁⟩
      rcases exited : callback? cx a.onExit .onExit expected pos d₁ with ⟨onExit, d₂⟩
      obtain ⟨first, entry⟩ := callback?_told entered
      obtain ⟨second, exit⟩ := callback?_told exited
      have parts (unused : d₀.hasEntryExit = false) :
          (told.hasEntryExit = false ∧ a.onEntry = none) ∧ a.onExit = none := by
        simpa [d₀] using unused
      have start : d.Kept d₀ :=
        (resolve_told resolved).kept.trans ⟨rfl, rfl, fun unused => (parts unused).1.1⟩
      have kept := (first.trans second).kept
      obtain ⟨stateNames, firstNested, walkRoles, distinct, edgeRoles, ends, quiet⟩ :=
        orderly.of_kept (start.trans kept)
      simp only [exited]
      have keeps : ∀ s, (merge s onEntry onExit parent a).name = s.name := fun _ => rfl
      refine ⟨?_, updateState_first keeps firstNested, ?_, distinct, edgeRoles, ends, ?_⟩
      · exact (updateState_names name _ keeps d₂.states).trans stateNames
      · intro s member
        rcases updateState_mem member with old | ⟨old, inside, _, rfl⟩
        · exact walkRoles s old
        · have roles := walkRoles old inside
          simp only [merge, Option.mem_def, Option.or_eq_some_iff]
          exact ⟨fun c given => given.elim (roles.1 c) fun new => (entry c new.2).2.1,
            fun c given => given.elim (roles.2 c) fun new => (exit c new.2).2.1⟩
      · intro silent s member
        obtain ⟨⟨_, noEntry⟩, noExit⟩ := parts (kept.silent silent)
        have unset := quiet silent
        rcases updateState_mem member with old | ⟨old, inside, _, rfl⟩
        · exact unset s old
        · have nothing : onEntry = none ∧ onExit = none := by
            constructor <;> refine Option.eq_none_iff_forall_ne_some.mpr fun c given => ?_
            · simpa [noEntry] using (entry c given).1
            · simpa [noExit] using (exit c given).1
          simp [merge, unset old inside, nothing]

theorem addDeclaration_orderly (cx : Setting) (e : Declared MachineDeclaration) {d : Draft}
    (orderly : d.Orderly (cx.stateEnum.members.map EnumMember.name)) :
    (addDeclaration cx d e).Orderly (cx.stateEnum.members.map EnumMember.name) := by
  unfold addDeclaration
  split
  · exact addTransition_orderly _ _ _ orderly
  · exact addTransition_orderly _ _ _ orderly
  · exact addState_orderly _ _ _ orderly
  · exact orderly
  · exact orderly

end Build

end Statewright
