import Statewright.Proofs.Build.Parts

/-!
# Histories without effect

A history that is set for a state without substates is warned about, once and by name, if the
machine is taken for a nested one: it asks for that, or gives some state a parent. A state is below
the first parent declared for it that resolves; where none does, the text of one can stand in for it
and keep a warning back.
-/

namespace Statewright

open Grammar Declaration

def Elsewhere (findings : List Finding) : Prop := ∀ f ∈ findings, f.rule ≠ .historyOnLeaf

@[simp] theorem elsewhere_nil : Elsewhere [] := by simp [Elsewhere]

@[simp] theorem elsewhere_singleton {f : Finding} :
    Elsewhere [f] ↔ f.rule ≠ .historyOnLeaf := by simp [Elsewhere]

@[simp] theorem elsewhere_append {first rest : List Finding} :
    Elsewhere (first ++ rest) ↔ Elsewhere first ∧ Elsewhere rest := List.forall_mem_append

@[simp] theorem elsewhere_ite {c : Prop} [Decidable c] {first rest : List Finding} :
    Elsewhere (if c then first else rest) ↔ (c → Elsewhere first) ∧ (¬c → Elsewhere rest) := by
  split <;> simp [*]

namespace Check

theorem callbackSignature_elsewhere (method : String) (role : Role) (shape : Option Shape)
    (expected : ExpectedPayload) (forced : Bool) :
    Elsewhere (callbackSignature method role shape expected forced) := by
  cases shape with
  | none => simp [callbackSignature, Finding.rule]
  | some s =>
      refine elsewhere_append.mpr ⟨elsewhere_append.mpr ⟨?_, ?_⟩, ?_⟩
      · cases s.receiver <;> simp [receiverFindings, Finding.rule]
      · cases s.returns <;> simp [returnFindings, Finding.rule]
      · refine elsewhere_ite.mpr ⟨fun _ => by simp [Finding.rule], fun _ => ?_⟩
        unfold payloadFindings
        cases expected <;> cases s.payload <;>
          simp [PayloadParameter.type?, Finding.rule]

theorem enumValue_elsewhere (value enum : String) (resolved : Bool) :
    Elsewhere (enumValue value enum resolved) := by
  simp [enumValue, Finding.rule]

theorem payloadRedeclaration_elsewhere (trigger : Option String) (existing declared : String)
    (onMethod : Option String) :
    Elsewhere (payloadRedeclaration trigger existing declared onMethod) := by
  cases onMethod <;> simp [payloadRedeclaration, Finding.rule]

theorem duplicateTransition_elsewhere (source trigger : String) (registered : Bool) :
    Elsewhere (duplicateTransition source trigger registered) := by
  simp [duplicateTransition, Finding.rule]

theorem modeConflict_elsewhere (method establishedBy : String) (isFirst : Bool) :
    Elsewhere (modeConflict method establishedBy isFirst) := by
  simp [modeConflict, Finding.rule]

theorem tokenParameter_elsewhere (method : String) (role : Role) (token : TokenParameter)
    (isAsync : Bool) : Elsewhere (tokenParameter method role token isAsync) := by
  simp [tokenParameter, Finding.rule]

theorem elsewhere_filterMap {α : Type} {find : α → Option Finding}
    (elsewhere : ∀ a f, find a = some f → f.rule ≠ .historyOnLeaf) (entries : List α) :
    Elsewhere (entries.filterMap find) := by
  intro f found
  obtain ⟨a, _, found⟩ := List.mem_filterMap.mp found
  exact elsewhere a f found

theorem circularHierarchy_elsewhere (states : List Nested) :
    Elsewhere (circularHierarchy states) := by
  refine elsewhere_filterMap (fun cycle f found => ?_) _
  split at found <;> cases found
  simp [Finding.rule]

theorem orphanSubstates_elsewhere (states : List Nested) : Elsewhere (orphanSubstates states) := by
  refine elsewhere_filterMap (fun s f found => ?_) _
  split at found
  · split at found <;> cases found
    simp [Finding.rule]
  · cases found

theorem compositeEntry_elsewhere (states : List Nested) : Elsewhere (compositeEntry states) := by
  refine elsewhere_filterMap (fun s f found => ?_) _
  split at found
  · split at found
    · split at found <;> cases found
      simp [Finding.rule]
    · cases found
    · cases found
      simp [Finding.rule]
  · cases found

theorem compositeTargets_elsewhere (states : List Nested) (moves : List (String × String)) :
    Elsewhere (compositeTargets states moves) := by
  refine elsewhere_filterMap (fun (source, target) f found => ?_) _
  dsimp only at found
  split at found <;> cases found
  simp [Finding.rule]

theorem unreachableStates_elsewhere (states : List String) (initial : Option String)
    (edges : List (String × String)) : Elsewhere (unreachableStates states initial edges) := by
  unfold unreachableStates
  split
  · refine elsewhere_filterMap (fun (name, i) f found => ?_) _
    dsimp only at found
    split at found <;> cases found
    simp [Finding.rule]
  · exact elsewhere_nil

def idle (states : List Nested) : List String :=
  (states.filter fun s => s.history ≠ .none && !isComposite states s.name).map Nested.name

theorem historyOnLeaf_eq (states : List Nested) :
    historyOnLeaf states = (idle states).map Finding.idleHistory := by
  rw [historyOnLeaf, idle, List.map_map, ← List.filterMap_eq_map, List.filterMap_filter]
  refine List.filterMap_congr fun s _ => ?_
  split <;> rfl

end Check

def Report.histories (report : Report) : Report := report.filter (·.rule = .historyOnLeaf)

theorem Report.histories_append (first rest : Report) :
    Report.histories (first ++ rest) = first.histories ++ rest.histories := List.filter_append _ _

theorem Elsewhere.unsaid {findings : List Finding} (elsewhere : Elsewhere findings)
    (place : Finding → Position) :
    Report.histories (findings.map fun f => Diagnostic.ofOutcome (place f) f.outcome) = [] := by
  refine List.filter_eq_nil_iff.mpr fun x told => ?_
  obtain ⟨f, found, rfl⟩ := List.mem_map.mp told
  exact fun same => elsewhere f found (of_decide_eq_true same)

namespace Build

def Draft.Unjudged (d : Draft) : Prop := ∀ x ∈ d.report, x.rule ≠ .historyOnLeaf

variable {cx : Setting} {d : Draft}

theorem tell_unjudged (unjudged : d.Unjudged) {findings : List Finding}
    (elsewhere : Elsewhere findings) (pos : Position) : (d.tell findings pos).Unjudged := by
  refine List.forall_mem_append.mpr ⟨unjudged, fun x told => ?_⟩
  obtain ⟨f, found, rfl⟩ := List.mem_map.mp told
  exact elsewhere f found

theorem resolve_unjudged (facts : EnumFacts) (r : Reference) (unjudged : d.Unjudged) :
    (resolve facts r d).2.Unjudged :=
  tell_unjudged unjudged (Check.enumValue_elsewhere _ _ _) r.pos

theorem declarePayload_unjudged (onMethod : Option String) (p : Declared PayloadArguments)
    (unjudged : d.Unjudged) : (declarePayload cx onMethod p d).Unjudged := by
  rcases declarePayload_cases cx onMethod p d with
    ⟨r, _, _, same⟩ | ⟨scope, _, ⟨_, _, same⟩ | ⟨_, same⟩⟩
  · exact same ▸ resolve_unjudged cx.triggerEnum r unjudged
  · exact same ▸ tell_unjudged unjudged (Check.payloadRedeclaration_elsewhere _ _ _ _) p.pos
  · rw [same]
    cases scope <;> exact unjudged

theorem weigh_unjudged (u : Use) (unjudged : d.Unjudged) : (weigh u d).2.Unjudged := by
  unfold weigh
  split
  · exact tell_unjudged unjudged (Check.modeConflict_elsewhere _ _ _) u.pos
  · exact unjudged

theorem callback?_unjudged (method : Option String) (role : Role) (expected : ExpectedPayload)
    (pos : Position) (unjudged : d.Unjudged) :
    (callback? cx method role expected pos d).2.Unjudged := by
  cases method with
  | none => exact unjudged
  | some method =>
      have told : (d.tell (cx.findings role expected method) pos).Unjudged :=
        tell_unjudged unjudged (Check.callbackSignature_elsewhere _ _ _ _ _) pos
      rw [callback?, callback_eq]
      cases cx.callbackFor? role expected method with
      | none => exact told
      | some c => exact weigh_unjudged ⟨c, pos⟩ told

theorem register_unjudged (e : Edge) (source trigger target : String) (pos : Position)
    (unjudged : d.Unjudged) : (register cx e source trigger target pos d).Unjudged := by
  unfold register
  split
  · exact tell_unjudged unjudged (Check.duplicateTransition_elsewhere _ _ _) pos
  · exact callback?_unjudged _ _ _ pos (callback?_unjudged _ _ _ pos unjudged)

theorem addTransition_unjudged (e : Edge) (pos : Position) (unjudged : d.Unjudged) :
    (addTransition cx e pos d).Unjudged := by
  have told := resolve_unjudged cx.stateEnum e.target
    (resolve_unjudged cx.triggerEnum e.trigger (resolve_unjudged cx.stateEnum e.source unjudged))
  simp only [addTransition]
  split
  · exact register_unjudged e _ _ _ pos told
  · exact told

theorem addState_unjudged (a : StateArguments) (pos : Position) (unjudged : d.Unjudged) :
    (addState cx a pos d).Unjudged := by
  have told := resolve_unjudged cx.stateEnum a.state unjudged
  unfold addState
  split
  · next resolved =>
      rw [resolved] at told
      exact told
  · next resolved =>
      rw [resolved] at told
      exact callback?_unjudged _ _ _ pos (callback?_unjudged _ _ _ pos told)

theorem addDeclaration_unjudged (e : Declared MachineDeclaration) (unjudged : d.Unjudged) :
    (addDeclaration cx d e).Unjudged := by
  obtain ⟨value, pos⟩ := e
  cases value with
  | transition a => exact addTransition_unjudged _ pos unjudged
  | internal a => exact addTransition_unjudged _ pos unjudged
  | state a => exact addState_unjudged a pos unjudged
  | machine | payload => exact unjudged

theorem checkTokens_unjudged (unjudged : d.Unjudged) : (checkTokens d).Unjudged :=
  List.foldlRecOn (motive := Draft.Unjudged) _ _ unjudged fun _ told u _ =>
    tell_unjudged told (Check.tokenParameter_elsewhere _ _ _ _) u.pos

end Build

namespace MachineDeclaration

variable (states : EnumFacts)

def parentOf? (state : String) : MachineDeclaration → Option String
  | .state a =>
    if (states.resolve? a.state).map EnumMember.name = some state then
      a.parent.bind fun r => (states.resolve? r).map EnumMember.name
    else none
  | _ => none

def Remembers (state : String) : MachineDeclaration → Prop
  | .state a =>
    (states.resolve? a.state).map EnumMember.name = some state ∧ a.history ≠ .none
  | _ => False

end MachineDeclaration

namespace Build

variable {cx : Setting} {d : Draft} {declarations : List (Declared MachineDeclaration)}

/-- The parent of a state: the first one declared for it that resolves. -/
def parentOf? (states : EnumFacts) (declarations : List (Declared MachineDeclaration))
    (state : String) : Option String :=
  declarations.findSome? fun e => e.value.parentOf? states state

def Remembers (states : EnumFacts) (declarations : List (Declared MachineDeclaration))
    (state : String) : Prop :=
  ∃ e ∈ declarations, e.value.Remembers states state

theorem parentOf?_concat (states : EnumFacts) (e : Declared MachineDeclaration) (state : String) :
    parentOf? states (declarations ++ [e]) state =
      (parentOf? states declarations state).or (e.value.parentOf? states state) := by
  simp [parentOf?, List.findSome?_append]

theorem remembers_concat (states : EnumFacts) (e : Declared MachineDeclaration) (state : String) :
    Remembers states (declarations ++ [e]) state ↔
      Remembers states declarations state ∨ e.value.Remembers states state := by
  simp [Remembers, or_and_right, exists_or]

theorem find?_updateState {name : String} {change : StateModel → StateModel}
    (keeps : ∀ s, (change s).name = s.name) (states : List StateModel) (other : String) :
    (updateState name change states).find? (·.name == other) =
      (states.find? (·.name == other)).map fun s => if name = other then change s else s := by
  induction states with
  | nil => rfl
  | cons s rest ih =>
      by_cases here : s.name = name
      · by_cases same : name = other <;> simp [updateState, here, same, keeps]
      · by_cases same : s.name = other
        · subst same
          simp [updateState, here, Ne.symm here]
        · simp [updateState, here, same, ih]

theorem find?_first {Bare : StateModel → Prop} {states : List StateModel}
    (first : states.Pairwise fun s t => s.name = t.name → Bare t) {s : StateModel}
    (member : s ∈ states) (full : ¬Bare s) : states.find? (·.name == s.name) = some s := by
  induction states with
  | nil => cases member
  | cons t rest ih =>
      obtain ⟨here, later⟩ := List.pairwise_cons.mp first
      rcases List.mem_cons.mp member with rfl | inside
      · simp
      · have other : t.name ≠ s.name := fun same => full (here s inside same)
        rw [List.find?_cons_of_neg (by simpa using other)]
        exact ih later inside

/-- The first state of a name has the parent and the history that are declared for it, and later
ones have no history. -/
structure Draft.Recounts (d : Draft) (cx : Setting)
    (declarations : List (Declared MachineDeclaration)) : Prop where
  names : d.states.map StateModel.name = cx.stateEnum.members.map EnumMember.name
  parents : ∀ name, (d.states.find? (·.name == name)).bind StateModel.parent =
    parentOf? cx.stateEnum declarations name
  histories : ∀ name, (d.states.find? (·.name == name)).any (·.history ≠ .none) ↔
    Remembers cx.stateEnum declarations name
  firstRemembers : d.states.Pairwise fun s t => s.name = t.name → t.history = .none

theorem Draft.Recounts.mute (recounts : d.Recounts cx declarations)
    {e : Declared MachineDeclaration} {next : Draft} (states : next.states = d.states)
    (parentless : ∀ name, e.value.parentOf? cx.stateEnum name = none)
    (forgetful : ∀ name, ¬e.value.Remembers cx.stateEnum name) :
    next.Recounts cx (declarations ++ [e]) := by
  obtain ⟨names, parents, histories, firstRemembers⟩ := recounts
  refine ⟨states ▸ names, fun name => ?_, fun name => ?_, states ▸ firstRemembers⟩
  · rw [states, parents, parentOf?_concat, parentless, Option.or_none]
  · rw [states, histories, remembers_concat, or_iff_left (forgetful name)]

theorem addState_recounts (recounts : d.Recounts cx declarations) (a : StateArguments)
    (pos : Position) : (addState cx a pos d).Recounts cx (declarations ++ [⟨.state a, pos⟩]) := by
  cases known : cx.stateEnum.resolve? a.state with
  | none =>
      exact recounts.mute (addState_unknown pos d known).1.states
        (by simp [MachineDeclaration.parentOf?, known])
        (by simp [MachineDeclaration.Remembers, known])
  | some state =>
      obtain ⟨onEntry, onExit, d₂, carried, _, _, states⟩ := addState_known pos d known
      obtain ⟨names, parents, histories, firstRemembers⟩ := recounts
      rw [carried.states] at states
      obtain ⟨s, first⟩ : ∃ s, d.states.find? (·.name == state.name) = some s := by
        have listed : state.name ∈ d.states.map StateModel.name :=
          names ▸ List.mem_map_of_mem (resolve?_mem known)
        obtain ⟨s, member, same⟩ := List.mem_map.mp listed
        exact Option.isSome_iff_exists.mp (List.find?_isSome.mpr ⟨s, member, by simp [same]⟩)
      have keeps (parent : Option String) (s : StateModel) :
          (merge s onEntry onExit parent a).name = s.name := rfl
      constructor
      · rw [states, updateState_names state.name _ (keeps _), names]
      · intro name
        rw [states, find?_updateState (keeps _), parentOf?_concat, ← parents]
        by_cases here : state.name = name
        · subst here
          simp [MachineDeclaration.parentOf?, known, first, merge]
        · simp [MachineDeclaration.parentOf?, known, here]
      · intro name
        rw [states, find?_updateState (keeps _), remembers_concat, ← histories]
        by_cases here : state.name = name
        · subst here
          by_cases kept : s.history = .none <;>
            simp [MachineDeclaration.Remembers, known, first, merge, kept]
        · simp [MachineDeclaration.Remembers, known, here]
      · rw [states]
        exact updateState_first (keeps _) firstRemembers

theorem addDeclaration_recounts (recounts : d.Recounts cx declarations)
    (e : Declared MachineDeclaration) :
    (addDeclaration cx d e).Recounts cx (declarations ++ [e]) := by
  obtain ⟨value, pos⟩ := e
  cases value with
  | transition a =>
      have states := (addTransition_carried cx (.ofTransition a) pos d).1.states
      exact recounts.mute states (fun _ => rfl) fun _ => id
  | internal a =>
      have states := (addTransition_carried cx (.ofInternal a) pos d).1.states
      exact recounts.mute states (fun _ => rfl) fun _ => id
  | state a => exact addState_recounts recounts a pos
  | machine | payload => exact recounts.mute rfl (fun _ => rfl) fun _ => id

theorem draft_recounts (cx : Setting) (report : Report) :
    (draft cx report).Recounts cx cx.machine.declarations := by
  unfold draft
  extract_lets start
  have added (declarations : List (Declared MachineDeclaration)) :
      (declarations.foldl (addDeclaration cx) (declarePayloads cx start)).Recounts cx
        declarations := by
    induction declarations using List.reverseRecOn with
    | nil =>
        have bare : (declarePayloads cx start).states = start.states :=
          (declarePayloads_kept cx start).states
        refine ⟨by simp [bare, start], fun name => ?_, fun name => ?_, ?_⟩
        · simp [bare, start, List.find?_map, parentOf?]
        · simp [bare, start, List.find?_map, Option.any_map, Remembers]
        · rw [List.foldl_nil, bare]
          exact List.Pairwise.map _ (fun _ _ => id) (List.pairwise_of_forall fun _ _ _ => rfl)
    | append_singleton declarations e ih =>
        rw [List.foldl_append]
        exact addDeclaration_recounts ih e
  obtain ⟨names, parents, histories, firstRemembers⟩ := added cx.machine.declarations
  have states := (checks_told cx
    (cx.machine.declarations.foldl (addDeclaration cx) (declarePayloads cx start))).states
  constructor <;> rwa [states]

theorem nestingFindings_histories (d : Draft) (place : Finding → Position) :
    Report.shown (Report.histories
      ((nestingFindings d).map fun f => Diagnostic.ofOutcome (place f) f.outcome)) =
        (Check.idle (nestedStates d)).map fun name => (Finding.idleHistory name).shown := by
  let told (findings : List Finding) : Report :=
    findings.map fun f => Diagnostic.ofOutcome (place f) f.outcome
  have own : Report.histories (told (Check.historyOnLeaf (nestedStates d))) =
      told (Check.historyOnLeaf (nestedStates d)) := by
    refine List.filter_eq_self.mpr fun x said => ?_
    obtain ⟨f, found, rfl⟩ := List.mem_map.mp said
    rw [Check.historyOnLeaf_eq] at found
    obtain ⟨name, _, rfl⟩ := List.mem_map.mp found
    rfl
  have only : Report.histories (told (nestingFindings d)) =
      told (Check.historyOnLeaf (nestedStates d)) := by
    simp only [told, nestingFindings, List.map_append, Report.histories_append] at own ⊢
    rw [(Check.circularHierarchy_elsewhere _).unsaid, (Check.orphanSubstates_elsewhere _).unsaid,
      (Check.compositeEntry_elsewhere _).unsaid, (Check.compositeTargets_elsewhere _ _).unsaid, own]
    simp
  rw [only, Report.shown_findings, Check.historyOnLeaf_eq, List.map_map]
  rfl

theorem checkNesting_histories (cx : Setting) (unjudged : d.Unjudged) :
    Report.shown (checkNesting cx d).report.histories = if isNested cx (checkNesting cx d) then
      (Check.idle (nestedStates (checkNesting cx d))).map fun name =>
        (Finding.idleHistory name).shown else [] := by
  have before : d.report.histories = [] :=
    List.filter_eq_nil_iff.mpr fun x told same => unjudged x told (of_decide_eq_true same)
  unfold checkNesting
  split
  · next nested =>
      let found := located (locate? cx d.places) cx.machine.pos (nestingFindings d)
      have still : isNested cx { d with report := d.report ++ found } := nested
      rw [if_pos still, Report.histories_append, before, List.nil_append]
      exact nestingFindings_histories d _
  · rw [before]
    rfl

theorem draft_histories (cx : Setting) {report : Report}
    (unjudged : ∀ x ∈ report, x.rule ≠ .historyOnLeaf) :
    Report.shown (draft cx report).report.histories = if isNested cx (draft cx report) then
      (Check.idle (nestedStates (draft cx report))).map fun name =>
        (Finding.idleHistory name).shown else [] := by
  apply checkNesting_histories
  apply checkTokens_unjudged
  refine List.foldlRecOn (motive := Draft.Unjudged) _ _ ?_ fun d told e _ =>
    addDeclaration_unjudged e told
  exact declarePayloads_induction Draft.Unjudged unjudged fun onMethod p _ told =>
    declarePayload_unjudged onMethod p told

/-! ## States without substates -/

/-- The machine is taken for a nested one: it asks for that, or some state is given a parent, be it
one that there is or not. -/
def Setting.IsNested (cx : Setting) : Prop :=
  cx.primary.hierarchy ∨ ∃ state parent, cx.machine.Nests cx.stateEnum state parent ∨
    cx.machine.Orphans cx.stateEnum state parent

section Parent

variable {states : EnumFacts} {machine : MachineFacts} {state : String}

theorem parentOf?_nests {parent : String}
    (found : parentOf? states machine.declarations state = some parent) :
    machine.Nests states state parent := by
  obtain ⟨⟨value, pos⟩, declared, found⟩ := List.exists_of_findSome?_eq_some found
  cases value with
  | state a =>
      obtain ⟨known, found⟩ := Option.ite_none_right_eq_some.mp found
      obtain ⟨r, above, resolved⟩ := Option.bind_eq_some_iff.mp found
      exact ⟨a, pos, r, declared, known, above, resolved⟩
  | _ => cases found

theorem parentOf?_isSome :
    (parentOf? states machine.declarations state).isSome ↔
      ∃ parent, machine.Nests states state parent := by
  constructor
  · intro found
    obtain ⟨parent, found⟩ := Option.isSome_iff_exists.mp found
    exact ⟨parent, parentOf?_nests found⟩
  · rintro ⟨parent, a, pos, r, declared, known, above, resolved⟩
    refine List.findSome?_isSome_iff.mpr ⟨_, declared, ?_⟩
    simp [MachineDeclaration.parentOf?, known, above, resolved]

end Parent

section Idle

variable (cx : Setting) (report : Report)

theorem draft_parent {parent : String} : (∃ s ∈ (draft cx report).states, s.parent = some parent) ↔
    ∃ state, parentOf? cx.stateEnum cx.machine.declarations state = some parent := by
  obtain ⟨_, parents, _, _⟩ := draft_recounts cx report
  constructor
  · rintro ⟨s, member, above⟩
    have first := find?_first (draft_orderly cx report).firstNested member (by simp [above])
    exact ⟨s.name, by rw [← parents, first]; exact above⟩
  · rintro ⟨state, declared⟩
    rw [← parents] at declared
    obtain ⟨s, found, above⟩ := Option.bind_eq_some_iff.mp declared
    exact ⟨s, List.mem_of_find?_eq_some found, above⟩

theorem isNested_iff : isNested cx (draft cx report) ↔ cx.IsNested := by
  have orphans : (draft cx report).orphans.isEmpty = false ↔
      ∃ state parent, cx.machine.Orphans cx.stateEnum state parent := by
    rw [draft_orphans, List.isEmpty_eq_false_iff_exists_mem]
    simp only [Prod.exists, MachineFacts.mem_orphanTexts]
  have parents : (draft cx report).states.any (·.parent.isSome) ↔
      ∃ state parent, cx.machine.Nests cx.stateEnum state parent := by
    calc (draft cx report).states.any (·.parent.isSome) = true
      _ ↔ ∃ parent, ∃ s ∈ (draft cx report).states, s.parent = some parent := by
        simp only [List.any_eq_true, Option.isSome_iff_exists]
        exact ⟨fun ⟨s, inside, p, above⟩ => ⟨p, s, inside, above⟩,
          fun ⟨p, s, inside, above⟩ => ⟨s, inside, p, above⟩⟩
      _ ↔ ∃ state, (parentOf? cx.stateEnum cx.machine.declarations state).isSome := by
        simp only [draft_parent, Option.isSome_iff_exists]
        exact exists_comm
      _ ↔ ∃ state parent, cx.machine.Nests cx.stateEnum state parent := by
        simp only [parentOf?_isSome]
  simp only [isNested, Bool.or_eq_true, Bool.not_eq_true', orphans, parents, Setting.IsNested,
    exists_or]
  exact or_right_comm.trans or_assoc

theorem draft_history {state : String} :
    (∃ s ∈ (draft cx report).states, s.name = state ∧ s.history ≠ .none) ↔
      Remembers cx.stateEnum cx.machine.declarations state := by
  obtain ⟨_, _, histories, firstRemembers⟩ := draft_recounts cx report
  rw [← histories]
  constructor
  · rintro ⟨s, member, rfl, remembers⟩
    rw [find?_first firstRemembers member remembers]
    simpa using remembers
  · intro remembers
    obtain ⟨s, found, remembers⟩ := (Option.any_eq_true _ _).mp remembers
    exact ⟨s, List.mem_of_find?_eq_some found, by simpa using List.find?_some found,
      by simpa using remembers⟩

theorem mem_idle {name : String} : name ∈ Check.idle (nestedStates (draft cx report)) ↔
    Remembers cx.stateEnum cx.machine.declarations name ∧
      ¬Check.isComposite (nestedStates (draft cx report)) name := by
  rw [← draft_history cx report, Check.idle, List.mem_map]
  constructor
  · rintro ⟨nested, member, rfl⟩
    obtain ⟨member, idle⟩ := List.mem_filter.mp member
    rw [nestedStates_eq] at member
    obtain ⟨s, inside, rfl⟩ := List.mem_map.mp member
    simp only [Bool.and_eq_true, decide_eq_true_eq, Bool.not_eq_true'] at idle
    exact ⟨⟨s, inside, rfl, idle.1⟩, by simp [idle.2]⟩
  · rintro ⟨⟨s, inside, rfl, remembers⟩, leaf⟩
    have listed : nestedState (draft cx report) s ∈ nestedStates (draft cx report) :=
      List.mem_map_of_mem inside
    exact ⟨_, List.mem_filter.mpr ⟨listed, by simpa [nestedState, remembers] using leaf⟩, rfl⟩

theorem idle_nodup : (Check.idle (nestedStates (draft cx report))).Nodup := by
  obtain ⟨_, _, _, firstRemembers⟩ := draft_recounts cx report
  rw [Check.idle, nestedStates_eq, List.filter_map, List.map_map]
  refine List.pairwise_map.mpr (List.pairwise_filter.mpr ?_)
  refine firstRemembers.imp fun {s t} bare _ idle same => ?_
  have forgetful : (nestedState (draft cx report) t).history = .none := bare same
  simp [forgetful] at idle

theorem isComposite_cases {parent : String}
    (composite : Check.isComposite (nestedStates (draft cx report)) parent) :
    (∃ state, parentOf? cx.stateEnum cx.machine.declarations state = some parent) ∨
      ∃ state, cx.machine.Orphans cx.stateEnum state parent := by
  obtain ⟨s, inside, above⟩ := isComposite_iff.mp composite
  rcases Option.or_eq_some_iff.mp above with parent | ⟨_, text⟩
  · exact .inl ((draft_parent cx report).mp ⟨s, inside, parent⟩)
  · have orphan := Draft.orphanText?_mem text
    rw [draft_orphans] at orphan
    exact .inr ⟨s.name, MachineFacts.mem_orphanTexts.mp orphan⟩

theorem isComposite_of_parent {state parent : String}
    (below : parentOf? cx.stateEnum cx.machine.declarations state = some parent) :
    Check.isComposite (nestedStates (draft cx report)) parent := by
  obtain ⟨s, inside, above⟩ := (draft_parent cx report).mpr ⟨state, below⟩
  exact isComposite_iff.mpr ⟨s, inside, by simp [above]⟩

end Idle

end Build

/-! ## The whole machine -/

namespace MachineFacts

open Build

theorem opening_unjudged (machine : MachineFacts) (primary : Declared MachineArguments) :
    ∀ x ∈ machine.opening primary, x.rule ≠ .historyOnLeaf := by
  unfold opening
  split
  · simp [Diagnostic.ofOutcome, Finding.outcome, Finding.rule]
  · simp

/-- In a machine that is taken for a nested one a history is warned about, once and by name, if its
state has no substates; the warning can be missing only where the text of a parent that resolves to
nothing reads like the state. In other machines no history is warned about. -/
theorem histories_without_effect {machine : MachineFacts} {facts : ModuleFacts} {cx : Setting}
    (set : machine.setting? facts = some cx) :
    ∃ names : List String, names.Nodup ∧
      Report.shown (machine.build facts).2.histories =
        names.map (fun name => (Finding.idleHistory name).shown) ∧
      (∀ name ∈ names, cx.IsNested ∧ Remembers cx.stateEnum machine.declarations name ∧
        ∀ state, parentOf? cx.stateEnum machine.declarations state ≠ some name) ∧
      (cx.IsNested → ∀ name, Remembers cx.stateEnum machine.declarations name →
        (∀ state, parentOf? cx.stateEnum machine.declarations state ≠ some name) →
          (∀ state, ¬machine.Orphans cx.stateEnum state name) → name ∈ names) := by
  obtain ⟨extensible, primary, states, triggers, declared, known, rfl⟩ := setting?_eq_some.mp set
  let cx : Setting := ⟨machine, facts, states, triggers, primary.value⟩
  let d := draft cx (machine.opening primary)
  have built : machine.build facts = cx.outcome d := build_known declared extensible known
  have told : Report.shown (machine.build facts).2.histories = if isNested cx d then
      (Check.idle (nestedStates d)).map fun name => (Finding.idleHistory name).shown else [] := by
    have unreached : Report.histories
        (located (locate? cx d.places) cx.machine.pos (finish cx d).unreachable) = [] :=
      (Check.unreachableStates_elsewhere _ _ _).unsaid _
    rw [built, Setting.outcome, Report.histories_append, unreached, List.append_nil]
    exact draft_histories cx (machine.opening_unjudged primary)
  have taken : isNested cx d ↔ cx.IsNested := isNested_iff cx (machine.opening primary)
  by_cases nested : cx.IsNested
  · rw [if_pos (taken.mpr nested)] at told
    refine ⟨_, idle_nodup cx (machine.opening primary), told, fun name idle => ?_, ?_⟩
    · obtain ⟨remembers, leaf⟩ := (mem_idle cx (machine.opening primary)).mp idle
      exact ⟨nested, remembers, fun state below => leaf (isComposite_of_parent cx _ below)⟩
    · intro _ name remembers childless unread
      refine (mem_idle cx (machine.opening primary)).mpr ⟨remembers, fun composite => ?_⟩
      rcases isComposite_cases cx _ composite with ⟨state, below⟩ | ⟨state, orphan⟩
      · exact childless state below
      · exact unread state orphan
  · rw [if_neg (mt taken.mp nested)] at told
    exact ⟨[], List.nodup_nil, told, by simp, fun also => absurd also nested⟩

end MachineFacts

section Porch

def attentive : StateArguments := { state := porchReference "Off", history := .deep }

def porchSetting : Build.Setting where
  machine := porchFacts (.state attentive)
  facts := porchModule
  stateEnum := porchStates
  triggerEnum := porchTriggers
  primary := { state := some (.word "State"), trigger := some (.word "Trigger") }

theorem porch_history_told :
    (porchFacts (.state attentive)).setting? porchModule = some porchSetting ∧
      Report.shown ((porchFacts (.state attentive)).build porchModule).2.histories =
        [(Finding.idleHistory "Off").shown] := by
  have set : (porchFacts (.state attentive)).setting? porchModule = some porchSetting := rfl
  obtain ⟨names, distinct, told, only, all⟩ := MachineFacts.histories_without_effect set
  have off {name : String} (remembers : Build.Remembers porchSetting.stateEnum
      (porchFacts (.state attentive)).declarations name) : name = "Off" := by
    have declared : (porchStates.resolve? (porchReference "Off")).map EnumMember.name =
        some name := by
      simpa [Build.Remembers, porchFacts, MachineDeclaration.Remembers, attentive, porchSetting]
        using remembers
    exact (Option.some.inj declared).symm
  have nested : porchSetting.IsNested := by
    refine .inr ⟨"Low", "On", .inl ⟨{ state := porchReference "Low"
                                      parent := some (porchReference "On")
                                      initial := true }, ⟨1, 0⟩, porchReference "On", ?_⟩⟩
    exact ⟨by simp [porchSetting, porchFacts], rfl, rfl, rfl⟩
  have remembered : Build.Remembers porchSetting.stateEnum
      (porchFacts (.state attentive)).declarations "Off" :=
    ⟨⟨.state attentive, ⟨1, 0⟩⟩, by simp [porchFacts], rfl, by simp [attentive]⟩
  have childless (state : String) : Build.parentOf? porchSetting.stateEnum
      (porchFacts (.state attentive)).declarations state ≠ some "Off" := by
    intro below
    obtain ⟨a, pos, r, declared, _, above, resolved⟩ := Build.parentOf?_nests below
    have parents : a.parent = some (porchReference "On") ∨ a.parent = none := by
      have listed : ({ state := porchReference "Low", parent := some (porchReference "On")
                       initial := true } = a ∧ ⟨1, 0⟩ = pos) ∨ attentive = a ∧ ⟨1, 0⟩ = pos := by
        simpa [porchFacts, eq_comm] using declared
      rcases listed with ⟨rfl, _⟩ | ⟨rfl, _⟩
      · exact .inl rfl
      · exact .inr rfl
    rcases parents with on | none
    · obtain rfl := Option.some.inj (above.symm.trans on)
      exact absurd resolved (by decide)
    · cases above.symm.trans none
  have unread (state : String) : ¬(porchFacts (.state attentive)).Orphans porchSetting.stateEnum
      state "Off" := by
    rw [← MachineFacts.mem_orphanTexts]
    have none : (porchFacts (.state attentive)).orphanTexts porchSetting.stateEnum = [] := rfl
    simp [none]
  have listed := all nested "Off" remembered childless unread
  have single : names = ["Off"] := by
    rw [List.eq_replicate_of_mem fun name member => off (only name member).2.1] at distinct listed ⊢
    have some : 0 < names.length := List.length_pos_iff.mpr (by simpa using listed)
    rw [le_antisymm (List.nodup_replicate.mp distinct) some]
    rfl
  exact ⟨set, by rw [told, single]; rfl⟩

end Porch

section Desk

def deskStates : EnumFacts := ⟨"State", ["Off", "On"].map porchMember⟩

def deskModule : ModuleFacts where
  name := "desk"
  enums := [deskStates, porchTriggers]

def deskLamp : MachineFacts where
  name := "Lamp"
  pos := ⟨1, 0⟩
  generics := {}
  fields := .unit
  itemIndex := 0
  malformed := false
  declarations :=
    [⟨.machine { state := some (.word "State"), trigger := some (.word "Trigger") }, ⟨1, 0⟩⟩,
     ⟨.state { state := porchReference "On", history := .deep }, ⟨1, 0⟩⟩,
     ⟨.transition ⟨porchReference "Off", porchReference "Power", porchReference "On", none, none⟩,
       ⟨1, 0⟩⟩,
     ⟨.transition ⟨porchReference "On", porchReference "Power", porchReference "Off", none, none⟩,
       ⟨1, 0⟩⟩]

theorem desk_history_untold :
    (∃ cx, deskLamp.setting? deskModule = some cx ∧ cx.stateEnum = deskStates) ∧
      Build.Remembers deskStates deskLamp.declarations "On" ∧
      (∀ state, Build.parentOf? deskStates deskLamp.declarations state ≠ some "On") ∧
      (deskLamp.build deskModule).2 = [] := by
  refine ⟨⟨_, rfl, rfl⟩, ?_, fun state below => ?_, rfl⟩
  · exact ⟨⟨.state { state := porchReference "On", history := .deep }, ⟨1, 0⟩⟩,
      by simp [deskLamp], rfl, by simp⟩
  · obtain ⟨a, pos, r, declared, _, above, _⟩ := Build.parentOf?_nests below
    have only : a = { state := porchReference "On", history := .deep } ∧ pos = ⟨1, 0⟩ := by
      simpa [deskLamp] using declared
    rw [only.1] at above
    cases above

end Desk

end Statewright
