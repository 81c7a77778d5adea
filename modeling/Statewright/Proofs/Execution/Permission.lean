import Statewright.Proofs.Build.Transitions
import Statewright.Proofs.Emit.Arms
import Statewright.Proofs.Execution.Foresight
import Statewright.Proofs.Execution.Selection

/-!
# Permission

The triggers that would be taken now are found by other code than the answer for a single trigger,
and so are the triggers that are declared for a state. All of them agree: sorted by their places in
the enum, the triggers of each list are just those that have a candidate, or one that allows it.
-/

namespace Statewright

theorem eraseDups_increasing (names : List String) :
    names.eraseDups.Pairwise fun a b => names.idxOf a < names.idxOf b := by
  induction names using List.reverseRecOn with
  | nil => exact List.Pairwise.nil
  | append_singleton names name ih =>
      have stays {a : String} (kept : a ∈ names.eraseDups) :
          (names ++ [name]).idxOf a = names.idxOf a :=
        List.idxOf_append_of_mem (List.mem_eraseDups.mp kept)
      have known : names.eraseDups.Pairwise fun a b =>
          (names ++ [name]).idxOf a < (names ++ [name]).idxOf b :=
        ih.imp_of_mem fun left right before => by rwa [stays left, stays right]
      rw [List.eraseDups, eraseDupsBy_concat]
      split
      · exact known
      · next fresh =>
          refine List.pairwise_append.mpr
            ⟨known, List.pairwise_singleton _ _, fun a left b new => ?_⟩
          obtain rfl := List.mem_singleton.mp new
          have apart : b ∉ names := fun again =>
            fresh (List.any_eq_true.mpr ⟨b, List.mem_eraseDups.mpr again, BEq.rfl⟩)
          rw [stays left, List.idxOf_append_of_notMem apart]
          exact Nat.lt_add_right _ (List.idxOf_lt_length_of_mem (List.mem_eraseDups.mp left))

theorem nodup_eraseDups (names : List String) : names.eraseDups.Nodup :=
  (eraseDups_increasing names).imp fun {a b} before (same : a = b) =>
    Nat.ne_of_lt before (congrArg names.idxOf same)

/-- Where no key occurs twice there is only one sorted order. -/
theorem sortedOn_eq {α : Type} {key : α → Nat} {entries sorted : List α}
    (same : entries.Perm sorted) (increasing : sorted.Pairwise fun a b => key a < key b) :
    sortedOn key entries = sorted := by
  have perm : (sortedOn key entries).Perm sorted := (List.mergeSort_perm entries _).trans same
  have keys : (sorted.map key).Nodup :=
    List.pairwise_map.mpr (increasing.imp fun before => Nat.ne_of_lt before)
  have ordered : (sortedOn key entries).Pairwise fun a b => key a ≤ key b := by
    have pairs : (sortedOn key entries).Pairwise fun a b => decide (key a ≤ key b) :=
      List.pairwise_mergeSort (fun a b c => by simpa using Nat.le_trans)
        (fun a b => by simpa using Nat.le_total _ _) entries
    exact pairs.imp of_decide_eq_true
  refine List.Perm.eq_of_pairwise (fun a b left right before after => ?_) ordered
    (increasing.imp Nat.le_of_lt) perm
  exact List.inj_on_of_nodup_map keys (perm.mem_iff.mp left) right (Nat.le_antisymm before after)

theorem Model.mem_handledTriggers {m : Model} {state trigger : String} :
    trigger ∈ m.handledTriggers state ↔ m.candidatesOn state trigger ≠ [] := by
  simp [handledTriggers, candidatesOn, List.mem_eraseDups, List.filter_eq_nil_iff]

theorem Model.triggerIndex?_of_mem {m : Model} {trigger : String} (listed : trigger ∈ m.triggers) :
    m.triggerIndex? trigger = some (m.triggers.idxOf trigger) :=
  List.findIdx?_eq_some_of_exists ⟨trigger, listed, BEq.rfl⟩

theorem MachineFacts.build_triggers {machine : MachineFacts} {facts : ModuleFacts} {m : Model}
    (built : (machine.build facts).1 = some m) : ∃ states triggers,
      machine.enums? facts = some (states, triggers) ∧
        m.triggers = triggers.members.map EnumMember.name := by
  rcases machine.build_cases facts with
    ⟨stopped, _⟩ | ⟨cx, report, unreached, _, _, known, outcome⟩
  · simp [stopped] at built
  · refine ⟨cx.stateEnum, cx.triggerEnum, known, ?_⟩
    rw [outcome] at built
    split at built
    · cases built
    · obtain rfl := Option.some.inj built
      rfl

namespace Emission

open Execution

variable {e : Emission} (accepted : e.Accepted)
include accepted

theorem handledTriggers_perm (state : String) :
    (e.model.handledTriggers state).Perm
      (e.model.triggers.eraseDups.filter fun t => e.model.candidatesOn state t ≠ []) := by
  have handledOnce : (e.model.handledTriggers state).Nodup := nodup_eraseDups _
  refine (List.perm_ext_iff_of_nodup handledOnce ((nodup_eraseDups _).filter _)).mpr
    fun trigger => ?_
  rw [Model.mem_handledTriggers, List.mem_filter, decide_eq_true_iff]
  refine ⟨fun handled => ⟨?_, handled⟩, And.right⟩
  obtain ⟨t, candidate⟩ := List.exists_mem_of_ne_nil _ handled
  obtain ⟨registered, _, rfl⟩ := candidate_registered accepted candidate
  exact List.mem_eraseDups.mpr (accepted.fired t registered)

/-- Every trigger that a state handles is declared, so any key that grows with the position in the
enum sorts alike. -/
theorem sortedOn_handledTriggers {key : String → Nat} (shift : Nat)
    (grows : ∀ t ∈ e.model.triggers, key t = e.model.triggers.idxOf t + shift) (state : String) :
    sortedOn key (e.model.handledTriggers state) =
      e.model.triggers.eraseDups.filter fun t => e.model.candidatesOn state t ≠ [] := by
  refine sortedOn_eq (handledTriggers_perm accepted state) (List.Pairwise.filter _ ?_)
  refine (eraseDups_increasing e.model.triggers).imp_of_mem fun {a b} left right before => ?_
  rw [grows a (List.mem_eraseDups.mp left), grows b (List.mem_eraseDups.mp right)]
  exact Nat.add_lt_add_right before shift

theorem definedTriggers_eq (state : String) :
    e.model.definedTriggers state =
      e.model.triggers.eraseDups.filter fun t => e.model.candidatesOn state t ≠ [] := by
  refine sortedOn_handledTriggers accepted 1 (fun t listed => ?_) state
  rw [Model.triggerIndex?_of_mem listed, Option.elim_some]

theorem sortedTriggers_eq (state : String) :
    e.model.sortedTriggers state = e.model.definedTriggers state := by
  rw [definedTriggers_eq accepted]
  refine sortedOn_handledTriggers accepted 0 (fun t listed => ?_) state
  rw [Model.triggerIndex?_of_mem listed, Option.getD_some, Nat.add_zero]

theorem mem_definedTriggers {state trigger : String} :
    trigger ∈ e.model.definedTriggers state ↔
      ∃ t ∈ e.model.transitions, t.trigger = trigger ∧ t.source ∈ levels e state := by
  rw [definedTriggers_eq accepted, List.mem_filter, decide_eq_true_iff]
  constructor
  · rintro ⟨_, handled⟩
    obtain ⟨t, candidate⟩ := List.exists_mem_of_ne_nil _ handled
    obtain ⟨registered, level, fires⟩ := candidate_registered accepted candidate
    exact ⟨t, registered, fires, level⟩
  · rintro ⟨t, registered, rfl, level⟩
    refine ⟨List.mem_eraseDups.mpr (accepted.fired t registered), List.ne_nil_of_mem (a := t) ?_⟩
    exact (candidate_iff accepted state t.trigger t).mpr ⟨registered, level, rfl⟩

end Emission

/-! ## Code that lists triggers -/

namespace Emission

open Emit

variable (e : Emission)

def permittedTable (state : String) : Code :=
  e.tableArm (e.statePath state) ("__PERMITTED_" ++ Text.withoutMark state)
    ((e.model.definedTriggers state).map e.triggerPath)

variable {e}

theorem infix_piece {c piece : Code} (inside : c <:+: piece) (before after : List Code) :
    c <:+: code (before ++ piece :: after) :=
  inside.trans (infix_code (List.mem_append_right _ List.mem_cons_self))

theorem infix_body {c piece : Code} (inside : c <:+: piece) (before after : List Code) :
    c <:+: braces (code (before ++ piece :: after)) :=
  (infix_piece inside before after).trans (infix_braces _)

theorem infix_punctuated {c : Code} {entries : List Code} (entry : c ∈ entries) (separator : Code)
    (trailing : Bool) : c <:+: punctuated separator trailing entries := by
  induction entries with
  | nil => cases entry
  | cons first rest ih =>
      rcases List.mem_cons.mp entry with rfl | later
      · cases rest with
        | nil =>
            cases trailing
            · exact List.infix_refl _
            · exact (List.prefix_append _ _).isInfix
        | cons next rest =>
            exact (List.prefix_append c separator).isInfix.trans (List.prefix_append _ _).isInfix
      · cases rest with
        | nil => cases later
        | cons next rest => exact (ih later).trans (List.suffix_append _ _).isInfix

theorem methods_emitted {feature : Feature} (offered : feature ∈ e.features) :
    e.methods feature <:+: e.items := by
  have all : e.methods feature <:+: braces (e.features.flatMap e.methods) :=
    (infix_flatMap offered e.methods).trans (infix_braces _)
  exact infix_piece (infix_body all [_, _, _, _] _) [_, _, _] _

theorem permittedTriggers_emitted : e.permittedTriggers <:+: e.items :=
  .trans (infix_piece (List.infix_refl _) [_, _] _)
    (methods_emitted (show Feature.queries ∈ e.features by simp [features]))

theorem structuralMethods_emitted (offered : e.model.config.structuralApi) :
    e.structuralMethods <:+: e.items :=
  methods_emitted (show Feature.structural ∈ e.features by simp [features, offered])

section State

variable {s : StateModel} (state : s ∈ e.model.states)
include state

theorem permittedArm_emitted : e.permittedArm s.name <:+: e.permittedTriggers := by
  have arm : e.permittedArm s.name <:+: e.model.states.flatMap fun s => e.permittedArm s.name :=
    infix_flatMap state fun s => e.permittedArm s.name
  exact infix_piece (infix_body (infix_body arm [] _) [_, _, _] _) [_, _, _, _, _, _, _, _] _

variable (handles : e.model.definedTriggers s.name ≠ [])
include handles

theorem mem_handling : s ∈ e.handling := List.mem_filter.mpr ⟨state, by simpa using handles⟩

theorem definedTable_emitted : e.definedTable s.name <:+: e.structuralMethods := by
  have arm := infix_flatMap (mem_handling state handles) fun s => e.definedTable s.name
  exact infix_piece (infix_body (infix_body arm [] _) [_, _] _)
    [_, _, _, _, _, _, _, _, _, _, _, _, _] []

theorem definedPattern_emitted : e.definedPattern s.name <:+: e.structuralMethods := by
  have pattern := List.mem_map_of_mem (f := fun s => e.definedPattern s.name)
    (mem_handling state handles)
  have tested : e.definedPattern s.name <:+: e.transitionTest := by
    rw [transitionTest, if_neg (by simpa using List.ne_nil_of_mem pattern)]
    have listed := infix_punctuated pattern (symbol '|') false
    exact infix_piece ((infix_piece listed [_, _] []).trans (List.infix_append [_] _ [_])) [_] []
  exact infix_piece (tested.trans (infix_braces _)) [_, _, _, _, _, _] _

end State

/-- The code for a state lists the triggers declared for it, as a constant or one by one where some
may be refused. -/
structure Lists (e : Emission) (state : String) : Prop where
  arm : e.permittedArm state <:+: e.permittedTriggers
  constant : e.model.definedTriggers state ≠ [] →
    (∀ t ∈ e.model.definedTriggers state, anyUnguarded (e.model.candidatesOn state t)) →
      e.permittedArm state = e.permittedTable state
  pushed : (∃ t ∈ e.model.definedTriggers state, !anyUnguarded (e.model.candidatesOn state t)) →
    (e.model.definedTriggers state).flatMap (e.pushPermitted state) <:+: e.permittedArm state
  table : e.model.definedTriggers state ≠ [] → e.definedTable state <:+: e.structuralMethods
  pattern : e.model.definedTriggers state ≠ [] → e.definedPattern state <:+: e.structuralMethods

theorem lists (accepted : e.Accepted) {s : StateModel} (state : s ∈ e.model.states) :
    e.Lists s.name := by
  refine
    { arm := permittedArm_emitted state, constant := fun handles free => ?_
      pushed := fun ⟨t, handled, guarded⟩ => ?_, table := definedTable_emitted state
      pattern := definedPattern_emitted state }
  · rw [← List.all_eq_true] at free
    simp [permittedArm, sortedTriggers_eq accepted, handles, free, permittedTable]
  · have handles := List.ne_nil_of_mem handled
    have some_ : (e.model.definedTriggers s.name).all
        (fun t => anyUnguarded (e.model.candidatesOn s.name t)) = false :=
      List.all_eq_false.mpr ⟨t, handled, by simpa using guarded⟩
    simp only [permittedArm, sortedTriggers_eq accepted, some_]
    rw [if_neg (by simpa using handles), if_neg (by decide)]
    exact infix_piece (infix_body (List.infix_refl _) [_, _, _, _] _) [_, _] []

end Emission

/-! ## Asking for all triggers -/

namespace Execution

variable {σ υ ω : Type} {h : Host σ υ ω} {e : Emission}

theorem anyUnguarded_permits {candidates : List Transition} (free : anyUnguarded candidates)
    (payload : Option υ) (data : σ) : candidates.any (h.permits payload data) = true := by
  obtain ⟨t, listed, unguarded⟩ := List.any_eq_true.mp free
  have unasked : t.guard = none := by simpa using unguarded
  exact List.any_eq_true.mpr ⟨t, listed, by simp [Host.permits, Host.verdict, unasked]⟩

section Known

variable {state : String} (known : state ∈ e.model.states.map StateModel.name)
include known

theorem listedTriggers_eq : listedTriggers e state = e.model.definedTriggers state := by
  unfold listedTriggers
  split
  · next s found =>
      have named : s.name = state := by simpa using List.find?_some found
      rw [named]
  · next missing =>
      obtain ⟨s, declared, rfl⟩ := List.mem_map.mp known
      by_contra handles
      have listed := Emission.mem_handling declared (Ne.symm handles)
      exact List.find?_eq_none.mp missing s listed BEq.rfl

theorem matchesPattern_iff {trigger : String} :
    matchesPattern e state trigger ↔ trigger ∈ e.model.definedTriggers state := by
  rw [matchesPattern, List.any_eq_true]
  constructor
  · rintro ⟨s, _, matched⟩
    obtain ⟨named, contained⟩ := (Bool.and_eq_true _ _).mp matched
    exact eq_of_beq named ▸ List.contains_iff_mem.mp contained
  · intro handled
    obtain ⟨s, declared, rfl⟩ := List.mem_map.mp known
    refine ⟨s, Emission.mem_handling declared (List.ne_nil_of_mem handled), ?_⟩
    simpa using handled

end Known

theorem permittedAmong_unguarded {state : String} {triggers : List String}
    (free : ∀ t ∈ triggers, anyUnguarded (e.model.candidatesOn state t)) (m : Machine σ ω) :
    permittedAmong e h state triggers m = (triggers, m, []) := by
  induction triggers with
  | nil => rfl
  | cons trigger rest ih =>
      obtain ⟨here, later⟩ := List.forall_mem_cons.mp free
      simp only [permittedAmong, here, reduceIte, Run.bind_apply, Run.pure_apply, ih later]
      rfl

section Discreet

variable (accepted : e.Accepted) (discreet : ∀ t ∈ e.model.transitions, h.Discreet t)
include accepted discreet

theorem candidates_discreet (state trigger : String) :
    ∀ t ∈ e.model.candidatesOn state trigger, h.Discreet t :=
  fun t candidate => discreet t (candidate_registered accepted candidate).1

theorem permittedAmong_discreet (m : Machine σ ω) (triggers : List String) :
    ∃ asked, permittedAmong e h m.state triggers m =
      (triggers.filter fun t => (e.model.candidatesOn m.state t).any (h.permits none m.data), m,
        asked) := by
  induction triggers with
  | nil => exact ⟨[], rfl⟩
  | cons trigger rest ih =>
      obtain ⟨more, later⟩ := ih
      obtain ⟨asked, here⟩ :=
        any_discreet none (candidates_discreet accepted discreet m.state trigger) m
      cases free : anyUnguarded (e.model.candidatesOn m.state trigger) with
      | true =>
          refine ⟨[] ++ (more ++ []), ?_⟩
          simp only [permittedAmong, free, reduceIte, Run.bind_apply, Run.pure_apply, later,
            List.filter_cons, anyUnguarded_permits free]
      | false =>
          refine ⟨asked ++ (more ++ []), ?_⟩
          simp only [permittedAmong, free, Bool.false_eq_true, reduceIte, Run.bind_apply,
            Run.pure_apply, any_consulted, here, later, List.filter_cons]

theorem canFire_discreet (m : Machine σ ω) (trigger : String) :
    ∃ asked, canFire e h trigger none m =
      ((e.model.candidatesOn m.state trigger).any (h.permits none m.data), m, asked) := by
  obtain ⟨asked, asking⟩ :=
    any_discreet none (candidates_discreet accepted discreet m.state trigger) m
  have unseen : visible e (none : Option υ) = none := by simp [visible]
  refine ⟨[] ++ asked, ?_⟩
  simp only [canFire, unseen, passes, reduceIte, Run.bind_apply, Run.read, any_consulted, asking]

end Discreet

/-- The triggers that would be taken are the ones for which the single question says so, those that
are declared are the ones with a candidate, and what is emitted lists the latter in the same
order. -/
theorem permitted_exactly (accepted : e.Accepted) {m : Machine σ ω} (reachable : Reachable e h m)
    (discreet : ∀ t ∈ e.model.transitions, h.Discreet t) :
    let permitted := permittedTriggers e h m
    let defined := definedTriggers e m
    (∀ machine facts, (MachineFacts.build machine facts).1 = some e.model → ∃ states triggers,
      machine.enums? facts = some (states, triggers) ∧
        e.model.triggers = triggers.members.map EnumMember.name) ∧
    permitted.1 = e.model.triggers.eraseDups.filter (fun t => (canFire e h t none m).1) ∧
    permitted.2.1 = m ∧ (∀ t, (canFire e h t none m).2.1 = m) ∧
    defined = e.model.triggers.eraseDups.filter (fun t => e.model.candidatesOn m.state t ≠ []) ∧
    (∀ t, t ∈ defined ↔
      ∃ edge ∈ e.model.transitions, edge.trigger = t ∧ edge.source ∈ levels e m.state) ∧
    (∀ t, hasTransition e m t ↔ t ∈ defined) ∧
    permitted.1.Sublist defined ∧ defined.Nodup ∧
    ((∀ t ∈ defined, anyUnguarded (e.model.candidatesOn m.state t)) →
      permitted = (defined, m, [])) ∧
    e.Lists m.state ∧ e.permittedTriggers <:+: e.items ∧
    (e.model.config.structuralApi → e.structuralMethods <:+: e.items) := by
  intro permitted defined
  have known := (reachable_settled accepted reachable).known
  obtain ⟨s, state, named⟩ := List.mem_map.mp known
  have listed : defined = e.model.definedTriggers m.state := listedTriggers_eq known
  have declared : defined =
      e.model.triggers.eraseDups.filter fun t => e.model.candidatesOn m.state t ≠ [] :=
    listed.trans (Emission.definedTriggers_eq accepted m.state)
  have asked : permitted = permittedAmong e h m.state defined m := by
    have sorted : e.model.sortedTriggers m.state = defined :=
      (Emission.sortedTriggers_eq accepted m.state).trans listed.symm
    simp only [permitted, permittedTriggers, Run.bind_apply, Run.read, sorted, List.nil_append]
  obtain ⟨_, answer⟩ := permittedAmong_discreet accepted discreet m defined
  have each (t : String) : (canFire e h t none m).1 =
      (e.model.candidatesOn m.state t).any (h.permits none m.data) := by
    obtain ⟨_, one⟩ := canFire_discreet accepted discreet m t
    rw [one]
  have exactly : permitted.1 =
      e.model.triggers.eraseDups.filter (fun t => (canFire e h t none m).1) := by
    rw [asked, answer, declared, List.filter_filter]
    refine List.filter_congr fun t _ => ?_
    rw [each, Bool.eq_iff_iff]
    simp only [Bool.and_eq_true, decide_eq_true_iff, and_iff_left_iff_imp]
    intro allowed candidates
    simp [candidates] at allowed
  refine ⟨fun _ _ => MachineFacts.build_triggers, exactly, ?_, fun t => ?_, declared,
    fun t => listed ▸ Emission.mem_definedTriggers accepted,
    fun t => listed ▸ matchesPattern_iff known, ?_, ?_,
    fun free => ?_, named ▸ Emission.lists accepted state, Emission.permittedTriggers_emitted,
    Emission.structuralMethods_emitted⟩
  · rw [asked, answer]
  · obtain ⟨_, one⟩ := canFire_discreet accepted discreet m t
    rw [one]
  · rw [asked, answer]
    exact List.filter_sublist
  · rw [declared]
    exact (nodup_eraseDups _).filter _
  · rw [asked]
    exact permittedAmong_unguarded free m

section OpenLamp

open Declaration

def openLampFacts : MachineFacts :=
  { lampFacts with
    declarations :=
      ⟨.machine { state := some (.word "State"), trigger := some (.word "Trigger")
                  structuralApi := true }, ⟨1, 0⟩⟩ :: lampFacts.declarations.tail ++
      [⟨.transition ⟨lampReference "High", lampReference "Boost", lampReference "Off", some "hot",
        none⟩, ⟨1, 0⟩⟩] }

def openLamp : Emission where
  model := { lamp.model with
    transitions := lamp.model.transitions ++
      [{ source := "High", trigger := "Boost", target := "Off"
         guard := some { name := "hot", role := .guard } }]
    config := { lamp.model.config with structuralApi := true } }
  variant := .basic
  payload := .none

theorem openLamp_accepted : openLamp.Accepted := ⟨openLampFacts, lampModule, rfl, rfl⟩

theorem open_lamp_high :
    let m : Machine Bool Unit := start openLamp "High" false
    openLamp.model.config.structuralApi ∧ openLamp.structuralMethods <:+: openLamp.items ∧
      definedTriggers openLamp m = ["Power", "Boost"] ∧
      (permittedTriggers openLamp lampHost m).1 = ["Power"] ∧
      (permittedTriggers openLamp lampHost m).1 =
        ["Power", "Boost"].filter fun t => (canFire openLamp lampHost t none m).1 := by
  intro m
  have reachable : Reachable openLamp lampHost m := ⟨"High", by decide, false, [], rfl⟩
  have discreet : ∀ t ∈ openLamp.model.transitions, lampHost.Discreet t := fun _ _ _ _ _ _ => rfl
  obtain ⟨_, exactly, _, _, declared, _, _, _, _, _, _, _, emitted⟩ :=
    permitted_exactly openLamp_accepted reachable discreet
  exact ⟨rfl, emitted rfl, declared.trans (by decide +kernel), exactly.trans (by decide +kernel),
    exactly⟩

end OpenLamp

end Execution

end Statewright
