import Mathlib.Data.List.Induction
import Statewright.Proofs.Build.References

/-!
# Declared transitions

What a build makes of the transitions that a machine declares: of those that leave one state on one
trigger the first is kept, and where no error is reported it is kept as it was declared.
-/

namespace Statewright

open Grammar Declaration

theorem eraseDupsBy_concat {α : Type} (r : α → α → Bool) (l : List α) (a : α) :
    (l ++ [a]).eraseDupsBy r =
      if (l.eraseDupsBy r).any (r a) then l.eraseDupsBy r else l.eraseDupsBy r ++ [a] := by
  have loop (kept : List α) : List.eraseDupsBy.loop r (l ++ [a]) kept =
      if (List.eraseDupsBy.loop r l kept).any (r a) then List.eraseDupsBy.loop r l kept
      else List.eraseDupsBy.loop r l kept ++ [a] := by
    induction l generalizing kept with
    | nil => cases found : kept.any (r a) <;> simp [List.eraseDupsBy.loop, found]
    | cons b rest ih =>
        cases found : kept.any (r b) <;>
          simp only [List.cons_append, List.eraseDupsBy.loop, found, ih]
  exact loop []

/-- A transition with its references resolved and its callbacks by their names. -/
structure Link where
  source : String
  trigger : String
  target : String
  internal : Bool
  guard : Option String
  action : Option String

def Link.meets (l other : Link) : Bool := other.source == l.source && other.trigger == l.trigger

def Transition.link (t : Transition) : Link where
  source := t.source
  trigger := t.trigger
  target := t.target
  internal := t.internal
  guard := t.guard.map Callback.name
  action := t.action.map Callback.name

def Build.Edge.link? (states triggers : EnumFacts) (e : Edge) : Option Link := do
  let source ← states.resolve? e.source
  let trigger ← triggers.resolve? e.trigger
  let target ← states.resolve? e.target
  return ⟨source.name, trigger.name, target.name, e.internal, e.guard, e.action⟩

theorem Build.Edge.link?_eq_some {states triggers : EnumFacts} {e : Edge} {l : Link} :
    e.link? states triggers = some l ↔ ∃ source trigger target,
      states.resolve? e.source = some source ∧ triggers.resolve? e.trigger = some trigger ∧
        states.resolve? e.target = some target ∧
        l = ⟨source.name, trigger.name, target.name, e.internal, e.guard, e.action⟩ := by
  simp only [link?, Option.bind_eq_bind, Option.bind_eq_some_iff, Option.pure_def,
    Option.some.injEq]
  constructor
  · rintro ⟨source, leaves, trigger, fires, target, aims, rfl⟩
    exact ⟨source, trigger, target, leaves, fires, aims, rfl⟩
  · rintro ⟨source, trigger, target, leaves, fires, aims, rfl⟩
    exact ⟨source, leaves, trigger, fires, target, aims, rfl⟩

theorem Build.Edge.link?_eq_none {states triggers : EnumFacts} {e : Edge}
    (unresolved : e.link? states triggers = none) : states.resolve? e.source = none ∨
      triggers.resolve? e.trigger = none ∨ states.resolve? e.target = none := by
  cases leaves : states.resolve? e.source with
  | none => exact .inl rfl
  | some source =>
      cases fires : triggers.resolve? e.trigger with
      | none => exact .inr (.inl rfl)
      | some trigger =>
          cases aims : states.resolve? e.target with
          | none => exact .inr (.inr rfl)
          | some target => simp [link?, leaves, fires, aims] at unresolved

namespace MachineDeclaration

def edge? : MachineDeclaration → Option Build.Edge
  | .transition a => some (.ofTransition a)
  | .internal a => some (.ofInternal a)
  | .machine _ | .state _ | .payload _ => none

def link? (states triggers : EnumFacts) (declaration : MachineDeclaration) : Option Link :=
  declaration.edge?.bind (·.link? states triggers)

end MachineDeclaration

def linksOf (states triggers : EnumFacts) (declarations : List (Declared MachineDeclaration)) :
    List Link :=
  declarations.filterMap fun e => e.value.link? states triggers

namespace Build

variable {cx : Setting}

theorem tell_fails {findings : List Finding} (errors : findings.any Finding.isError) (d : Draft)
    (pos : Position) : (d.tell findings pos).report.hasErrors := by
  obtain ⟨f, found, error⟩ := List.any_eq_true.mp errors
  simp only [Draft.tell, hasErrors_append, Bool.or_eq_true]
  exact .inr (List.any_eq_true.mpr ⟨_, List.mem_map_of_mem found, error⟩)

theorem callback?_lost {name : Option String} {role : Role} {expected : ExpectedPayload}
    {pos : Position} {d next : Draft} (resolved : callback? cx name role expected pos d = (none, next))
    (named : name.isSome) : next.report.hasErrors := by
  obtain ⟨n, rfl⟩ := Option.isSome_iff_exists.mp named
  simp only [callback?, callback] at resolved
  split at resolved
  · next missing =>
      cases resolved
      exact tell_fails (by rw [missing]; rfl) d pos
  · split at resolved
    · next errors =>
        cases resolved
        exact tell_fails errors d pos
    · split at resolved
      · next rejected observed =>
          cases resolved
          unfold observe at observed
          split at observed
          · cases observed
          · split at observed
            · cases observed
            · cases observed
              refine tell_fails ?_ _ pos
              rw [Check.modeConflict, List.any_append, Bool.or_eq_true]
              exact .inr rfl
      · cases resolved

theorem callback?_kept {name : Option String} {role : Role} {expected : ExpectedPayload}
    {pos : Position} {d next : Draft} {c : Option Callback}
    (resolved : callback? cx name role expected pos d = (c, next))
    (clean : next.report.hasErrors = false) : c.map Callback.name = name := by
  cases c with
  | some c => exact ((callback?_told resolved).2 c rfl).1.symm
  | none =>
      refine (Option.not_isSome_iff_eq_none.mp fun named => ?_).symm
      have errors := callback?_lost resolved named
      simp [clean] at errors

def Setting.Passes (cx : Setting) (expected : ExpectedPayload) (c : Callback) : Prop :=
  ∃ m, cx.Describes c m ∧
    (Check.callbackSignature c.name c.role (some (shapeFor m c.role)) expected
      cx.primary.variant.isSome).any Finding.isError = false

theorem Draft.Notes.passes {d : Draft} {expected : ExpectedPayload} {pos : Position} {c : Callback}
    (notes : d.Notes cx expected pos c) : cx.Passes expected c := by
  obtain ⟨m, described, passed, _⟩ := notes
  exact ⟨m, described, passed⟩

/-! ## One transition -/

/-- The draft gains a transition, which has the ends and the callbacks of its declaration, but for
callbacks in which there is an error. -/
structure Draft.Gains (d next : Draft) (cx : Setting) (l : Link) (t : Transition) : Prop where
  told : d.Told { next with transitions := d.transitions }
  transitions : next.transitions = d.transitions ++ [t]
  ends : t.source = l.source ∧ t.trigger = l.trigger
  payload : t.expectedPayload = d.payloadFor? t.trigger
  guard : ∀ c ∈ t.guard, c.role = .guard ∧ cx.Passes (d.expected t.expectedPayload) c
  action : ∀ c ∈ t.action, c.role = .action ∧ cx.Passes (d.expected t.expectedPayload) c
  whole : next.report.hasErrors = false → t.link = l

theorem register_gains {e : Edge} {l : Link}
    (resolved : e.link? cx.stateEnum cx.triggerEnum = some l) (pos : Position) {d : Draft}
    (fresh : d.isRegistered l.source l.trigger = false) :
    ∃ t, d.Gains (register cx e l.source l.trigger l.target pos d) cx l t := by
  have named : l.internal = e.internal ∧ l.guard = e.guard ∧ l.action = e.action := by
    obtain ⟨_, _, _, _, _, _, rfl⟩ := Edge.link?_eq_some.mp resolved
    exact ⟨rfl, rfl, rfl⟩
  obtain ⟨internal, guardNamed, actionNamed⟩ := named
  let payload := d.payloadFor? l.trigger
  let expected := d.expected payload
  rcases guarded : callback? cx e.guard .guard expected pos d with ⟨guard, d₁⟩
  rcases acted : callback? cx e.action .action expected pos d₁ with ⟨action, d₂⟩
  obtain ⟨first, guardKnown⟩ := callback?_told guarded
  obtain ⟨second, actionKnown⟩ := callback?_told acted
  have told := first.trans second
  let t : Transition :=
    { source := l.source, trigger := l.trigger, target := l.target, internal := e.internal
      guard, action, expectedPayload := payload }
  have registered : register cx e l.source l.trigger l.target pos d =
      { d₂ with transitions := d₂.transitions ++ [t] } := by
    simp [register, fresh, payload, expected, guarded, acted, t]
  refine ⟨t, ?_⟩
  rw [registered]
  refine
    { told := { told with transitions := rfl }, transitions := by rw [told.transitions]
      ends := ⟨rfl, rfl⟩, payload := rfl, guard := fun c given => ?_, action := fun c given => ?_
      whole := fun clean => ?_ }
  · obtain ⟨_, role, notes⟩ := guardKnown c given
    exact ⟨role, notes.passes⟩
  · obtain ⟨_, role, notes⟩ := actionKnown c given
    exact ⟨role, notes.passes⟩
  · have guardKept := callback?_kept guarded (quiet_before second.report clean)
    have actionKept := callback?_kept acted clean
    simp only [Transition.link, t, guardKept, actionKept, ← internal, ← guardNamed, ← actionNamed]

theorem addTransition_linked {e : Edge} {l : Link}
    (resolved : e.link? cx.stateEnum cx.triggerEnum = some l) (pos : Position) (d : Draft) :
    addTransition cx e pos d = register cx e l.source l.trigger l.target pos d := by
  obtain ⟨source, trigger, target, leaves, fires, aims, rfl⟩ := Edge.link?_eq_some.mp resolved
  simp [addTransition, resolve_found leaves, resolve_found fires, resolve_found aims]

theorem addTransition_told {e : Edge} (pos : Position) (d : Draft)
    (unresolved : cx.stateEnum.resolve? e.source = none ∨ cx.triggerEnum.resolve? e.trigger = none ∨
      cx.stateEnum.resolve? e.target = none) : d.Told (addTransition cx e pos d) := by
  unfold addTransition
  rcases leaves : resolve cx.stateEnum e.source d with ⟨source, d₁⟩
  rcases fires : resolve cx.triggerEnum e.trigger d₁ with ⟨trigger, d₂⟩
  rcases aims : resolve cx.stateEnum e.target d₂ with ⟨target, d₃⟩
  simp only [fires, aims]
  split
  · have source := (Prod.mk.inj leaves).1
    have trigger := (Prod.mk.inj fires).1
    have target := (Prod.mk.inj aims).1
    rcases unresolved with missing | missing | missing <;> simp [missing] at source trigger target
  · exact (resolve_told leaves).trans ((resolve_told fires).trans (resolve_told aims))

theorem addTransition_cases (cx : Setting) (e : Edge) (pos : Position) (d : Draft) :
    (e.link? cx.stateEnum cx.triggerEnum = none ∧ d.Told (addTransition cx e pos d) ∧
        (addTransition cx e pos d).report.hasErrors) ∨
      ∃ l, e.link? cx.stateEnum cx.triggerEnum = some l ∧
        ((d.isRegistered l.source l.trigger = true ∧ addTransition cx e pos d =
            d.tell [.duplicateTransition l.source l.trigger] pos) ∨
          d.isRegistered l.source l.trigger = false ∧
            ∃ t, d.Gains (addTransition cx e pos d) cx l t) := by
  cases resolved : e.link? cx.stateEnum cx.triggerEnum with
  | none =>
      have missing := Edge.link?_eq_none resolved
      refine .inl ⟨rfl, addTransition_told pos d missing, ?_⟩
      exact (addTransition_carried cx e pos d).2 missing
  | some l =>
      refine .inr ⟨l, rfl, ?_⟩
      rw [addTransition_linked resolved]
      cases taken : d.isRegistered l.source l.trigger with
      | true => exact .inl ⟨rfl, by simp [register, taken, Check.duplicateTransition]⟩
      | false => exact .inr ⟨rfl, register_gains resolved pos taken⟩

structure Draft.Spares (d next : Draft) : Prop where
  transitions : next.transitions = d.transitions
  defaultPayload : next.defaultPayload = d.defaultPayload
  triggerPayloads : next.triggerPayloads = d.triggerPayloads

theorem Draft.Told.spares {d next : Draft} (told : d.Told next) : d.Spares next :=
  ⟨told.transitions, told.defaultPayload, told.triggerPayloads⟩

theorem addState_spares (a : StateArguments) (pos : Position) (d : Draft) :
    d.Spares (addState cx a pos d) := by
  unfold addState
  split
  · next told resolved => exact (resolve_told resolved).spares
  · next name told resolved =>
      extract_lets d₀ expected parent orphan
      rcases entered : callback? cx a.onEntry .onEntry expected pos d₀ with ⟨onEntry, d₁⟩
      rcases exited : callback? cx a.onExit .onExit expected pos d₁ with ⟨onExit, d₂⟩
      obtain ⟨transitions, default, triggers⟩ :=
        ((callback?_told entered).1.trans (callback?_told exited).1).spares
      have first := (resolve_told resolved).spares
      simp only [exited]
      exact ⟨transitions.trans first.transitions, default.trans first.defaultPayload,
        triggers.trans first.triggerPayloads⟩

theorem addDeclaration_cases (cx : Setting) (d : Draft) (e : Declared MachineDeclaration) :
    (e.value.link? cx.stateEnum cx.triggerEnum = none ∧ d.Spares (addDeclaration cx d e) ∧
        (e.value.edge?.isSome → (addDeclaration cx d e).report.hasErrors)) ∨
      ∃ l, e.value.link? cx.stateEnum cx.triggerEnum = some l ∧
        ((d.isRegistered l.source l.trigger = true ∧ addDeclaration cx d e =
            d.tell [.duplicateTransition l.source l.trigger] e.pos) ∨
          d.isRegistered l.source l.trigger = false ∧
            ∃ t, d.Gains (addDeclaration cx d e) cx l t) := by
  have edge (edge : Edge) (declared : e.value.edge? = some edge)
      (added : addDeclaration cx d e = addTransition cx edge e.pos d) := by
    have link : e.value.link? cx.stateEnum cx.triggerEnum =
        edge.link? cx.stateEnum cx.triggerEnum := by
      rw [MachineDeclaration.link?, declared, Option.bind_some]
    have cases := addTransition_cases cx edge e.pos d
    rw [← added, ← link] at cases
    exact cases.imp_left fun ⟨unresolved, told, fails⟩ =>
      And.intro unresolved (And.intro told.spares fun _ : e.value.edge?.isSome => fails)
  obtain ⟨value, pos⟩ := e
  cases value with
  | transition a => exact edge (.ofTransition a) rfl rfl
  | internal a => exact edge (.ofInternal a) rfl rfl
  | state a => exact .inl ⟨rfl, addState_spares a pos d, nofun⟩
  | machine a => exact .inl ⟨rfl, ⟨rfl, rfl, rfl⟩, nofun⟩
  | payload a => exact .inl ⟨rfl, ⟨rfl, rfl, rfl⟩, nofun⟩

theorem isRegistered_link (d : Draft) (l : Link) :
    d.isRegistered l.source l.trigger = (d.transitions.map Transition.link).any l.meets := by
  rw [List.any_map]
  rfl

section Declarations

variable (declarations : List (Declared MachineDeclaration)) (d : Draft)

end Declarations

theorem link?_trigger {declaration : MachineDeclaration} {states triggers : EnumFacts} {l : Link}
    (resolved : declaration.link? states triggers = some l) :
    l.trigger ∈ triggers.members.map EnumMember.name := by
  obtain ⟨edge, _, resolved⟩ := Option.bind_eq_some_iff.mp resolved
  obtain ⟨_, trigger, _, _, fires, _, rfl⟩ := Edge.link?_eq_some.mp resolved
  exact List.mem_map_of_mem (resolve?_mem fires)

theorem addDeclaration_triggers (e : Declared MachineDeclaration) {d : Draft}
    (known : ∀ t ∈ d.transitions, t.trigger ∈ cx.triggerEnum.members.map EnumMember.name) :
    ∀ t ∈ (addDeclaration cx d e).transitions,
      t.trigger ∈ cx.triggerEnum.members.map EnumMember.name := by
  rcases addDeclaration_cases cx d e with
    ⟨_, spares, _⟩ | ⟨l, resolved, ⟨_, told⟩ | ⟨_, added, gains⟩⟩
  · rwa [spares.transitions]
  · rwa [told]
  · intro t member
    rw [gains.transitions] at member
    rcases List.mem_append.mp member with old | new
    · exact known t old
    · obtain rfl := List.mem_singleton.mp new
      exact gains.ends.2 ▸ link?_trigger resolved

theorem draft_triggers (cx : Setting) (report : Report) :
    ∀ t ∈ (draft cx report).transitions,
      t.trigger ∈ cx.triggerEnum.members.map EnumMember.name := by
  unfold draft
  extract_lets start
  rw [(checks_told cx _).transitions]
  refine List.foldlRecOn (motive := fun d : Draft => ∀ t ∈ d.transitions,
    t.trigger ∈ cx.triggerEnum.members.map EnumMember.name) _ _ ?_ ?_
  · simp [(declarePayloads_kept cx start).transitions, start]
  · exact fun d known e _ => addDeclaration_triggers e known

end Build

theorem Emission.Accepted.fired {e : Emission} (accepted : e.Accepted) :
    ∀ t ∈ e.model.transitions, t.trigger ∈ e.model.triggers := by
  obtain ⟨machine, facts, built, _⟩ := accepted
  obtain ⟨cx, report, _, model⟩ := Build.build_eq_some built
  rw [model]
  exact Build.draft_triggers cx report

end Statewright
