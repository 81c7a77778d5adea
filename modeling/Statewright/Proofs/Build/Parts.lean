import Statewright.Proofs.Build.Modes

/-!
# Parts

What a declaration adds to a draft, where no transition meets another and all callbacks agree in
their mode: findings, a transition or a change of a state, each by itself and independent of what
the draft holds.
-/

namespace Statewright

open Grammar Declaration

def Diagnostic.shown (d : Diagnostic) : Rule × Severity × String := (d.rule, d.severity, d.message)

def Report.shown (report : Report) : List (Rule × Severity × String) :=
  report.map Diagnostic.shown

def Finding.shown (f : Finding) : Rule × Severity × String := (f.rule, f.severity, f.message)

@[simp] theorem Report.shown_append (first rest : Report) :
    Report.shown (first ++ rest) = first.shown ++ rest.shown := List.map_append

theorem Report.shown_findings (findings : List Finding) (place : Finding → Position) :
    Report.shown (findings.map fun f => Diagnostic.ofOutcome (place f) f.outcome) =
      findings.map Finding.shown := by
  rw [shown, List.map_map]
  rfl

theorem Report.hasErrors_shown (report : Report) :
    report.hasErrors = report.shown.any fun d => d.2.1 = .error := by
  rw [shown, List.any_map]
  rfl

namespace Build

namespace Setting

variable (cx : Setting)

def referenceFindings (facts : EnumFacts) (r : Reference) : List Finding :=
  Check.enumValue r.display facts.name (facts.resolve? r).isSome

def edgeReferences (e : Edge) : List Finding :=
  referenceFindings cx.stateEnum e.source ++ referenceFindings cx.triggerEnum e.trigger ++
    referenceFindings cx.stateEnum e.target

def references : MachineDeclaration → List Finding
  | .transition a => cx.edgeReferences (.ofTransition a)
  | .internal a => cx.edgeReferences (.ofInternal a)
  | .state a => referenceFindings cx.stateEnum a.state
  | .machine _ | .payload _ => []

def findingsOf (e : Declared MachineDeclaration) : List Finding :=
  cx.references e.value ++ (cx.namings e).flatMap fun n => cx.findings n.role n.expected n.method

def transitionOf (l : Link) : Transition :=
  let payload := cx.payloads.payloadFor? l.trigger
  let expected := cx.payloads.expected payload
  { source := l.source, trigger := l.trigger, target := l.target, internal := l.internal
    guard := l.guard.bind (cx.callbackFor? .guard expected)
    action := l.action.bind (cx.callbackFor? .action expected)
    expectedPayload := payload }

def transition? (declaration : MachineDeclaration) : Option Transition :=
  (declaration.link? cx.stateEnum cx.triggerEnum).map cx.transitionOf

def stateOf? : MachineDeclaration → Option String
  | .state a => (cx.stateEnum.resolve? a.state).map EnumMember.name
  | _ => none

def extend (declaration : MachineDeclaration) (s : StateModel) : StateModel :=
  match declaration with
  | .state a =>
    let expected := cx.payloads.expected cx.payloads.defaultPayload
    merge s (a.onEntry.bind (cx.callbackFor? .onEntry expected))
      (a.onExit.bind (cx.callbackFor? .onExit expected))
      (a.parent.bind fun r => (cx.stateEnum.resolve? r).map EnumMember.name) a
  | _ => s

def change (states : List StateModel) (declaration : MachineDeclaration) : List StateModel :=
  (cx.stateOf? declaration).elim states fun name => updateState name (cx.extend declaration) states

def entersOrLeaves (declaration : MachineDeclaration) : Bool :=
  match declaration with
  | .state a => (cx.stateEnum.resolve? a.state).isSome && (a.onEntry.isSome || a.onExit.isSome)
  | _ => false

end Setting

def Uniform (uses : List Use) : Prop := ∀ u ∈ uses, ∀ v ∈ uses, u.isAsync = v.isAsync

theorem Uniform.of_append {first rest : List Use} (uniform : Uniform (first ++ rest)) :
    Uniform first := fun u left v right =>
  uniform u (List.mem_append_left rest left) v (List.mem_append_left rest right)

section Callback

variable {cx : Setting} {d : Draft} {uses : List Use}

theorem weigh_uniform (accounts : d.Accounts uses) {u : Use} (uniform : Uniform (uses ++ [u])) :
    (weigh u d).1 = some u.callback ∧ (weigh u d).2.report = d.report := by
  have joins : ¬(d.mode = .sync ∧ u.isAsync) := by
    rw [accounts.mode]
    rintro ⟨mode, async⟩
    cases uses with
    | nil => cases mode
    | cons first rest =>
        have same := uniform first (by simp) u (by simp)
        simp [modeOf, startsAsync, same, async] at mode
  rw [weigh, if_neg joins]
  exact ⟨rfl, rfl⟩

theorem callback?_uniform (accounts : d.Accounts uses) (role : Role) (expected : ExpectedPayload)
    (pos : Position) (method : Option String)
    (uniform : Uniform (uses ++ (naming role expected pos method).filterMap cx.use?)) :
    (callback? cx method role expected pos d).1 = method.bind (cx.callbackFor? role expected) ∧
      Report.shown (callback? cx method role expected pos d).2.report =
        d.report.shown ++ ((naming role expected pos method).flatMap fun n =>
          cx.findings n.role n.expected n.method).map Finding.shown := by
  cases method with
  | none => simp [callback?, naming]
  | some method =>
      let next := d.tell (cx.findings role expected method) pos
      have calm : Calm (cx.findings role expected method) :=
        Check.callbackSignature_calm _ _ _ _ _
      have told : next.Accounts uses := accounts.passed (Draft.tell_passes calm d pos)
      have shown : next.report.shown =
          d.report.shown ++ (cx.findings role expected method).map Finding.shown := by
        rw [← Report.shown_findings _ fun _ => pos, ← Report.shown_append]
        rfl
      rw [callback?, callback_eq]
      cases made : cx.callbackFor? role expected method with
      | none => simpa [naming, made] using shown
      | some c =>
          obtain ⟨kept, report⟩ := weigh_uniform told (u := ⟨c, pos⟩) (by
            simpa [naming, Setting.use?, made] using uniform)
          simp [naming, made, kept, report, next, shown]

theorem callbacks_uniform (accounts : d.Accounts uses) (role other : Role)
    (expected : ExpectedPayload) (pos : Position) (first second : Option String)
    (uniform : Uniform (uses ++ (naming role expected pos first ++
      naming other expected pos second).filterMap cx.use?)) :
    let one := callback? cx first role expected pos d
    let two := callback? cx second other expected pos one.2
    one.1 = first.bind (cx.callbackFor? role expected) ∧
      two.1 = second.bind (cx.callbackFor? other expected) ∧ d.Told two.2 ∧
      two.2.report.shown = d.report.shown ++ ((naming role expected pos first ++
        naming other expected pos second).flatMap fun n =>
          cx.findings n.role n.expected n.method).map Finding.shown := by
  intro one two
  rw [List.filterMap_append, ← List.append_assoc] at uniform
  obtain ⟨made, shown⟩ := callback?_uniform accounts role expected pos first uniform.of_append
  obtain ⟨also, told⟩ := callback?_uniform (accounts.callback? cx role expected pos first) other
    expected pos second uniform
  have stays (d : Draft) (name : Option String) (role : Role) :
      d.Told (callback? cx name role expected pos d).2 := (callback?_told (Prod.eta _).symm).1
  refine ⟨made, also, (stays d first role).trans (stays one.2 second other), ?_⟩
  rw [told, shown, List.flatMap_append, List.map_append, List.append_assoc]

end Callback

structure Draft.Adds (d next : Draft) (cx : Setting) (e : Declared MachineDeclaration) : Prop where
  report : next.report.shown = d.report.shown ++ (cx.findingsOf e).map Finding.shown
  transitions : next.transitions = d.transitions ++ (cx.transition? e.value).toList
  states : next.states = cx.change d.states e.value
  hasEntryExit : next.hasEntryExit = (d.hasEntryExit || cx.entersOrLeaves e.value)

section Declaration

variable {cx : Setting} {d : Draft} {uses : List Use}

theorem resolve_shown (facts : EnumFacts) (r : Reference) (d : Draft) :
    Report.shown (resolve facts r d).2.report =
      d.report.shown ++ (Setting.referenceFindings facts r).map Finding.shown := by
  rw [← Report.shown_findings _ fun _ => r.pos, ← Report.shown_append, Setting.referenceFindings,
    ← Option.isSome_map (f := EnumMember.name)]
  rfl

theorem referenceFindings_found {facts : EnumFacts} {r : Reference} {m : EnumMember}
    (found : facts.resolve? r = some m) : Setting.referenceFindings facts r = [] := by
  simp [Setting.referenceFindings, Check.enumValue, found]

theorem edgeReferences_linked {e : Edge} {l : Link}
    (resolved : e.link? cx.stateEnum cx.triggerEnum = some l) : cx.edgeReferences e = [] := by
  obtain ⟨_, _, _, leaves, fires, aims, _⟩ := Edge.link?_eq_some.mp resolved
  simp [Setting.edgeReferences, referenceFindings_found leaves, referenceFindings_found fires,
    referenceFindings_found aims]

theorem addTransition_unlinked {e : Edge} (pos : Position) (d : Draft)
    (unresolved : e.link? cx.stateEnum cx.triggerEnum = none) :
    d.Told (addTransition cx e pos d) ∧ (addTransition cx e pos d).report.shown =
      d.report.shown ++ (cx.edgeReferences e).map Finding.shown := by
  have missing := Edge.link?_eq_none unresolved
  refine ⟨addTransition_told pos d missing, ?_⟩
  simp only [addTransition]
  split
  · next source trigger target sourced triggered targeted =>
      rcases missing with none | none | none <;> simp [resolve, none] at sourced triggered targeted
  · simp [resolve_shown, Setting.edgeReferences]

section Paid

variable (pays : cx.payloads.Pays d) (accounts : d.Accounts uses)
include pays accounts

theorem addTransition_adds {e : Edge} (pos : Position)
    (fresh : ∀ l, e.link? cx.stateEnum cx.triggerEnum = some l →
      d.isRegistered l.source l.trigger = false)
    (uniform : Uniform (uses ++ (cx.edgeNamings e pos).filterMap cx.use?)) :
    let next := addTransition cx e pos d
    d.Told { next with transitions := d.transitions } ∧
      next.report.shown = d.report.shown ++ (cx.edgeReferences e ++
        (cx.edgeNamings e pos).flatMap fun n =>
          cx.findings n.role n.expected n.method).map Finding.shown ∧
      next.transitions = d.transitions ++
        ((e.link? cx.stateEnum cx.triggerEnum).map cx.transitionOf).toList := by
  intro next
  cases resolved : e.link? cx.stateEnum cx.triggerEnum with
  | none =>
      obtain ⟨told, shown⟩ := addTransition_unlinked pos d resolved
      refine ⟨{ told with transitions := rfl }, ?_, ?_⟩
      · rw [shown]
        simp [Setting.edgeNamings, resolved]
      · simpa using told.transitions
  | some l =>
      simp only [Setting.edgeNamings, resolved] at uniform
      obtain ⟨guard, action, told, shown⟩ :=
        callbacks_uniform accounts .guard .action _ pos l.guard l.action uniform
      have added : next = _ := addTransition_fresh pays resolved (fresh l resolved) pos
      rw [added]
      refine ⟨{ told with transitions := rfl }, ?_, ?_⟩
      · rw [shown]
        simp [edgeReferences_linked resolved, Setting.edgeNamings, resolved]
      · simp only [told.transitions, guard, action, Option.map_some, Option.toList_some]
        rfl

theorem addState_adds (a : StateArguments) (pos : Position)
    (uniform : Uniform (uses ++ (cx.namings ⟨.state a, pos⟩).filterMap cx.use?)) :
    d.Adds (addState cx a pos d) cx ⟨.state a, pos⟩ := by
  have known := resolve_shown cx.stateEnum a.state d
  cases resolved : cx.stateEnum.resolve? a.state with
  | none =>
      have added : addState cx a pos d = (resolve cx.stateEnum a.state d).2 := by
        simp [addState, resolve, resolved]
      rw [added]
      constructor
      · rw [known]
        simp [Setting.findingsOf, Setting.references, Setting.namings, resolved]
      · simp [Setting.transition?, MachineDeclaration.link?, MachineDeclaration.edge?, resolve,
          Draft.tell]
      · simp [Setting.change, Setting.stateOf?, resolved, resolve, Draft.tell]
      · simp [Setting.entersOrLeaves, resolved, resolve, Draft.tell]
  | some state =>
      have started : Draft.Accounts { d with
          places := d.places ++ [(state.name, pos)]
          hasEntryExit := d.hasEntryExit || a.onEntry.isSome || a.onExit.isSome } uses :=
        accounts.passed (.of_eq rfl rfl rfl rfl rfl)
      simp only [Setting.namings, resolved, Option.isSome_some, if_true] at uniform
      obtain ⟨entry, exit, told, shown⟩ :=
        callbacks_uniform started .onEntry .onExit _ pos a.onEntry a.onExit uniform
      obtain ⟨_, added⟩ := addState_found pays resolved pos
      rw [added]
      constructor
      · rw [shown]
        simp [Setting.findingsOf, Setting.references, Setting.namings, resolved,
          referenceFindings_found resolved]
      · exact told.transitions.trans (List.append_nil _).symm
      · simp only [told.states, entry, exit, Setting.change, Setting.stateOf?, resolved,
          Option.map_some, Option.elim_some]
        rfl
      · rw [told.hasEntryExit]
        simp [Setting.entersOrLeaves, resolved, Bool.or_assoc]

theorem addDeclaration_adds (e : Declared MachineDeclaration)
    (fresh : ∀ l, e.value.link? cx.stateEnum cx.triggerEnum = some l →
      d.isRegistered l.source l.trigger = false)
    (uniform : Uniform (uses ++ (cx.namings e).filterMap cx.use?)) :
    d.Adds (addDeclaration cx d e) cx e := by
  have edge {next : Draft} {value : MachineDeclaration} {pos : Position}
      (told : d.Told { next with transitions := d.transitions })
      (shown : next.report.shown =
        d.report.shown ++ (cx.findingsOf ⟨value, pos⟩).map Finding.shown)
      (transitions : next.transitions = d.transitions ++ (cx.transition? value).toList)
      (stateless : cx.stateOf? value = none ∧ cx.entersOrLeaves value = false) :
      d.Adds next cx ⟨value, pos⟩ :=
    ⟨shown, transitions, by simpa [Setting.change, stateless] using told.states,
      by simpa [stateless] using told.hasEntryExit⟩
  obtain ⟨value, pos⟩ := e
  cases value with
  | transition a =>
      obtain ⟨told, shown, transitions⟩ := addTransition_adds pays accounts pos fresh uniform
      exact edge told shown transitions ⟨rfl, rfl⟩
  | internal a =>
      obtain ⟨told, shown, transitions⟩ := addTransition_adds pays accounts pos fresh uniform
      exact edge told shown transitions ⟨rfl, rfl⟩
  | state a => exact addState_adds pays accounts a pos uniform
  | machine a =>
      exact edge (.refl d) (List.append_nil _).symm (List.append_nil _).symm ⟨rfl, rfl⟩
  | payload a =>
      exact edge (.refl d) (List.append_nil _).symm (List.append_nil _).symm ⟨rfl, rfl⟩

end Paid

end Declaration

/-! ## All declarations -/

structure Setting.Plain (cx : Setting) (declarations : List (Declared MachineDeclaration)) :
    Prop where
  apart : (linksOf cx.stateEnum cx.triggerEnum declarations).Pairwise fun l other => ¬other.meets l
  uniform : Uniform ((declarations.flatMap cx.namings).filterMap cx.use?)

/-- The draft is the sum of what declarations add to one to start with. -/
structure Draft.Sums (start d : Draft) (cx : Setting)
    (declarations : List (Declared MachineDeclaration)) : Prop where
  follows : d.Follows cx declarations
  report : d.report.shown =
    start.report.shown ++ declarations.flatMap fun e => (cx.findingsOf e).map Finding.shown
  transitions : d.transitions = declarations.filterMap fun e => cx.transition? e.value
  states : d.states = declarations.foldl (fun states e => cx.change states e.value) start.states
  hasEntryExit : d.hasEntryExit =
    (start.hasEntryExit || declarations.any fun e => cx.entersOrLeaves e.value)

theorem foldl_sums {cx : Setting} {start : Draft} (bare : start.transitions = [])
    (follows : start.Follows cx []) (declarations : List (Declared MachineDeclaration))
    (plain : cx.Plain declarations) :
    start.Sums (declarations.foldl (addDeclaration cx) start) cx declarations := by
  induction declarations using List.reverseRecOn with
  | nil => exact ⟨follows, by simp, by simp [bare], rfl, by simp⟩
  | append_singleton declarations e ih =>
      obtain ⟨apart, uniform⟩ := plain
      rw [linksOf, List.filterMap_append] at apart
      rw [List.flatMap_append, List.filterMap_append] at uniform
      obtain ⟨before, _, across⟩ := List.pairwise_append.mp apart
      obtain ⟨follows, report, transitions, states, entry⟩ := ih ⟨before, uniform.of_append⟩
      have unmet {l : Link} (resolved : e.value.link? cx.stateEnum cx.triggerEnum = some l) :
          (linksOf cx.stateEnum cx.triggerEnum declarations).any l.meets = false := by
        refine List.any_eq_false.mpr fun other declared => ?_
        exact across other declared l (by simp [resolved])
      -- as `e` meets nothing before it, no declaration is left out and no duplicate told of
      have alone : declarations.any (cx.meets e) = false := by
        cases resolved : e.value.link? cx.stateEnum cx.triggerEnum with
        | none => exact any_meets_unlinked resolved
        | some l => rw [any_meets resolved, unmet resolved]
      have adds := addDeclaration_adds follows.pays follows.accounts e
        (fun l resolved => (follows.registered l).trans (unmet resolved)) (by simpa using uniform)
      have next := addDeclaration_follows (e := e) follows
      rw [alone] at next
      rw [List.foldl_append, List.foldl_cons, List.foldl_nil]
      constructor
      · exact next
      · simp [adds.report, report]
      · rw [adds.transitions, transitions, List.filterMap_append]
        cases made : cx.transition? e.value <;> simp [made]
      · simp [adds.states, states]
      · simp [adds.hasEntryExit, entry, Bool.or_assoc]

end Build

end Statewright
