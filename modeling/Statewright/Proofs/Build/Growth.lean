import Statewright.Proofs.Build.Acceptance
import Statewright.Proofs.Callback.Signature

/-!
# Growth of drafts

What a draft gathers while declarations are added: every callback in it is a method of the machine
whose signature has passed, its mode and its token are on record, and every orphan was declared with
a parent that nothing resolves.
-/

namespace Statewright

open Grammar Declaration

/-- A declaration puts the state below something that no member of the enum resolves. -/
def MachineFacts.Orphans (machine : MachineFacts) (states : EnumFacts) (state parent : String) :
    Prop :=
  ∃ a pos r, (⟨.state a, pos⟩ : Declared MachineDeclaration) ∈ machine.declarations ∧
    (states.resolve? a.state).map EnumMember.name = some state ∧
      a.parent = some r ∧ states.resolve? r = none ∧ r.display = parent

namespace Build

variable {cx : Setting}

theorem Draft.Told.expected {d next : Draft} (told : d.Told next) (ty : Option Ty) :
    next.expected ty = d.expected ty := by
  cases ty <;> simp [Draft.expected, hasPayload, told.defaultPayload, told.triggerPayloads]

def Draft.Knows (d : Draft) (cx : Setting) (c : Callback) : Prop :=
  ∃ m, cx.Describes c m ∧
    (∃ payload, (Check.callbackSignature c.name c.role (some (shapeFor m c.role))
      (d.expected payload) cx.primary.variant.isSome).any Finding.isError = false) ∧
    (c.isAsync → d.mode.isAsync) ∧ ∃ pos, ⟨c.name, c.role, c.token, pos⟩ ∈ d.tokenUses

theorem Draft.Knows.grow {d next : Draft} {c : Callback} (knows : d.Knows cx c)
    (told : d.Told next) : next.Knows cx c := by
  obtain ⟨m, described, ⟨payload, passed⟩, async, pos, used⟩ := knows
  exact ⟨m, described, ⟨payload, told.expected payload ▸ passed⟩, told.async ∘ async, pos,
    told.uses.subset used⟩

theorem callback?_known {name : Option String} {role : Role} {expected : ExpectedPayload}
    {payload : Option Ty} {pos : Position} {d next : Draft} {found : Option Callback}
    (resolved : callback? cx name role expected pos d = (found, next))
    (awaited : expected = d.expected payload) :
    d.Told next ∧ ∀ c, found = some c → next.Knows cx c := by
  obtain ⟨told, known⟩ := callback?_told resolved
  refine ⟨told, fun c here => ?_⟩
  obtain ⟨_, _, m, described, passed, async, used⟩ := known c here
  rw [awaited, ← told.expected] at passed
  exact ⟨m, described, ⟨payload, passed⟩, async, pos, used⟩

structure Draft.Trusted (d : Draft) (cx : Setting) : Prop where
  edges : ∀ t ∈ d.transitions, (∀ c ∈ t.guard, d.Knows cx c) ∧ ∀ c ∈ t.action, d.Knows cx c
  walks : ∀ s ∈ d.states, (∀ c ∈ s.onEntry, d.Knows cx c) ∧ ∀ c ∈ s.onExit, d.Knows cx c
  orphans : ∀ o ∈ d.orphans, cx.machine.Orphans cx.stateEnum o.1 o.2

theorem Draft.Trusted.grow {d next : Draft} (trusted : d.Trusted cx) (told : d.Told next) :
    next.Trusted cx := by
  constructor
  · rw [told.transitions]
    exact fun t member => (trusted.edges t member).imp
      (fun known c given => (known c given).grow told)
      fun known c given => (known c given).grow told
  · rw [told.states]
    exact fun s member => (trusted.walks s member).imp
      (fun known c given => (known c given).grow told)
      fun known c given => (known c given).grow told
  · rw [told.orphans]
    exact trusted.orphans

theorem register_trusted (e : Edge) (source trigger target : String) (pos : Position) {d : Draft}
    (trusted : d.Trusted cx) : (register cx e source trigger target pos d).Trusted cx := by
  unfold register
  split
  · exact trusted.grow (tell_told d _ pos)
  · extract_lets payload expected
    rcases guarded : callback? cx e.guard .guard expected pos d with ⟨guard, d₁⟩
    rcases acted : callback? cx e.action .action expected pos d₁ with ⟨action, d₂⟩
    obtain ⟨first, guardKnown⟩ := callback?_known guarded rfl
    obtain ⟨second, actionKnown⟩ := callback?_known acted (first.expected payload).symm
    have guardKept (c : Callback) (given : guard = some c) := (guardKnown c given).grow second
    obtain ⟨edges, walks, orphans⟩ := trusted.grow (first.trans second)
    simp only [acted]
    -- what is known of a callback does not depend on the transitions
    refine ⟨fun t member => ?_, walks, orphans⟩
    rcases List.mem_append.mp member with old | new
    · exact edges t old
    · rw [List.mem_singleton.mp new]
      exact ⟨guardKept, actionKnown⟩

theorem addTransition_trusted (e : Edge) (pos : Position) {d : Draft} (trusted : d.Trusted cx) :
    (addTransition cx e pos d).Trusted cx := by
  unfold addTransition
  rcases leaves : resolve cx.stateEnum e.source d with ⟨source, d₁⟩
  rcases fires : resolve cx.triggerEnum e.trigger d₁ with ⟨trigger, d₂⟩
  rcases aims : resolve cx.stateEnum e.target d₂ with ⟨target, d₃⟩
  have told := trusted.grow
    ((resolve_told leaves).trans ((resolve_told fires).trans (resolve_told aims)))
  simp only [fires, aims]
  split
  · exact register_trusted e _ _ _ pos told
  · exact told

theorem addState_trusted {a : StateArguments} {pos : Position} {d : Draft}
    (declared : ⟨.state a, pos⟩ ∈ cx.machine.declarations) (trusted : d.Trusted cx) :
    (addState cx a pos d).Trusted cx := by
  unfold addState
  split
  · next told resolved => exact trusted.grow (resolve_told resolved)
  · next name told resolved =>
      extract_lets d₀ expected parent orphan
      rcases entered : callback? cx a.onEntry .onEntry expected pos d₀ with ⟨onEntry, d₁⟩
      rcases exited : callback? cx a.onExit .onExit expected pos d₁ with ⟨onExit, d₂⟩
      obtain ⟨first, entryKnown⟩ := callback?_known entered rfl
      obtain ⟨second, exitKnown⟩ :=
        callback?_known exited (first.expected d₀.defaultPayload).symm
      have entryKept (c : Callback) (given : onEntry = some c) := (entryKnown c given).grow second
      have told := trusted.grow (resolve_told resolved)
      have start : d₀.Trusted cx := ⟨told.edges, told.walks, told.orphans⟩
      obtain ⟨edges, walks, orphans⟩ := start.grow (first.trans second)
      simp only [exited]
      refine ⟨edges, fun s member => ?_, fun o member => ?_⟩
      · rcases updateState_mem member with old | ⟨old, inside, _, rfl⟩
        · exact walks s old
        · have known := walks old inside
          simp only [merge, Option.mem_def, Option.or_eq_some_iff]
          exact ⟨fun c given => given.elim (known.1 c) fun new => entryKept c new.2,
            fun c given => given.elim (known.2 c) fun new => exitKnown c new.2⟩
      · rcases List.mem_append.mp member with old | new
        · exact orphans o old
        · simp only [orphan] at new
          split at new
          · next r above =>
              split at new
              · next unresolved =>
                  rw [List.mem_singleton.mp new]
                  refine ⟨a, pos, r, declared, (Prod.mk.inj resolved).1, above, ?_, rfl⟩
                  simpa [parent, above] using unresolved
              · cases new
          · cases new

theorem addDeclaration_trusted {e : Declared MachineDeclaration} {d : Draft}
    (declared : e ∈ cx.machine.declarations) (trusted : d.Trusted cx) :
    (addDeclaration cx d e).Trusted cx := by
  obtain ⟨value, pos⟩ := e
  cases value with
  | transition a => exact addTransition_trusted (.ofTransition a) pos trusted
  | internal a => exact addTransition_trusted (.ofInternal a) pos trusted
  | state a => exact addState_trusted declared trusted
  | machine a => exact trusted
  | payload a => exact trusted

theorem declarePayload_orphans (onMethod : Option String) (declared : Declared PayloadArguments)
    (d : Draft) : (declarePayload cx onMethod declared d).orphans = d.orphans := by
  rcases declarePayload_told cx onMethod declared d with told | ⟨scope, _, same⟩
  · exact told.orphans
  · rw [same]
    cases scope <;> rfl

theorem declarePayloads_orphans (d : Draft) : (declarePayloads cx d).orphans = d.orphans :=
  declarePayloads_induction (fun next => next.orphans = d.orphans) rfl
    fun onMethod p next same => (declarePayload_orphans onMethod p next).trans same

def checkToken (d : Draft) (u : TokenUse) : Draft :=
  d.tell (Check.tokenParameter u.method u.role u.token d.mode.isAsync) u.pos

theorem checkToken_clean {d : Draft} {u : TokenUse}
    (clean : (checkToken d u).report.hasErrors = false) :
    d.report.hasErrors = false ∧ (u.token = .none ∨ d.mode.isAsync) := by
  simp only [checkToken, Draft.tell, hasErrors_append, Bool.or_eq_false_iff] at clean
  obtain ⟨before, findings⟩ := clean
  rw [Report.hasErrors, List.any_map] at findings
  exact ⟨before, Check.tokenParameter_passed findings⟩

theorem foldl_checkToken_clean {uses : List TokenUse} {d : Draft}
    (clean : (uses.foldl checkToken d).report.hasErrors = false) :
    d.report.hasErrors = false ∧ ∀ u ∈ uses, u.token = .none ∨ d.mode.isAsync := by
  induction uses generalizing d with
  | nil => exact ⟨clean, by simp⟩
  | cons u uses ih =>
      obtain ⟨told, others⟩ := ih clean
      obtain ⟨before, suited⟩ := checkToken_clean told
      exact ⟨before, List.forall_mem_cons.mpr ⟨suited, others⟩⟩

theorem checkTokens_clean {d : Draft} (clean : (checkTokens d).report.hasErrors = false) :
    ∀ u ∈ d.tokenUses, u.token = .none ∨ d.mode.isAsync :=
  (foldl_checkToken_clean clean).2

theorem checks_clean {d : Draft}
    (clean : (checkNesting cx (checkTokens d)).report.hasErrors = false) :
    ∀ u ∈ (checkNesting cx (checkTokens d)).tokenUses,
      u.token = .none ∨ (checkNesting cx (checkTokens d)).mode.isAsync := by
  obtain ⟨_, nesting⟩ := checkNesting_reports cx (checkTokens d)
  obtain ⟨_, tokens⟩ := checkTokens_reports d
  rw [nesting, hasErrors_append, Bool.or_eq_false_iff] at clean
  have suited := checkTokens_clean clean.1
  rw [nesting, tokens]
  exact suited

theorem draft_tokens {report : Report} (clean : (draft cx report).report.hasErrors = false) :
    ∀ u ∈ (draft cx report).tokenUses, u.token = .none ∨ (draft cx report).mode.isAsync :=
  checks_clean clean

theorem draft_trusted (cx : Setting) (report : Report) : (draft cx report).Trusted cx := by
  unfold draft
  extract_lets start
  refine Draft.Trusted.grow ?_ (checks_told cx _)
  refine List.foldlRecOn (motive := fun d : Draft => d.Trusted cx) _ _ ?_ ?_
  · have kept := declarePayloads_kept cx start
    constructor
    · rw [kept.transitions]
      simp [start]
    · rw [kept.states]
      simp [start]
    · rw [declarePayloads_orphans]
      simp [start]
  · exact fun d trusted e declared => addDeclaration_trusted declared trusted

end Build

end Statewright
