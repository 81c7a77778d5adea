import Statewright.Proofs.Build.Duplicates

/-!
# Uses of callbacks

The callbacks that the declarations of a machine name, in the order in which they are looked at,
and what a look at one does: it may fix the mode of the machine, is turned away by a mode that was
fixed before, or has an error of its own and changes nothing but the report.
-/

namespace Statewright

open Grammar Declaration

namespace Build

def Setting.payloads (cx : Setting) : Draft := declarePayloads cx {}

structure Draft.Pays (p d : Draft) : Prop where
  defaultPayload : d.defaultPayload = p.defaultPayload
  triggerPayloads : d.triggerPayloads = p.triggerPayloads

namespace Draft.Pays

variable {p d next : Draft} (pays : p.Pays d)
include pays

theorem expected (ty : Option Ty) : d.expected ty = p.expected ty := by
  cases ty with
  | some ty => rfl
  | none => simp [Draft.expected, hasPayload, pays.defaultPayload, pays.triggerPayloads]

theorem payloadFor? (trigger : String) : d.payloadFor? trigger = p.payloadFor? trigger := by
  simp only [Draft.payloadFor?, pays.defaultPayload, pays.triggerPayloads]

theorem spared (spares : d.Spares next) : p.Pays next :=
  ⟨spares.defaultPayload.trans pays.defaultPayload,
    spares.triggerPayloads.trans pays.triggerPayloads⟩

end Draft.Pays

theorem declarePayload_pays {cx : Setting} (onMethod : Option String)
    (declared : Declared PayloadArguments) {p d : Draft} (pays : p.Pays d) :
    (declarePayload cx onMethod declared p).Pays (declarePayload cx onMethod declared d) := by
  obtain ⟨default, triggers⟩ := pays
  obtain ⟨⟨ty, trigger⟩, pos⟩ := declared
  cases trigger with
  | none =>
      simp only [declarePayload, default]
      cases p.defaultPayload with
      | some existing => exact ⟨default, triggers⟩
      | none => exact ⟨rfl, triggers⟩
  | some r =>
      simp only [declarePayload, resolve, Draft.tell]
      cases (cx.triggerEnum.resolve? r).map EnumMember.name with
      | none => exact ⟨default, triggers⟩
      | some trigger =>
          simp only [triggers]
          split <;> exact ⟨default, by simp⟩

theorem declarePayloads_pays (cx : Setting) {d : Draft} (fresh : d.triggerPayloads = []) :
    cx.payloads.Pays (declarePayloads cx d) := by
  unfold Setting.payloads declarePayloads
  extract_lets onStruct onMethods
  have start : Draft.Pays { ({} : Draft) with defaultPayload := cx.primary.payload }
      { d with defaultPayload := cx.primary.payload } := ⟨rfl, fresh⟩
  generalize onStruct ++ onMethods = all at *
  generalize ({ ({} : Draft) with defaultPayload := cx.primary.payload } : Draft) = p at *
  generalize ({ d with defaultPayload := cx.primary.payload } : Draft) = d at *
  induction all generalizing p d with
  | nil => exact start
  | cons declared rest ih => exact ih _ _ (declarePayload_pays _ _ start)

/-- A callback as a declaration names it, with the payload that it can count on. -/
structure Naming where
  method : String
  role : Role
  expected : ExpectedPayload
  pos : Position

def naming (role : Role) (expected : ExpectedPayload) (pos : Position) (method : Option String) :
    List Naming :=
  method.toList.map fun method => ⟨method, role, expected, pos⟩

structure Use where
  callback : Callback
  pos : Position

namespace Use

def isAsync (u : Use) : Bool := u.callback.isAsync

def token (u : Use) : TokenUse := ⟨u.callback.name, u.callback.role, u.callback.token, u.pos⟩

end Use

def callbackOf (name : String) (role : Role) (s : Shape) : Callback where
  name := name
  role := role
  isAsync := s.returns.mode? = some .async
  fallible := s.fallible
  payload := s.payload
  token := s.token
  detached := s.returns = .detached

namespace Setting

variable (cx : Setting)

def findings (role : Role) (expected : ExpectedPayload) (method : String) : List Finding :=
  Check.callbackSignature method role ((cx.method? method).map (shapeFor · role)) expected
    cx.primary.variant.isSome

def callbackFor? (role : Role) (expected : ExpectedPayload) (method : String) : Option Callback :=
  if (cx.findings role expected method).any Finding.isError then none
  else (cx.method? method).map fun m => callbackOf method role (shapeFor m role)

def use? (n : Naming) : Option Use :=
  (cx.callbackFor? n.role n.expected n.method).map fun c => ⟨c, n.pos⟩

/-- The callbacks of a transition, unless one of its references does not resolve. -/
def edgeNamings (e : Edge) (pos : Position) : List Naming :=
  match e.link? cx.stateEnum cx.triggerEnum with
  | some l =>
    let expected := cx.payloads.expected (cx.payloads.payloadFor? l.trigger)
    naming .guard expected pos l.guard ++ naming .action expected pos l.action
  | none => []

def namings (e : Declared MachineDeclaration) : List Naming :=
  match e.value with
  | .transition a => cx.edgeNamings (.ofTransition a) e.pos
  | .internal a => cx.edgeNamings (.ofInternal a) e.pos
  | .state a =>
    let expected := cx.payloads.expected cx.payloads.defaultPayload
    if (cx.stateEnum.resolve? a.state).isSome then
      naming .onEntry expected e.pos a.onEntry ++ naming .onExit expected e.pos a.onExit
    else []
  | .machine _ | .payload _ => []

def meets (e other : Declared MachineDeclaration) : Bool :=
  (e.value.link? cx.stateEnum cx.triggerEnum).any fun l =>
    (other.value.link? cx.stateEnum cx.triggerEnum).any l.meets

/-- The uses of callbacks in some declarations, but for transitions that meet one before. -/
def usesIn (declarations : List (Declared MachineDeclaration)) : List Use :=
  ((declarations.eraseDupsBy cx.meets).flatMap cx.namings).filterMap cx.use?

end Setting

theorem callbackSignature_moded {name : String} {role : Role} {expected : ExpectedPayload}
    {forced : Bool} {s : Shape}
    (passed : (Check.callbackSignature name role (some s) expected forced).any Finding.isError =
      false) :
    s.returns.mode? = some (if s.returns.mode? = some .async then .async else .sync) := by
  obtain ⟨_, moded, _⟩ := Check.callbackSignature_passed passed
  obtain ⟨mode, found⟩ := Option.isSome_iff_exists.mp moded
  rw [found]
  cases mode <;> rfl

/-- What a use does to a draft: an asynchronous one is turned away by a synchronous machine, and
every other one is noted. -/
def weigh (u : Use) (d : Draft) : Option Callback × Draft :=
  if d.mode = .sync ∧ u.isAsync then
    (none,
      { d.tell (Check.modeConflict u.callback.name d.modeSource (!d.conflictReported)) u.pos with
        conflictReported := true })
  else
    (some u.callback,
      { d with
        mode := if d.mode = .unset then (if u.isAsync then .async else .sync) else d.mode
        modeSource := if d.mode = .unset then u.callback.name else d.modeSource
        tokenUses := d.tokenUses ++ [u.token] })

section Callback

variable {cx : Setting} {role : Role} {expected : ExpectedPayload} {method : String}

theorem observe_weigh {m : MethodFacts} (known : cx.method? method = some m)
    (passed : (cx.findings role expected method).any Finding.isError = false) (pos : Position)
    (d : Draft) :
    (match observe method (shapeFor m role).returns.mode? pos d with
      | (none, rejected) => (none, rejected)
      | (some kept, _) =>
        let c := callbackOf method role (shapeFor m role)
        (some c, { kept with
          tokenUses := kept.tokenUses ++ [⟨method, role, (shapeFor m role).token, pos⟩] })) =
      weigh ⟨callbackOf method role (shapeFor m role), pos⟩ d := by
  rw [Setting.findings, known] at passed
  have moded := callbackSignature_moded passed
  have async : Use.isAsync ⟨callbackOf method role (shapeFor m role), pos⟩ =
      decide ((shapeFor m role).returns.mode? = some .async) := rfl
  have name : (callbackOf method role (shapeFor m role)).name = method := rfl
  unfold weigh
  rw [async, name, moded]
  cases mode : d.mode <;> by_cases on : (shapeFor m role).returns.mode? = some .async <;>
    simp [observe, mode, on, MachineMode.joined?] <;> rfl

theorem callback_eq (cx : Setting) (role : Role) (expected : ExpectedPayload) (method : String)
    (pos : Position) (d : Draft) :
    let told := d.tell (cx.findings role expected method) pos
    callback cx method role expected pos d =
      (cx.callbackFor? role expected method).elim (none, told) fun c => weigh ⟨c, pos⟩ told := by
  intro told
  unfold callback
  extract_lets looked shape found next
  have shaped : shape = (cx.method? method).map (shapeFor · role) := rfl
  have same : found = cx.findings role expected method ∧ next = told := ⟨rfl, rfl⟩
  clear_value shape found next
  obtain ⟨rfl, rfl⟩ := same
  rw [Setting.callbackFor?, shaped]
  cases known : cx.method? method with
  | none => simp
  | some m =>
      simp only [Option.map_some]
      split
      · rfl
      · next passed => exact observe_weigh known (by simpa using passed) pos told

end Callback

section Paid

variable {cx : Setting} {d : Draft} (pays : cx.payloads.Pays d)
include pays

theorem addTransition_fresh {e : Edge} {l : Link}
    (resolved : e.link? cx.stateEnum cx.triggerEnum = some l)
    (fresh : d.isRegistered l.source l.trigger = false) (pos : Position) :
    let payload := cx.payloads.payloadFor? l.trigger
    let expected := cx.payloads.expected payload
    let guarded := callback? cx l.guard .guard expected pos d
    let acted := callback? cx l.action .action expected pos guarded.2
    addTransition cx e pos d = { acted.2 with
      transitions := acted.2.transitions ++
        [{ source := l.source, trigger := l.trigger, target := l.target, internal := l.internal
           guard := guarded.1, action := acted.1, expectedPayload := payload }] } := by
  intro payload expected guarded acted
  have named : l.internal = e.internal ∧ l.guard = e.guard ∧ l.action = e.action := by
    obtain ⟨_, _, _, _, _, _, rfl⟩ := Edge.link?_eq_some.mp resolved
    exact ⟨rfl, rfl, rfl⟩
  rw [addTransition_linked resolved, register, if_neg (by simp [fresh]), ← named.1, ← named.2.1,
    ← named.2.2]
  simp only [pays.payloadFor?, pays.expected]
  rfl

theorem addState_found {a : StateArguments} {state : EnumMember}
    (found : cx.stateEnum.resolve? a.state = some state) (pos : Position) :
    let expected := cx.payloads.expected cx.payloads.defaultPayload
    let start : Draft := { d with
      places := d.places ++ [(state.name, pos)]
      hasEntryExit := d.hasEntryExit || a.onEntry.isSome || a.onExit.isSome }
    let entered := callback? cx a.onEntry .onEntry expected pos start
    let exited := callback? cx a.onExit .onExit expected pos entered.2
    let parent := a.parent.bind fun r => (cx.stateEnum.resolve? r).map EnumMember.name
    ∃ orphans, addState cx a pos d = { exited.2 with
      orphans
      states := updateState state.name (merge · entered.1 exited.1 parent a) exited.2.states } := by
  intro expected start entered exited parent
  have same : start.expected start.defaultPayload = expected := by
    have paid : cx.payloads.Pays start := ⟨pays.defaultPayload, pays.triggerPayloads⟩
    rw [paid.defaultPayload, paid.expected]
  unfold addState
  rw [resolve_found found]
  simp only [entered, exited, ← same]
  exact ⟨_, rfl⟩

end Paid

end Build

end Statewright
