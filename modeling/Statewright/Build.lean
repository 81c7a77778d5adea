import Statewright.Check.Nesting
import Statewright.Check.Reachability
import Statewright.Check.Signature
import Statewright.Facts
import Statewright.Model
import Statewright.Report

/-!
# Building a model

The declarations of a machine are taken in order; each is resolved, checked and added to a draft,
and every finding is reported. A model comes out only if no error was found.
-/

namespace Statewright

open Grammar Declaration

namespace Build

structure Setting where
  machine : MachineFacts
  facts : ModuleFacts
  stateEnum : EnumFacts
  triggerEnum : EnumFacts
  primary : MachineArguments

structure TokenUse where
  method : String
  role : Role
  token : TokenParameter
  pos : Position

structure Draft where
  report : Report := []
  states : List StateModel := []
  places : List (String × Position) := []
  orphans : List (String × String) := []
  transitions : List Transition := []
  defaultPayload : Option Ty := none
  triggerPayloads : List (String × Ty) := []
  hasEntryExit : Bool := false
  mode : MachineMode := .unset
  modeSource : String := ""
  conflictReported : Bool := false
  tokenUses : List TokenUse := []

namespace Draft

def tell (d : Draft) (findings : List Finding) (pos : Position) : Draft :=
  { d with report := d.report ++ findings.map fun f => Diagnostic.ofOutcome pos f.outcome }

def hasPayload (d : Draft) : Bool := d.defaultPayload.isSome || !d.triggerPayloads.isEmpty

def expected (d : Draft) : Option Ty → ExpectedPayload
  | some ty => .type ty
  | none => if d.hasPayload then .any else .none

def payloadFor? (d : Draft) (trigger : String) : Option Ty :=
  ((d.triggerPayloads.find? (·.1 == trigger)).map (·.2)).or d.defaultPayload

def isRegistered (d : Draft) (source trigger : String) : Bool :=
  d.transitions.any fun t => t.source == source && t.trigger == trigger

end Draft

def resolve (facts : EnumFacts) (r : Reference) (d : Draft) : Option String × Draft :=
  let found := (facts.resolve? r).map EnumMember.name
  (found, d.tell (Check.enumValue r.display facts.name found.isSome) r.pos)

/-! ## Payload types -/

def declarePayload (cx : Setting) (onMethod : Option String) (declared : Declared PayloadArguments)
    (d : Draft) : Draft :=
  let ty := declared.value.ty
  let again (scope : Option String) (existing : Ty) (d : Draft) : Draft :=
    d.tell (Check.payloadRedeclaration scope existing.text ty.text onMethod) declared.pos
  match declared.value.trigger with
  | none =>
    match d.defaultPayload with
    | some existing => again none existing d
    | none => { d with defaultPayload := some ty }
  | some r =>
    match resolve cx.triggerEnum r d with
    | (none, d) => d
    | (some trigger, d) =>
      match d.triggerPayloads.find? (·.1 == trigger) with
      | some (_, existing) => again (some trigger) existing d
      | none => { d with triggerPayloads := d.triggerPayloads ++ [(trigger, ty)] }

def declarePayloads (cx : Setting) (d : Draft) : Draft :=
  let onStruct := cx.machine.declarations.filterMap fun (e : Declared MachineDeclaration) =>
    match e.value with
    | .payload arguments => some (none, (⟨arguments, e.pos⟩ : Declared PayloadArguments))
    | _ => none
  let onMethods := (cx.facts.methodsOf cx.machine.name).flatMap fun m =>
    m.payloadTypes.map fun p => (some m.name, p)
  (onStruct ++ onMethods).foldl (fun d (onMethod, p) => declarePayload cx onMethod p d)
    { d with defaultPayload := cx.primary.payload }

/-! ## Callbacks -/

/-- Takes the mode of a callback into account; nothing if it conflicts with the machine's. -/
def observe (method : String) (mode : Option CallMode) (pos : Position) (d : Draft) :
    Option Draft × Draft :=
  match mode with
  | none => (some d, d)
  | some call =>
    match d.mode.joined? call with
    | some next =>
      let source := if d.mode = .unset then method else d.modeSource
      (some { d with mode := next, modeSource := source }, d)
    | none =>
      let findings := Check.modeConflict method d.modeSource (!d.conflictReported)
      (none, { d.tell findings pos with conflictReported := true })

def callback (cx : Setting) (name : String) (role : Role) (expected : ExpectedPayload)
    (pos : Position) (d : Draft) : Option Callback × Draft :=
  let method := (cx.facts.methodsOf cx.machine.name).find? (·.name == name)
  let shape := method.map fun m =>
    Shape.ofSignature m.receiver m.parameters m.output m.isAsync role
  let findings :=
    Check.callbackSignature name role shape expected cx.primary.variant.isSome
  let told := d.tell findings pos
  match shape with
  | none => (none, told)
  | some s =>
    if findings.any Finding.isError then (none, told)
    else match observe name s.returns.mode? pos told with
      | (none, rejected) => (none, rejected)
      | (some kept, _) =>
        let result : Callback :=
          { name, role
            isAsync := s.returns.mode? = some .async
            fallible := s.fallible
            payload := s.payload
            token := s.token
            detached := s.returns = .detached }
        (some result, { kept with tokenUses := kept.tokenUses ++ [⟨name, role, s.token, pos⟩] })

def callback? (cx : Setting) (name : Option String) (role : Role) (expected : ExpectedPayload)
    (pos : Position) (d : Draft) : Option Callback × Draft :=
  match name with
  | some n => callback cx n role expected pos d
  | none => (none, d)

/-! ## Transitions and states -/

structure Edge where
  source : Reference
  trigger : Reference
  target : Reference
  internal : Bool
  guard : Option String
  action : Option String

def Edge.ofTransition (a : TransitionArguments) : Edge :=
  ⟨a.source, a.trigger, a.target, false, a.guard, a.action⟩

def Edge.ofInternal (a : InternalArguments) : Edge :=
  ⟨a.state, a.trigger, a.state, true, a.guard, some a.action⟩

/-- Adds a transition whose ends are known, unless its source and trigger are taken. -/
def register (cx : Setting) (e : Edge) (source trigger target : String) (pos : Position)
    (d : Draft) : Draft :=
  if d.isRegistered source trigger then
    d.tell (Check.duplicateTransition source trigger true) pos
  else
    let payload := d.payloadFor? trigger
    let expected := d.expected payload
    let (guard, d) := callback? cx e.guard .guard expected pos d
    let (action, d) := callback? cx e.action .action expected pos d
    { d with
      transitions := d.transitions ++
        [{ source, trigger, target, internal := e.internal, guard, action
           expectedPayload := payload }] }

/-- Adds a transition; all its references are resolved first. -/
def addTransition (cx : Setting) (e : Edge) (pos : Position) (d : Draft) : Draft :=
  let (source, d) := resolve cx.stateEnum e.source d
  let (trigger, d) := resolve cx.triggerEnum e.trigger d
  let (target, d) := resolve cx.stateEnum e.target d
  match source, trigger, target with
  | some source, some trigger, some target => register cx e source trigger target pos d
  | _, _, _ => d

/-- What a state declaration adds to a state; what is set already stays. -/
def merge (s : StateModel) (onEntry onExit : Option Callback) (parent : Option String)
    (a : StateArguments) : StateModel :=
  { s with
    onEntry := s.onEntry.or onEntry
    onExit := s.onExit.or onExit
    parent := s.parent.or parent
    initial := s.initial || a.initial
    history := if s.history = .none then a.history else s.history }

def updateState (name : String) (change : StateModel → StateModel) :
    List StateModel → List StateModel
  | [] => []
  | s :: rest => if s.name == name then change s :: rest else s :: updateState name change rest

def addState (cx : Setting) (a : StateArguments) (pos : Position) (d : Draft) : Draft :=
  match resolve cx.stateEnum a.state d with
  | (none, d) => d
  | (some name, d) =>
    let d := { d with
      places := d.places ++ [(name, pos)]
      hasEntryExit := d.hasEntryExit || a.onEntry.isSome || a.onExit.isSome }
    let expected := d.expected d.defaultPayload
    let (onEntry, d) := callback? cx a.onEntry .onEntry expected pos d
    let (onExit, d) := callback? cx a.onExit .onExit expected pos d
    let parent := a.parent.bind fun r => (cx.stateEnum.resolve? r).map EnumMember.name
    let orphan := match a.parent with
      | some r => if parent.isNone then [(name, r.display)] else []
      | none => []
    { d with
      orphans := d.orphans ++ orphan
      states := updateState name (merge · onEntry onExit parent a) d.states }

/-- Adds one declaration; payload types and the machine itself are taken elsewhere. -/
def addDeclaration (cx : Setting) (d : Draft) (e : Declared MachineDeclaration) : Draft :=
  match e.value with
  | .transition a => addTransition cx (.ofTransition a) e.pos d
  | .internal a => addTransition cx (.ofInternal a) e.pos d
  | .state a => addState cx a e.pos d
  | .machine _ | .payload _ => d

/-! ## Checks on the whole machine -/

/-- Token parameters make sense only in a machine that turned out asynchronous. -/
def checkTokens (d : Draft) : Draft :=
  d.tokenUses.foldl
    (fun d u => d.tell (Check.tokenParameter u.method u.role u.token d.mode.isAsync) u.pos) d

def isNested (cx : Setting) (d : Draft) : Bool :=
  cx.primary.hierarchy || !d.orphans.isEmpty || d.states.any (·.parent.isSome)

def locate? (cx : Setting) (places : List (String × Position)) (name : String) :
    Option Position :=
  ((places.find? (·.1 == name)).map (·.2)).or ((cx.stateEnum.member? name).map EnumMember.pos)

def located (locate : String → Option Position) (fallback : Position) (findings : List Finding) :
    Report :=
  findings.map fun f =>
    Diagnostic.ofOutcome ((f.subject.bind locate).getD fallback) f.outcome

def nestedStates (d : Draft) : List Check.Nested :=
  d.states.map fun s =>
    { name := s.name
      parent := s.parent.or ((d.orphans.find? (·.1 == s.name)).map (·.2))
      initial := s.initial
      history := s.history }

def nestingFindings (d : Draft) : List Finding :=
  let states := nestedStates d
  let moves := (d.transitions.filter (!·.internal)).map fun t => (t.source, t.target)
  Check.circularHierarchy states ++ Check.orphanSubstates states ++
    Check.compositeEntry states ++ Check.historyOnLeaf states ++
    Check.compositeTargets states moves

def checkNesting (cx : Setting) (d : Draft) : Draft :=
  if isNested cx d then
    let found := located (locate? cx d.places) cx.machine.pos (nestingFindings d)
    { d with report := d.report ++ found }
  else d

def finish (cx : Setting) (d : Draft) : Model :=
  let model : Model :=
    { name := cx.machine.name
      generics := cx.machine.generics
      module := some cx.facts.name
      stateType := cx.stateEnum.name
      triggerType := cx.triggerEnum.name
      states := d.states
      triggers := cx.triggerEnum.members.map EnumMember.name
      transitions := d.transitions
      defaultPayload := d.defaultPayload
      triggerPayloads := d.triggerPayloads
      fields := cx.machine.userFields
      config :=
        { forced := cx.primary.variant
          isAsync := d.mode.isAsync
          hasPayload := d.hasPayload
          hasEntryExit := d.hasEntryExit
          extensionsRequested := cx.primary.extensions
          continueOnCapturedContext := cx.primary.continueOnCapturedContext
          structuralApi := cx.primary.structuralApi
          hierarchy := isNested cx d } }
  { model with config := { model.config with variant := Variant.select model.features } }

def draft (cx : Setting) (report : Report) : Draft :=
  let start : Draft :=
    { report, states := cx.stateEnum.members.map fun m => { name := m.name } }
  checkNesting cx
    (checkTokens (cx.machine.declarations.foldl (addDeclaration cx) (declarePayloads cx start)))

end Build

/-! ## Reachability -/

def Model.edges (m : Model) : List (String × String) :=
  m.transitions.map (fun t => (t.source, t.target)) ++
    if m.config.hierarchy then
      m.states.flatMap fun s =>
        ((m.entryChild? s.name).map fun child => (s.name, child.name)).toList ++
          (s.parent.map fun p => (s.name, p)).toList
    else []

def Model.unreachable (m : Model) : List Finding :=
  let states := m.states.map StateModel.name
  Check.unreachableStates states states.head? m.edges

/-! ## From facts to a model -/

def MachineFacts.build (machine : MachineFacts) (facts : ModuleFacts) : Option Model × Report :=
  let tell (findings : List Finding) (pos : Position) : Report :=
    findings.map fun f => Diagnostic.ofOutcome pos f.outcome
  match machine.primary? with
  | none => (none, tell [.undeclared machine.name] machine.pos)
  | some primary =>
    let repeated := machine.machineDeclarations.length > 1
    let report := if repeated then tell [.declaredTwice machine.name] primary.pos else []
    let stop (f : Finding) : Option Model × Report := (none, report ++ tell [f] primary.pos)
    match machine.fields, primary.value.state, primary.value.trigger with
    | .tuple _, _, _ => stop (.notExtensible machine.name)
    | _, none, _ => stop (.argumentMissing machine.name "state")
    | _, _, none => stop (.argumentMissing machine.name "trigger")
    | _, some state, some trigger =>
      let enumOf (p : Path) : Option EnumFacts :=
        (p.last?.map Segment.ident).bind facts.findEnum?
      match enumOf state, enumOf trigger with
      | some stateEnum, some triggerEnum =>
        let cx : Build.Setting :=
          { machine, facts, stateEnum, triggerEnum, primary := primary.value }
        let d := Build.draft cx report
        let model := Build.finish cx d
        let unreached :=
          Build.located (Build.locate? cx d.places) machine.pos model.unreachable
        let rejected := d.report.hasErrors || machine.malformed
        (if rejected then none else some model, d.report ++ unreached)
      | _, _ => stop (.notEnums (Token.compact state.code) (Token.compact trigger.code))

end Statewright
