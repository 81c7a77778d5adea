import Statewright.Proofs.Execution.Firing

/-!
# Sessions

A session is a new machine and the calls that its user makes. Only calls that fire a trigger move
it: each of them leaves the machine in its place or follows the course of a transition.
-/

namespace Statewright.Execution

variable {σ υ ω : Type}

inductive Call (σ υ ω : Type)
  | tryFire (trigger : String) (payload : Option υ)
  | fire (trigger : String) (payload : Option υ)
  | canFire (trigger : String) (payload : Option υ)
  | permittedTriggers
  | current
  | definedTriggers
  | hasTransition (trigger : String)
  | isIn (state : String)
  | activePath
  | addExtension (extension : ω)
  | edit (change : σ → σ)

inductive Reply
  | nothing
  | truth (holds : Bool)
  | outcome (result : Except Rejection Unit)
  | names (names : List String)

section Calls

variable (e : Emission) (h : Host σ υ ω)

def Call.run : Call σ υ ω → Run σ υ ω Reply
  | .tryFire trigger payload => do return .truth (← Execution.tryFire e h trigger payload)
  | .fire trigger payload => do return .outcome (← Execution.fire e h trigger payload)
  | .canFire trigger payload => do return .truth (← Execution.canFire e h trigger payload)
  | .permittedTriggers => do return .names (← Execution.permittedTriggers e h)
  | .current => do return .names [← Run.read Machine.state]
  | .definedTriggers => do return .names (← Run.read (Execution.definedTriggers e))
  | .hasTransition trigger => do
    return .truth (← Run.read fun m => Execution.hasTransition e m trigger)
  | .isIn state => do return .truth (← Run.read fun m => Execution.isIn e m state)
  | .activePath => do return .names (← Run.read (Execution.activePath e))
  | .addExtension extension => do
    Run.change fun m => Execution.addExtension m extension
    return .nothing
  | .edit change => do
    Run.change fun m => { m with data := change m.data }
    return .nothing

structure Step (σ υ ω : Type) where
  before : Machine σ ω
  call : Call σ υ ω
  reply : Reply
  after : Machine σ ω
  trace : List (TraceEntry υ)

def stepOf (m : Machine σ ω) (call : Call σ υ ω) : Step σ υ ω where
  before := m
  call
  reply := (call.run e h m).1
  after := (call.run e h m).2.1
  trace := (call.run e h m).2.2

def after (m : Machine σ ω) (calls : List (Call σ υ ω)) : Machine σ ω :=
  calls.foldl (fun m call => (call.run e h m).2.1) m

def session (m : Machine σ ω) : List (Call σ υ ω) → List (Step σ υ ω)
  | [] => []
  | call :: rest => stepOf e h m call :: session (stepOf e h m call).after rest

/-- A machine that was created in a declared state and called any number of times. -/
def Reachable (m : Machine σ ω) : Prop :=
  ∃ state ∈ e.model.states.map StateModel.name, ∃ (data : σ) (calls : List (Call σ υ ω)),
    m = after e h (start e state data) calls

end Calls

def Step.committed (s : Step σ υ ω) : Bool :=
  match s.call, s.reply with
  | .tryFire .., .truth taken => taken
  | .fire .., .outcome (.ok _) => true
  | _, _ => false

variable {e : Emission} {h : Host σ υ ω}

theorem after_snoc (m : Machine σ ω) (calls : List (Call σ υ ω)) (call : Call σ υ ω) :
    after e h m (calls ++ [call]) = (stepOf e h (after e h m calls) call).after := by
  simp [after, stepOf]

theorem session_snoc (m : Machine σ ω) (calls : List (Call σ υ ω)) (call : Call σ υ ω) :
    session e h m (calls ++ [call]) =
      session e h m calls ++ [stepOf e h (after e h m calls) call] := by
  induction calls generalizing m with
  | nil => rfl
  | cons first rest ih => exact congrArg (stepOf e h m first :: ·) (ih _)

/-! ## What a call does -/

theorem fire_apply (trigger : String) (payload : Option υ) (m : Machine σ ω) :
    fire e h trigger payload m =
      (if (tryFire e h trigger payload m).1 then .ok ()
        else .error ⟨m.state, trigger, payload.map h.typeName⟩,
        (tryFire e h trigger payload m).2) := by
  rcases tried : tryFire e h trigger payload m with ⟨taken, n, trace⟩
  cases taken <;> simp [fire, Run.bind_apply, Run.read, tried, Run.pure_apply]

def Call.fires? : Call σ υ ω → Option (String × Option υ)
  | .tryFire trigger payload | .fire trigger payload => some (trigger, payload)
  | _ => none

section Listing

variable {other : Emission} (states : other.model.states = e.model.states)
  (defined : other.model.definedTriggers = e.model.definedTriggers)
include states defined

theorem handling_congr : other.handling = e.handling := by
  rw [Emission.handling, states, defined, Emission.handling]

theorem listedTriggers_congr (state : String) :
    listedTriggers other state = listedTriggers e state := by
  rw [listedTriggers, handling_congr states defined, defined, listedTriggers]

theorem matchesPattern_congr (state trigger : String) :
    matchesPattern other state trigger = matchesPattern e state trigger := by
  rw [matchesPattern, handling_congr states defined, defined, matchesPattern]

end Listing

theorem change_still (f : Machine σ ω → Machine σ ω) (change : σ → σ)
    (data : ∀ m, (f m).data = change m.data) (state : ∀ m, (f m).state = m.state)
    (history : ∀ m, (f m).history = m.history) : (Run.change f : Run σ υ ω Unit).Still := by
  refine ⟨fun m n same => ⟨rfl, ?_, rfl⟩, state, history, ?_, ?_, ?_⟩
  · exact (data m).trans ((congrArg change same).trans (data n).symm)
  all_goals
    intro m
    rfl

theorem call_still {call : Call σ υ ω} (idle : call.fires? = none) (state : String) :
    ∃ r : Run σ υ ω Reply, r.Still ∧ ∀ m, m.state = state → call.run e h m = r m := by
  cases call with
  | tryFire trigger payload => cases idle
  | fire trigger payload => cases idle
  | canFire trigger payload =>
      refine ⟨if passes e h trigger (visible e payload) then do
          return .truth (← Run.any (wouldTake h (visible e payload))
            (consulted (e.model.candidatesOn state trigger)))
        else pure (.truth false), ?_, ?_⟩
      · split
        · exact ((still_closed h).any ((still_closed h).wouldTake _) _).bind fun _ => .pure _
        · exact .pure _
      · rintro m rfl
        rw [Call.run, Run.return_apply, canFire]
        split
        · exact (Run.return_apply _ Reply.truth m).symm
        · rfl
  | permittedTriggers =>
      refine ⟨do return .names (← permittedAmong e h state (e.model.sortedTriggers state)),
        ((still_closed h).permittedAmong e state _).bind fun _ => .pure _, ?_⟩
      rintro m rfl
      rfl
  | current => exact ⟨pure (.names [state]), .pure _, by rintro m rfl; rfl⟩
  | definedTriggers =>
      exact ⟨pure (.names (listedTriggers e state)), .pure _, by rintro m rfl; rfl⟩
  | hasTransition trigger =>
      exact ⟨pure (.truth (matchesPattern e state trigger)), .pure _, by rintro m rfl; rfl⟩
  | isIn other =>
      exact ⟨pure (.truth (e.model.hierarchy.isIn (e.stateIndex state) (e.stateIndex other))),
        .pure _, by rintro m rfl; rfl⟩
  | activePath =>
      exact ⟨pure (.names ((e.model.hierarchy.activePath (e.stateIndex state)).map (stateAt e))),
        .pure _, by rintro m rfl; rfl⟩
  | addExtension extension =>
      refine ⟨do
        Run.change fun m => Execution.addExtension m extension
        return .nothing, ?_, fun _ _ => rfl⟩
      exact (change_still (fun m => Execution.addExtension m extension) id (fun _ => rfl)
        (fun _ => rfl) fun _ => rfl).bind fun _ => .pure _
  | edit change =>
      refine ⟨do
        Run.change fun m => { m with data := change m.data }
        return .nothing, ?_, fun _ _ => rfl⟩
      exact (change_still (fun m => { m with data := change m.data }) change (fun _ => rfl)
        (fun _ => rfl) fun _ => rfl).bind fun _ => .pure _

theorem call_fires {call : Call σ υ ω} {trigger : String} {payload : Option υ}
    (fires : call.fires? = some (trigger, payload)) (m : Machine σ ω) :
    (call.run e h m).2 = (tryFire e h trigger payload m).2 ∧
      (stepOf e h m call).committed = (tryFire e h trigger payload m).1 := by
  cases call with
  | tryFire trigger payload =>
      cases fires
      exact ⟨by rw [Call.run, Run.return_apply], rfl⟩
  | fire trigger payload =>
      cases fires
      simp only [stepOf, Step.committed, Call.run, Run.return_apply, fire_apply, true_and]
      cases (tryFire e h trigger payload m).1 <;> rfl
  | _ => cases fires

theorem idle_committed {call : Call σ υ ω} (idle : call.fires? = none) (m : Machine σ ω) :
    (stepOf e h m call).committed = false := by
  cases call with
  | tryFire trigger payload => cases idle
  | fire trigger payload => cases idle
  | _ => rfl

theorem call_closed {P : {α : Type} → Run σ υ ω α → Prop} (closed : Run.Closed h P)
    (reads : P (Run.read Machine.state)) (tells : ∀ a hook, P (tell e h a hook))
    (transfers : ∀ given t, P (transfer e h given t))
    (edits : ∀ change : σ → σ, P (Run.change fun m => { m with data := change m.data }))
    {call : Call σ υ ω}
    (registers : ∀ extension, call = .addExtension extension →
      P (Run.change fun m => Execution.addExtension m extension)) :
    P (call.run e h) := by
  have fires (trigger : String) (payload : Option υ) : P (Execution.tryFire e h trigger payload) :=
    closed.tryFire payload tells reads transfers trigger
  -- a question about the current state is answered from its name
  have answers {α : Type} (answer : String → α) (reply : α → Reply) : P (do
      return reply (← Run.read fun m => answer m.state)) :=
    closed.bind (closed.bind reads fun state => closed.pure (answer state)) fun _ => closed.pure _
  cases call with
  | tryFire trigger payload => exact closed.bind (fires trigger payload) fun _ => closed.pure _
  | fire trigger payload =>
      refine closed.bind (closed.bind reads fun state => ?_) fun _ => closed.pure _
      refine closed.bind (fires trigger payload) fun taken => ?_
      cases taken <;> exact closed.pure _
  | canFire trigger payload =>
      exact closed.bind (closed.canFire e reads trigger payload) fun _ => closed.pure _
  | permittedTriggers => exact closed.bind (closed.permittedTriggers e reads) fun _ => closed.pure _
  | current => exact answers id fun state => .names [state]
  | definedTriggers => exact answers (listedTriggers e) .names
  | hasTransition trigger => exact answers (fun state => matchesPattern e state trigger) .truth
  | isIn state =>
      exact answers (fun current => e.model.hierarchy.isIn (e.stateIndex current)
        (e.stateIndex state)) .truth
  | activePath =>
      exact answers (fun state => (e.model.hierarchy.activePath (e.stateIndex state)).map
        (stateAt e)) .names
  | addExtension extension => exact closed.bind (registers extension rfl) fun _ => closed.pure _
  | edit change => exact closed.bind (edits change) fun _ => closed.pure _

/-! ## What a session keeps -/

section Accepted

variable (accepted : e.Accepted) {m : Machine σ ω} (settled : Settled e m)
include accepted settled

theorem call_outcome (call : Call σ υ ω) :
    ((stepOf e h m call).committed = false ∧ (stepOf e h m call).after.state = m.state ∧
        (stepOf e h m call).after.history = m.history ∧ exitedIn (stepOf e h m call).trace = [] ∧
        enteredIn (stepOf e h m call).trace = []) ∨
      ∃ trigger payload t, call.fires? = some (trigger, payload) ∧
        chosen? e h payload trigger m = some t ∧ t ∈ e.model.candidatesOn m.state trigger ∧
        (course e t m).Walked e.model.hierarchy m
          ((stepOf e h m call).committed, (stepOf e h m call).after, (stepOf e h m call).trace) ∧
        (failuresIn (stepOf e h m call).trace = [] → (stepOf e h m call).committed) := by
  cases fires : call.fires? with
  | none =>
      obtain ⟨r, still, same⟩ := call_still (h := h) (e := e) fires m.state
      refine .inl ⟨idle_committed fires m, ?_⟩
      simp only [stepOf, same m rfl]
      exact ⟨still.state m, still.history m, still.exited m, still.entered m⟩
  | some attempt =>
      obtain ⟨trigger, payload⟩ := attempt
      obtain ⟨run, committed⟩ := call_fires (h := h) (e := e) fires m
      rw [committed]
      simp only [stepOf, run]
      cases chosen : chosen? e h payload trigger m with
      | none =>
          obtain ⟨rejected, state, history, exited, entered, _, _⟩ :=
            tryFire_nothing h trigger payload accepted chosen
          exact .inl ⟨rejected, state, history, exited, entered⟩
      | some t =>
          obtain ⟨candidate, walked, performed, _⟩ :=
            tryFire_chosen h trigger payload accepted settled chosen
          refine .inr ⟨trigger, payload, t, rfl, chosen, candidate, walked, fun quiet => ?_⟩
          cases taken : (tryFire e h trigger payload m).1 with
          | true => rfl
          | false =>
              obtain ⟨_, _, _, _, _, _, _, failed, _⟩ := performed.part taken
              simp [quiet] at failed

theorem step_settled (call : Call σ υ ω) : Settled e (stepOf e h m call).after := by
  rcases call_outcome (h := h) accepted settled call with
    ⟨_, state, history, _⟩ | ⟨trigger, _, t, _, _, candidate, walked, _⟩
  · exact settled.of_same state history
  · have member := (candidate_registered accepted candidate).1
    exact walked_settled accepted settled member walked

theorem step_outside (nested : e.isHierarchical) (call : Call σ υ ω) :
    m.history.AgreeOutside (stepOf e h m call).after.history e.model.hierarchy
      (e.stateIndex m.state) := by
  have wf := accepted.tables nested
  rcases call_outcome (h := h) accepted settled call with
    ⟨_, _, history, _⟩ | ⟨_, _, t, _, _, _, walked, _⟩
  · intro i _
    rw [history]
  · have recorded (left : List Nat) (inside : ∀ i ∈ left, i ∈ (course e t m).left) :
        m.history.AgreeOutside (m.history.recordAll e.model.hierarchy left) e.model.hierarchy
          (e.stateIndex m.state) :=
      wf.recordAll_outside m.history fun i member =>
        (course_left accepted settled (inside i member)).1
    cases committed : (stepOf e h m call).committed with
    | true =>
        obtain ⟨_, history, _⟩ := walked.done committed
        exact history ▸ recorded _ fun _ => id
    | false =>
        obtain ⟨_, prior, inside, history⟩ := walked.broken committed
        exact history ▸ recorded prior fun _ member => inside.subset member

theorem after_settled (calls : List (Call σ υ ω)) : Settled e (after e h m calls) := by
  induction calls generalizing m with
  | nil => exact settled
  | cons call rest ih => exact ih (step_settled accepted settled call)

end Accepted

theorem reachable_settled (accepted : e.Accepted) {m : Machine σ ω} (reachable : Reachable e h m) :
    Settled e m := by
  obtain ⟨state, declared, data, calls, rfl⟩ := reachable
  exact after_settled accepted (start_settled accepted declared data) calls

section Lamp

open Grammar Declaration

def lampReference (name : String) : Reference := ⟨.path (.word name), ⟨1, 0⟩⟩

def lampMember (name : String) : EnumMember := ⟨name, ⟨1, 0⟩, none⟩

/-- A lamp that is on at one of two levels, remembers which, and cools down when it goes off. -/
def lampFacts : MachineFacts where
  name := "Lamp"
  pos := ⟨1, 0⟩
  generics := {}
  fields := .unit
  itemIndex := 0
  malformed := false
  declarations :=
    [⟨.machine { state := some (.word "State"), trigger := some (.word "Trigger") }, ⟨1, 0⟩⟩,
     ⟨.state { state := lampReference "On", history := .shallow, onExit := some "cool" }, ⟨1, 0⟩⟩,
     ⟨.state { state := lampReference "Low", parent := some (lampReference "On"), initial := true },
       ⟨1, 0⟩⟩,
     ⟨.state { state := lampReference "High", parent := some (lampReference "On") }, ⟨1, 0⟩⟩,
     ⟨.transition ⟨lampReference "Off", lampReference "Power", lampReference "On", none, none⟩,
       ⟨1, 0⟩⟩,
     ⟨.transition ⟨lampReference "On", lampReference "Power", lampReference "Off", none, none⟩,
       ⟨1, 0⟩⟩,
     ⟨.transition ⟨lampReference "Low", lampReference "Boost", lampReference "High", none, none⟩,
       ⟨1, 0⟩⟩,
     ⟨.transition ⟨lampReference "High", lampReference "Power", lampReference "Low", some "hot",
       none⟩, ⟨1, 0⟩⟩]

def lampModule : ModuleFacts where
  name := "lamp"
  enums :=
    [⟨"State", ["Off", "On", "Low", "High"].map lampMember⟩,
     ⟨"Trigger", ["Power", "Boost"].map lampMember⟩]
  methods :=
    [⟨"Lamp", "cool", .exclusive, [],
       some (.path (.mk false [.mk "Result"
         (.angle false [.type (.tuple [] false), .type (.path (.word "String"))] false)])),
       false, []⟩,
     ⟨"Lamp", "hot", .shared, [], some (.path (.word "bool")), false, []⟩]

def lampOn : StateModel :=
  { name := "On", onExit := some { name := "cool", role := .onExit, fallible := true }
    history := .shallow }

def lamp : Emission where
  model :=
    { name := "Lamp"
      module := some "lamp"
      states :=
        [{ name := "Off" },
         lampOn,
         { name := "Low", parent := some "On", initial := true },
         { name := "High", parent := some "On" }]
      triggers := ["Power", "Boost"]
      transitions :=
        [{ source := "Off", trigger := "Power", target := "On" },
         { source := "On", trigger := "Power", target := "Off" },
         { source := "Low", trigger := "Boost", target := "High" },
         { source := "High", trigger := "Power", target := "Low"
           guard := some { name := "hot", role := .guard } }]
      config := { variant := .basic, hasEntryExit := true, hierarchy := true } }
  variant := .basic
  payload := .none

theorem lamp_accepted : lamp.Accepted := ⟨lampFacts, lampModule, rfl, rfl⟩

def lampHost : Host Bool Unit Unit where
  isOf _ _ := true
  typeName _ := "()"
  call c _ jammed :=
    (if c.role = .guard then .refuses else if jammed then .fails "jammed" else .holds, jammed)
  react extension _ := (extension, false)

def lampOff (jammed : Bool) : Machine Bool Unit := start lamp "Off" jammed

def brighten : List (Call Bool Unit Unit) := [.tryFire "Power" none, .tryFire "Boost" none]

def flash : List (Call Bool Unit Unit) := brighten ++ [.tryFire "Power" none]

end Lamp

end Statewright.Execution
