import Statewright.Proofs.Execution.Narration

/-!
# Isolation

Extensions get in the way of nobody. The run of a machine that one of its extensions watches alone,
or none at all, is the whole run with everything taken out that concerns the others; which of them
panic makes no difference.
-/

namespace Statewright

variable {σ υ ω α : Type}

/-- The machine with the extension at `place` as its only one, or without any. -/
def Machine.only (place : Option Nat) (m : Machine σ ω) : Machine σ ω :=
  { m with extensions := (place.bind fun i => m.extensions[i]?).toList }

def Notice.only? (place : Option Nat) : Notice υ → Option (Notice υ)
  | .delivered i event => if place = some i then some (.delivered 0 event) else none
  | .panicked i event => if place = some i then some (.panicked 0 event) else none

def TraceEntry.only? (place : Option Nat) : TraceEntry υ → Option (TraceEntry υ)
  | .told notice => (notice.only? place).map .told
  | entry => some entry

def traceOnly (place : Option Nat) (trace : List (TraceEntry υ)) : List (TraceEntry υ) :=
  trace.filterMap (TraceEntry.only? place)

theorem traceOnly_append (place : Option Nat) (first rest : List (TraceEntry υ)) :
    traceOnly place (first ++ rest) = traceOnly place first ++ traceOnly place rest :=
  List.filterMap_append

theorem heardBy_traceOnly (i : Nat) (trace : List (TraceEntry υ)) :
    heardBy 0 (traceOnly (some i) trace) = heardBy i trace := by
  rw [heardBy, traceOnly, List.filterMap_filterMap, heardBy]
  apply List.filterMap_congr
  intro entry _
  cases entry with
  | told notice =>
      cases notice with
      | delivered j event =>
          by_cases here : i = j
          · simp [TraceEntry.only?, Notice.only?, TraceEntry.heardBy?, here]
          · simp [TraceEntry.only?, Notice.only?, TraceEntry.heardBy?, here, Ne.symm here]
      | panicked j event =>
          by_cases here : i = j <;>
            simp [TraceEntry.only?, Notice.only?, TraceEntry.heardBy?, here]
  | _ => rfl

def Run.Separable (r : Run σ υ ω α) : Prop :=
  ∀ place m, r (m.only place) =
    ((r m).1, (r m).2.1.only place, traceOnly place (r m).2.2)

theorem separable_closed (h : Host σ υ ω) : Run.MoveClosed h Run.Separable where
  pure _ := fun _ _ => rfl
  bind first rest := by
    intro place m
    rw [Run.bind_apply, first, rest, Run.bind_apply, traceOnly_append]
  invoke _ _ := fun _ _ => rfl
  guardFailed _ _ := fun _ _ => rfl
  log entry untold := by
    intro place m
    cases entry with
    | told notice => cases untold
    | _ => rfl
  settle _ := fun _ _ => rfl

section Notices

variable (react : Reaction ω υ) (event : Event υ)

theorem notifyFrom_before {i first : Nat} (before : i < first) (extensions : List ω) :
    (notifyFrom react event first extensions).2.filterMap (Notice.only? (some i)) = [] := by
  induction extensions generalizing first with
  | nil => rfl
  | cons extension rest ih =>
      have others := ih (Nat.lt_succ_of_lt before)
      have apart : i ≠ first := Nat.ne_of_lt before
      rw [notifyFrom]
      cases panics : (react extension event).2 <;> simp [Notice.only?, panics, apart, others]

theorem notifyFrom_nobody (first : Nat) (extensions : List ω) :
    (notifyFrom react event first extensions).2.filterMap (Notice.only? none) = [] := by
  apply List.filterMap_eq_nil_iff.mpr
  intro notice _
  cases notice <;> rfl

theorem notifyFrom_only (k first : Nat) (extensions : List ω) :
    notifyFrom react event 0 extensions[k]?.toList =
      ((notifyFrom react event first extensions).1[k]?.toList,
        (notifyFrom react event first extensions).2.filterMap
          (Notice.only? (some (first + k)))) := by
  induction extensions generalizing k first with
  | nil => rfl
  | cons extension rest ih =>
      cases k with
      | zero =>
          have others := notifyFrom_before react event (Nat.lt_succ_self first) rest
          cases panics : (react extension event).2 <;>
            simp [notifyFrom, Notice.only?, panics, others]
      | succ k =>
          have apart : first + (k + 1) ≠ first := by omega
          have later : first + (k + 1) = first + 1 + k := by omega
          rw [List.getElem?_cons_succ, ih k (first + 1), later]
          rw [later] at apart
          cases panics : (react extension event).2 <;>
            simp [notifyFrom, Notice.only?, panics, apart]

end Notices

namespace Execution

variable {e : Emission} {h : Host σ υ ω}

theorem tell_separable (a : Attempt υ) (hook : Hook) :
    (tell e h a hook : Run σ υ ω Unit).Separable := by
  intro place m
  have traced (notices : List (Notice υ)) :
      traceOnly place (notices.map .told) = (notices.filterMap (Notice.only? place)).map .told := by
    rw [traceOnly, List.filterMap_map, List.map_filterMap]
    rfl
  unfold tell
  split
  · cases place with
    | none =>
        have nobody := notifyFrom_nobody h.react ⟨a, hook⟩ 0 m.extensions
        simp only [Host.tell, notify, traced, nobody]
        rfl
    | some k =>
        have only := notifyFrom_only h.react ⟨a, hook⟩ k 0 m.extensions
        rw [Nat.zero_add] at only
        simp only [Host.tell, notify, traced, Machine.only, Option.bind_some, only]
  · rfl

theorem transfer_separable (payload : Option υ) (t : Transition) :
    (transfer e h payload t).Separable := by
  intro place m
  have followed := (separable_closed h).follow e payload (fun _ _ _ => rfl) t (moveOf e t m).1
  rw [transfer_follow, transfer_follow]
  exact followed place m

end Execution

/-! ## Turns -/

def TraceEntry.delivery? : TraceEntry υ → Option (Nat × Event υ)
  | .told (.delivered i event) => some (i, event)
  | _ => none

def deliveries (trace : List (TraceEntry υ)) : List (Nat × Event υ) :=
  trace.filterMap TraceEntry.delivery?

/-- Everybody is told of one event before anybody is told of the next. -/
def rounds (crew : Nat) (events : List (Event υ)) : List (Nat × Event υ) :=
  events.flatMap fun event => (List.range crew).map fun place => (place, event)

theorem deliveries_append (first rest : List (TraceEntry υ)) :
    deliveries (first ++ rest) = deliveries first ++ deliveries rest := List.filterMap_append

def Run.InTurn (r : Run σ υ ω α) : Prop :=
  ∀ m, (r m).2.1.extensions.length = m.extensions.length ∧
    ∃ events, deliveries (r m).2.2 = rounds m.extensions.length events

theorem Run.InTurn.of_silent {r : Run σ υ ω α}
    (crew : ∀ m, (r m).2.1.extensions.length = m.extensions.length)
    (silent : ∀ m, deliveries (r m).2.2 = []) : r.InTurn :=
  fun m => ⟨crew m, [], silent m⟩

theorem inTurn_closed (h : Host σ υ ω) : Run.MoveClosed h Run.InTurn where
  pure _ := .of_silent (fun _ => rfl) fun _ => rfl
  bind {α β r f} first rest := by
    intro m
    obtain ⟨crew, events, told⟩ := first m
    obtain ⟨crew', events', told'⟩ := rest (r m).1 (r m).2.1
    refine ⟨crew'.trans crew, events ++ events', ?_⟩
    rw [Run.bind_apply, deliveries_append, told, told', crew, rounds, rounds, rounds,
      List.flatMap_append]
  invoke _ _ := .of_silent (fun _ => rfl) fun _ => rfl
  guardFailed _ _ := .of_silent (fun _ => rfl) fun _ => rfl
  log entry untold := by
    refine .of_silent (fun _ => rfl) fun _ => ?_
    cases entry with
    | told notice => cases untold
    | _ => rfl
  settle _ := .of_silent (fun _ => rfl) fun _ => rfl

theorem notifyFrom_deliveries (react : Reaction ω υ) (event : Event υ) (first : Nat)
    (extensions : List ω) :
    deliveries ((notifyFrom react event first extensions).2.map .told) =
      (List.range' first extensions.length).map fun place => (place, event) := by
  induction extensions generalizing first with
  | nil => rfl
  | cons extension rest ih =>
      have panic (panics : Bool) :
          deliveries ((if panics then [.panicked first event] else []).map .told) = [] := by
        cases panics <;> rfl
      rw [List.length_cons, List.range'_succ, List.map_cons, ← ih (first + 1), notifyFrom]
      simp only [List.map_cons, List.map_append, List.cons_append]
      rw [← List.singleton_append, deliveries_append, deliveries_append, panic]
      rfl

namespace Execution

variable {e : Emission} {h : Host σ υ ω}

theorem tell_inTurn (a : Attempt υ) (hook : Hook) : (tell e h a hook : Run σ υ ω Unit).InTurn := by
  intro m
  refine ⟨tell_steady a hook m, ?_⟩
  unfold tell
  split
  · refine ⟨[⟨a, hook⟩], (notifyFrom_deliveries h.react ⟨a, hook⟩ 0 m.extensions).trans ?_⟩
    simp [rounds, List.range_eq_range']
  · exact ⟨[], rfl⟩

theorem transfer_inTurn (payload : Option υ) (t : Transition) :
    (transfer e h payload t).InTurn := by
  intro m
  have recording (place : Nat) : (Run.change fun m : Machine σ ω =>
      { m with history := m.history.record e.model.hierarchy place } : Run σ υ ω Unit).InTurn :=
    .of_silent (fun _ => rfl) fun _ => rfl
  rw [transfer_follow]
  exact (inTurn_closed h).follow e payload recording t _ m

def Call.registers : Call σ υ ω → Bool
  | .addExtension _ => true
  | _ => false

/-- The calls with the registration at `place` as their only one; `crew` extensions are there. -/
def onlyRegistering (place : Option Nat) : Nat → List (Call σ υ ω) → List (Call σ υ ω)
  | _, [] => []
  | crew, call :: rest =>
    if call.registers then
      if place = some crew then call :: onlyRegistering place (crew + 1) rest
      else onlyRegistering place (crew + 1) rest
    else call :: onlyRegistering place crew rest

def withoutRegistering (calls : List (Call σ υ ω)) : List (Call σ υ ω) :=
  calls.filter (!·.registers)

def Step.only (place : Option Nat) (step : Step σ υ ω) : Step σ υ ω :=
  { step with
    before := step.before.only place
    after := step.after.only place
    trace := traceOnly place step.trace }

def Step.stays (place : Option Nat) (step : Step σ υ ω) : Bool :=
  !step.call.registers || place = some step.before.extensions.length

theorem onlyRegistering_none (crew : Nat) (calls : List (Call σ υ ω)) :
    onlyRegistering none crew calls = withoutRegistering calls := by
  induction calls generalizing crew with
  | nil => rfl
  | cons call rest ih =>
      cases registers : call.registers <;>
        simp [onlyRegistering, withoutRegistering, registers, ih]

theorem onlyRegistering_past {k crew : Nat} (past : k < crew) (calls : List (Call σ υ ω)) :
    onlyRegistering (some k) crew calls = withoutRegistering calls := by
  induction calls generalizing crew with
  | nil => rfl
  | cons call rest ih =>
      have apart : k ≠ crew := Nat.ne_of_lt past
      cases registers : call.registers
      · simpa [onlyRegistering, withoutRegistering, registers] using ih past
      · simpa [onlyRegistering, withoutRegistering, registers, apart] using
          ih (Nat.lt_succ_of_lt past)

theorem onlyRegistering_split (crew : Nat) (before behind : List (Call σ υ ω)) (extension : ω) :
    onlyRegistering (some (crew + before.countP Call.registers)) crew
        (before ++ .addExtension extension :: behind) =
      withoutRegistering before ++ .addExtension extension :: withoutRegistering behind := by
  induction before generalizing crew with
  | nil =>
      have later := onlyRegistering_past (Nat.lt_succ_self crew) behind
      simp [onlyRegistering, withoutRegistering, Call.registers, later]
  | cons call rest ih =>
      cases registers : call.registers
      · simpa [onlyRegistering, withoutRegistering, registers] using ih crew
      · have next : crew + (rest.countP Call.registers + 1) =
            crew + 1 + rest.countP Call.registers := by omega
        have apart : crew + 1 + rest.countP Call.registers ≠ crew := by omega
        have others := ih (crew + 1)
        simpa [onlyRegistering, withoutRegistering, registers, next, apart] using others

section Calls

variable (e : Emission) (h : Host σ υ ω) {call : Call σ υ ω}

theorem call_separable (talks : call.registers = false) : (call.run e h).Separable := by
  apply call_closed (separable_closed h).toClosed (fun _ _ => rfl) tell_separable
    transfer_separable (fun _ _ _ => rfl)
  rintro extension rfl
  cases talks

theorem call_inTurn (talks : call.registers = false) : (call.run e h).InTurn := by
  apply call_closed (inTurn_closed h).toClosed (.of_silent (fun _ => rfl) fun _ => rfl) tell_inTurn
    transfer_inTurn fun _ => .of_silent (fun _ => rfl) fun _ => rfl
  rintro extension rfl
  cases talks

theorem step_inTurn (call : Call σ υ ω) (m : Machine σ ω) :
    ∃ events, deliveries (stepOf e h m call).trace = rounds m.extensions.length events := by
  cases registers : call.registers with
  | false => exact (call_inTurn e h registers m).2
  | true =>
      cases call with
      | addExtension extension => exact ⟨[], rfl⟩
      | _ => cases registers

theorem stepOf_only (talks : call.registers = false) (place : Option Nat) (m : Machine σ ω) :
    stepOf e h (m.only place) call = (stepOf e h m call).only place := by
  have alone := call_separable e h talks place m
  simp [stepOf, Step.only, alone]

theorem only_addExtension {place : Option Nat} {m : Machine σ ω} (extension : ω)
    (elsewhere : place ≠ some m.extensions.length) :
    (addExtension m extension).only place = m.only place := by
  cases place with
  | none => rfl
  | some k =>
      have apart : k ≠ m.extensions.length := fun here => elsewhere (congrArg some here)
      have same : (m.extensions ++ [extension])[k]? = m.extensions[k]? := by
        rcases Nat.lt_or_gt_of_ne apart with inside | beyond
        · exact List.getElem?_append_left inside
        · rw [List.getElem?_eq_none (by simp; omega), List.getElem?_eq_none (by omega)]
      simp [Machine.only, addExtension, same]

end Calls

/-! ## Runs -/

section Runs

variable (e : Emission) (h : Host σ υ ω)

theorem session_only (place : Option Nat) (calls : List (Call σ υ ω)) (m : Machine σ ω) :
    session e h (m.only place) (onlyRegistering place m.extensions.length calls) =
      ((session e h m calls).filter (Step.stays place)).map (Step.only place) := by
  induction calls generalizing m with
  | nil => rfl
  | cons call rest ih =>
      let step := stepOf e h m call
      have others := ih step.after
      cases registers : call.registers with
      | false =>
          have stays : step.stays place = true := by
            simp [Step.stays, step, stepOf, registers]
          have crew : step.after.extensions.length = m.extensions.length :=
            (call_inTurn e h registers m).1
          have alone : stepOf e h (m.only place) call = step.only place :=
            stepOf_only e h registers place m
          rw [crew] at others
          simp only [onlyRegistering, registers, session]
          rw [if_neg (by simp), session, alone, List.filter_cons_of_pos stays, List.map_cons]
          exact congrArg (step.only place :: ·) others
      | true =>
          obtain ⟨extension, rfl⟩ : ∃ extension, call = .addExtension extension := by
            cases call with
            | addExtension extension => exact ⟨extension, rfl⟩
            | _ => cases registers
          have crew : step.after.extensions.length = m.extensions.length + 1 :=
            List.length_append
          rw [crew] at others
          simp only [onlyRegistering, registers, session, if_true]
          by_cases here : place = some m.extensions.length
          · have stays : step.stays place = true := by
              simp [Step.stays, step, stepOf, here]
            have alone : stepOf e h (m.only place) (.addExtension extension) = step.only place := by
              subst here
              simp [step, stepOf, Step.only, Call.run, Run.bind_apply, Run.change, Machine.only,
                addExtension, traceOnly, Run.pure_apply]
            rw [if_pos here, session, alone, List.filter_cons_of_pos stays, List.map_cons]
            exact congrArg (step.only place :: ·) others
          · have leaves : ¬ step.stays place = true := by
              simp [Step.stays, step, stepOf, registers, here]
            have unmoved : step.after.only place = m.only place := only_addExtension extension here
            rw [if_neg here, List.filter_cons_of_neg leaves, ← unmoved]
            exact others

theorem mem_session {m : Machine σ ω} {calls : List (Call σ υ ω)} {step : Step σ υ ω}
    (made : step ∈ session e h m calls) : step = stepOf e h step.before step.call := by
  induction calls generalizing m with
  | nil => cases made
  | cons call rest ih =>
      rcases List.mem_cons.mp made with rfl | later
      · rfl
      · exact ih later

def heardOver (i : Nat) (steps : List (Step σ υ ω)) : List (Event υ) :=
  steps.flatMap fun step => heardBy i step.trace

theorem heardOver_only (k : Nat) {steps : List (Step σ υ ω)}
    (silent : ∀ step ∈ steps, step.call.registers → step.trace = []) :
    heardOver 0 ((steps.filter (Step.stays (some k))).map (Step.only (some k))) =
      heardOver k steps := by
  induction steps with
  | nil => rfl
  | cons step rest ih =>
      have others := ih fun other later => silent other (List.mem_cons_of_mem _ later)
      have heard : heardOver k (step :: rest) = heardBy k step.trace ++ heardOver k rest := rfl
      rw [heard]
      cases stays : step.stays (some k) with
      | true =>
          rw [List.filter_cons_of_pos stays, ← others, ← heardBy_traceOnly]
          rfl
      | false =>
          have registers : step.call.registers = true := by
            by_contra talks
            simp [Step.stays, talks] at stays
          rw [List.filter_cons_of_neg (by simp [stays]), others,
            silent step List.mem_cons_self registers]
          rfl

/-- Whatever extensions do when they are told of something, and whichever of them panic: the run is
the one without them, each of them hears what it would hear if it were alone, and all of them hear
of an event in the order in which they were registered before any hears of the next. -/
theorem extensions_isolated (state : String) (data : σ) (calls : List (Call σ υ ω)) :
    let run := session e h (start e state data)
    ((run calls).filter (!·.call.registers)).map (Step.only none) =
        run (withoutRegistering calls) ∧
      (∀ before extension behind, calls = before ++ .addExtension extension :: behind →
        heardOver (before.countP Call.registers) (run calls) =
          heardOver 0 (run (withoutRegistering before ++
            .addExtension extension :: withoutRegistering behind))) ∧
      ∀ step ∈ run calls, ∃ events,
        deliveries step.trace = rounds step.before.extensions.length events := by
  intro run
  have fresh (place : Option Nat) :
      (start e state data : Machine σ ω).only place = start e state data := by
    cases place <;> rfl
  refine ⟨?_, ?_, ?_⟩
  · have alone := session_only e h none calls (start e state data)
    rw [fresh, onlyRegistering_none] at alone
    rw [show run (withoutRegistering calls) = _ from alone]
    congr 2
    funext step
    simp [Step.stays]
  · rintro before extension behind rfl
    have alone := session_only e h (some (before.countP Call.registers))
      (before ++ .addExtension extension :: behind) (start e state data)
    have split := onlyRegistering_split 0 before behind extension
    rw [Nat.zero_add] at split
    rw [fresh, show (start e state data : Machine σ ω).extensions.length = 0 from rfl, split]
      at alone
    rw [show run (withoutRegistering before ++ _) = _ from alone]
    refine (heardOver_only _ fun step made registers => ?_).symm
    rw [mem_session e h made]
    cases called : step.call with
    | addExtension extension => rfl
    | _ => simp [called, Call.registers] at registers
  · intro step made
    obtain ⟨events, told⟩ := step_inTurn e h step.call step.before
    rw [← mem_session e h made] at told
    exact ⟨events, told⟩

end Runs

section NervousLamp

def nervousHost : Host Bool Unit Bool where
  isOf := lampHost.isOf
  typeName := lampHost.typeName
  call := lampHost.call
  react nervous _ := (nervous, nervous)

def watching : List (Call Bool Unit Bool) :=
  [.addExtension true, .tryFire "Power" none, .addExtension false, .tryFire "Boost" none]

theorem nervous_watcher_unnoticed :
    let run := session watchedLamp nervousHost (start watchedLamp "Off" false)
    let panics := (run watching).countP fun step =>
      step.trace.any fun | .told (.panicked ..) => true | _ => false
    watchedLamp.Accepted ∧ panics = 2 ∧
      ((run watching).filter (!·.call.registers)).map (Step.only none) =
        run [.tryFire "Power" none, .tryFire "Boost" none] ∧
      heardOver 1 (run watching) = heardOver 0 (run
        [.tryFire "Power" none, .addExtension false, .tryFire "Boost" none]) ∧
      (heardOver 1 (run watching)).map (fun event => (event.attempt.source, event.hook)) =
        [("Low", .before), ("Low", .after true)] := by
  intro run panics
  obtain ⟨without, alone, _⟩ :=
    extensions_isolated watchedLamp nervousHost "Off" false watching
  have second := alone [.addExtension true, .tryFire "Power" none] false [.tryFire "Boost" none] rfl
  exact ⟨watchedLamp_accepted, by decide +kernel, without, second, by decide +kernel⟩

end NervousLamp

end Execution

end Statewright
