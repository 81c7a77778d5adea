import Statewright.Proofs.Execution.Session

/-!
# Narration

What an extension is told of a call: one block of events for each candidate that is attempted, in
order. A block opens with `before` and the question to the guard, if there is one, and ends with
`after`; only the last block of a call can end in success, and does so exactly if the call takes a
transition.
-/

namespace Statewright

variable {σ υ ω α β : Type}

def TraceEntry.heardBy? (i : Nat) : TraceEntry υ → Option (Event υ)
  | .told (.delivered j event) => if j = i then some event else none
  | _ => none

def heardBy (i : Nat) (trace : List (TraceEntry υ)) : List (Event υ) :=
  trace.filterMap (TraceEntry.heardBy? i)

@[simp] theorem heardBy_append (i : Nat) (first rest : List (TraceEntry υ)) :
    heardBy i (first ++ rest) = heardBy i first ++ heardBy i rest :=
  List.filterMap_append

structure Run.Unheard (r : Run σ υ ω α) : Prop where
  extensions m : (r m).2.1.extensions = m.extensions
  silent i m : heardBy i (r m).2.2 = []

theorem unheard_closed (h : Host σ υ ω) : Run.MoveClosed h Run.Unheard where
  pure _ := ⟨fun _ => rfl, fun _ _ => rfl⟩
  bind {α β r f} first rest := by
    constructor
    · exact fun m => ((rest _).extensions _).trans (first.extensions m)
    · intro i m
      rw [Run.bind_apply, heardBy_append, first.silent, (rest _).silent]
      rfl
  invoke _ _ := ⟨fun _ => rfl, fun _ _ => rfl⟩
  guardFailed _ _ := ⟨fun _ => rfl, fun _ _ => rfl⟩
  log entry untold := by
    refine ⟨fun _ => rfl, fun i m => ?_⟩
    cases entry with
    | told notice => cases untold
    | _ => rfl
  settle _ := ⟨fun _ => rfl, fun _ _ => rfl⟩

namespace Execution

theorem transfer_unheard (e : Emission) (h : Host σ υ ω) (payload : Option υ) (t : Transition) :
    (transfer e h payload t).Unheard := by
  have followed (move : Hierarchy.Move) : (follow e h payload t move).Unheard :=
    (unheard_closed h).follow e payload (fun _ => ⟨fun _ => rfl, fun _ _ => rfl⟩) t move
  constructor <;> intros <;> rw [transfer_follow]
  · exact (followed _).extensions _
  · exact (followed _).silent _ _

def Steady {α : Type} (r : Run σ υ ω α) : Prop :=
  ∀ m, (r m).2.1.extensions.length = m.extensions.length

theorem Steady.of_unheard {r : Run σ υ ω α} (unheard : r.Unheard) : Steady r :=
  fun m => congrArg List.length (unheard.extensions m)

theorem steady_closed (h : Host σ υ ω) : Run.Closed h Steady where
  pure _ := fun _ => rfl
  bind first rest := fun m => (rest _ _).trans (first m)
  invoke _ _ := fun _ => rfl
  guardFailed _ _ := fun _ => rfl

section Notices

theorem notifyFrom_length (react : Reaction ω υ) (event : Event υ) (first : Nat)
    (extensions : List ω) :
    (notifyFrom react event first extensions).1.length = extensions.length := by
  induction extensions generalizing first with
  | nil => rfl
  | cons extension rest ih => exact congrArg (· + 1) (ih (first + 1))

theorem notifyFrom_heard (react : Reaction ω υ) (event : Event υ) (i first : Nat)
    (extensions : List ω) :
    heardBy i ((notifyFrom react event first extensions).2.map .told) =
      if first ≤ i ∧ i < first + extensions.length then [event] else [] := by
  induction extensions generalizing first with
  | nil =>
      have nobody : ¬(first ≤ i ∧ i < first + ([] : List ω).length) := by simp
      rw [if_neg nobody]
      rfl
  | cons extension rest ih =>
      have panic (panics : Bool) :
          heardBy i ((if panics then [.panicked first event] else []).map .told) = [] := by
        cases panics <;> rfl
      simp only [notifyFrom, List.map_cons, List.map_append, List.length_cons,
        List.cons_append] at ih ⊢
      rw [heardBy, List.filterMap_cons, ← heardBy, heardBy_append, panic, ih]
      by_cases here : first = i
      · subst here
        simp [TraceEntry.heardBy?]
      · simp only [TraceEntry.heardBy?, if_neg here, List.nil_append]
        congr 1
        simp only [eq_iff_iff]
        omega

variable {e : Emission} {h : Host σ υ ω}

theorem tell_steady (a : Attempt υ) (hook : Hook) : Steady (tell e h a hook) := by
  unfold tell
  split
  · exact fun m => notifyFrom_length h.react ⟨a, hook⟩ 0 m.extensions
  · exact fun _ => rfl

theorem tell_heard (observed : e.isObserved) (a : Attempt υ) (hook : Hook) {m : Machine σ ω}
    {i : Nat} (registered : i < m.extensions.length) :
    heardBy i (tell e h a hook m).2.2 = [⟨a, hook⟩] := by
  rw [tell, if_pos observed]
  refine (notifyFrom_heard h.react ⟨a, hook⟩ i 0 m.extensions).trans ?_
  simp [registered]

end Notices

/-! ## Blocks -/

def consultation (a : Attempt υ) (allows : Bool) : Option Callback → List (Event υ)
  | none => []
  | some guard => [⟨a, .evaluation guard.name⟩, ⟨a, .evaluated guard.name allows⟩]

/-- What is told of a candidate up to the answer of its guard. -/
def opening (state : String) (payload : Option υ) (allows : Bool) (t : Transition) :
    List (Event υ) :=
  ⟨attemptOf state payload t, .before⟩ :: consultation (attemptOf state payload t) allows t.guard

def block (state : String) (payload : Option υ) (allows taken : Bool) (t : Transition) :
    List (Event υ) :=
  opening state payload allows t ++ [⟨attemptOf state payload t, .after taken⟩]

/-- A success is told once if there is one, as the last thing of all. -/
def Closes (events : List (Event υ)) (taken : Bool) : Prop :=
  (∀ first event rest, events = first ++ event :: rest → event.hook = .after true → rest = []) ∧
    ((∃ event ∈ events, event.hook = .after true) ↔ taken)

/-- The candidates were refused one after the other, all of them or those in front of the first that
its guard allowed. -/
def Narrates (h : Host σ υ ω) (state : String) (payload : Option υ) (candidates : List Transition)
    (data : σ) (taken : Bool) (events : List (Event υ)) : Prop :=
  (taken = false ∧ (∃ last, h.Refuses payload candidates data last) ∧
      events = candidates.flatMap (block state payload false false)) ∨
    ∃ refused t rest asked, candidates = refused ++ t :: rest ∧
      h.Refuses payload refused data asked ∧ (h.verdict payload t asked).1 ∧
      events = refused.flatMap (block state payload false false) ++
        block state payload true taken t

section Blocks

variable (state : String) (payload : Option υ) (t : Transition)

theorem opening_quiet {allows : Bool} {event : Event υ}
    (told : event ∈ opening state payload allows t) : event.hook ≠ .after true := by
  unfold opening at told
  cases guarded : t.guard with
  | none =>
      obtain rfl : event = _ := by simpa [guarded, consultation] using told
      simp
  | some guard =>
      simp only [guarded, consultation, List.mem_cons, List.not_mem_nil, or_false] at told
      rcases told with rfl | rfl | rfl <;> simp

theorem denied_quiet {refused : List Transition} {event : Event υ}
    (told : event ∈ refused.flatMap (block state payload false false)) :
    event.hook ≠ .after true := by
  obtain ⟨t, _, told⟩ := List.mem_flatMap.mp told
  rcases List.mem_append.mp told with opened | closed
  · exact opening_quiet state payload t opened
  · obtain rfl := List.mem_singleton.mp closed
    simp

theorem closes_quiet {events : List (Event υ)}
    (quiet : ∀ event ∈ events, event.hook ≠ .after true) : Closes events false := by
  constructor
  · rintro first event rest rfl succeeds
    exact absurd succeeds (quiet event (by simp))
  · simpa using quiet

theorem closes_last {events : List (Event υ)}
    (quiet : ∀ event ∈ events, event.hook ≠ .after true) (a : Attempt υ) (taken : Bool) :
    Closes (events ++ [⟨a, .after taken⟩]) taken := by
  constructor
  · intro first event rest split succeeds
    rcases List.eq_nil_or_concat rest with rfl | ⟨body, last, rfl⟩
    · rfl
    · have ending : events ++ [⟨a, .after taken⟩] = (first ++ event :: body) ++ [last] := by
        simp [split]
      obtain ⟨rfl, _⟩ := List.append_inj' ending rfl
      exact absurd succeeds (quiet event (by simp))
  · constructor
    · rintro ⟨event, told, succeeds⟩
      rcases List.mem_append.mp told with earlier | last
      · exact absurd succeeds (quiet event earlier)
      · obtain rfl := List.mem_singleton.mp last
        simpa using succeeds
    · rintro rfl
      exact ⟨_, List.mem_append_right _ List.mem_cons_self, rfl⟩

variable {state payload} {h : Host σ υ ω} {candidates : List Transition} {data : σ} {taken : Bool}
  {events : List (Event υ)}

theorem Narrates.closes (narrates : Narrates h state payload candidates data taken events) :
    Closes events taken := by
  rcases narrates with ⟨rfl, _, rfl⟩ | ⟨refused, t, _, _, _, _, _, rfl⟩
  · exact closes_quiet fun _ => denied_quiet state payload
  · rw [block, ← List.append_assoc]
    apply closes_last
    intro event earlier
    rcases List.mem_append.mp earlier with before | opened
    · exact denied_quiet state payload before
    · exact opening_quiet state payload t opened

theorem Narrates.nothing (narrates : Narrates h state payload [] data taken events) :
    events = [] := by
  rcases narrates with ⟨_, _, rfl⟩ | ⟨refused, t, rest, _, split, _⟩
  · rfl
  · simp at split

end Blocks

section Telling

variable {e : Emission} {h : Host σ υ ω} (observed : e.isObserved) {i : Nat}
include observed

theorem allowed_heard (a : Attempt υ) (t : Transition) {m : Machine σ ω}
    (registered : i < m.extensions.length) :
    heardBy i (allowed e h a t m).2.2 = consultation a (allowed e h a t m).1 t.guard := by
  unfold allowed
  cases guarded : t.guard with
  | none => rfl
  | some guard =>
      let asked := (tell e h a (.evaluation guard.name) m).2.1
      let answered := (h.allows guard a.payload asked).2.1
      have still : i < asked.extensions.length := by
        rwa [tell_steady]
      have remains : i < answered.extensions.length := by
        rwa [((unheard_closed h).allows guard a.payload).extensions]
      simp only [Run.bind_apply, Run.pure_apply, heardBy_append, consultation]
      rw [tell_heard observed a _ registered, tell_heard observed a _ remains,
        ((unheard_closed h).allows guard a.payload).silent]
      rfl

variable (state : String) (payload : Option υ)

theorem inquire_heard (t : Transition) {m : Machine σ ω} (registered : i < m.extensions.length) :
    heardBy i (inquire e h state payload t m).2.2 =
      opening state payload (inquire e h state payload t m).1 t := by
  have remains : i < (tell e h (attemptOf state payload t) .before m).2.1.extensions.length := by
    rwa [tell_steady]
  unfold inquire
  rw [Run.bind_apply, heardBy_append, tell_heard observed _ _ registered,
    allowed_heard observed _ t remains]
  rfl

theorem select_refusing {refused : List Transition} {data asked : σ}
    (refuses : h.Refuses payload refused data asked) (more : List Transition) {m : Machine σ ω}
    (same : m.data = data) (registered : i < m.extensions.length) :
    ∃ n notices, n.data = asked ∧ i < n.extensions.length ∧
      heardBy i notices = refused.flatMap (block state payload false false) ∧
      select e h state payload (refused ++ more) m =
        ((select e h state payload more n).1, (select e h state payload more n).2.1,
          notices ++ (select e h state payload more n).2.2) := by
  induction refuses generalizing m with
  | nil => exact ⟨m, [], same, registered, rfl, rfl⟩
  | @cons t rest data next asked denied refuses ih =>
      have verdict := (inquire_computes e h state payload t m).1
      have heard := inquire_heard observed (h := h) state payload t registered
      have crew : (inquire e h state payload t m).2.1.extensions.length = m.extensions.length :=
        (steady_closed h).inquire payload tell_steady state t m
      rw [same, denied] at verdict
      rcases inquired : inquire e h state payload t m with ⟨allows, n, trace⟩
      rw [inquired] at verdict heard crew
      obtain ⟨rfl, rfl⟩ := Prod.mk.inj verdict
      have remains : i < n.extensions.length := by rwa [crew]
      have kept : (tell e h (attemptOf state payload t) (.after false) n).2.1.data = n.data :=
        congrArg Prod.snd (tell_computes e h _ _ n).1
      have told := tell_heard observed (h := h) (attemptOf state payload t) (.after false) remains
      have steady := tell_steady (e := e) (h := h) (attemptOf state payload t) (.after false) n
      rcases narrated : tell e h (attemptOf state payload t) (.after false) n with
        ⟨_, ready, notices⟩
      rw [narrated] at kept told steady
      obtain ⟨last, others, ready, left, blocks, found⟩ := ih kept (steady ▸ remains)
      refine ⟨last, trace ++ (notices ++ others), ready, left, ?_, ?_⟩
      · rw [heardBy_append, heardBy_append, heard, told, blocks]
        simp [block]
      · rw [List.cons_append, select_refused inquired narrated, found]
        simp

end Telling

/-! ## Calls -/

theorem conclude_heard {e : Emission} {h : Host σ υ ω} (observed : e.isObserved) {i : Nat}
    (state : String) (payload : Option υ) (t : Transition) {m : Machine σ ω}
    (registered : i < m.extensions.length) :
    heardBy i (conclude e h state payload (some t) m).2.2 =
      [⟨attemptOf state payload t, .after (conclude e h state payload (some t) m).1⟩] := by
  have unheard := transfer_unheard e h payload t
  have remains : i < (transfer e h payload t m).2.1.extensions.length := by
    rwa [unheard.extensions]
  have told := tell_heard observed (h := h) (attemptOf state payload t)
    (.after (transfer e h payload t m).1) remains
  simp only [conclude, Run.bind_apply, Run.pure_apply, heardBy_append, unheard.silent, told]
  rfl

theorem idle_unheard (e : Emission) (h : Host σ υ ω) {call : Call σ υ ω}
    (idle : call.fires? = none) (i : Nat) (m : Machine σ ω) :
    heardBy i (call.run e h m).2.2 = [] := by
  have closed := unheard_closed h
  have reads : (Run.read Machine.state : Run σ υ ω String).Unheard :=
    ⟨fun _ => rfl, fun _ _ => rfl⟩
  cases call with
  | tryFire trigger payload => cases idle
  | fire trigger payload => cases idle
  | canFire trigger payload =>
      exact (closed.bind (closed.canFire e reads trigger payload) fun _ => closed.pure _).silent i m
  | permittedTriggers =>
      exact (closed.bind (closed.permittedTriggers e reads) fun _ => closed.pure _).silent i m
  | _ => rfl

theorem tryFire_heard {e : Emission} (observed : e.isObserved) (h : Host σ υ ω) {trigger : String}
    {payload : Option υ} {m : Machine σ ω} {i : Nat} (registered : i < m.extensions.length)
    (passed : passes e h trigger (visible e payload)) {taken : Bool} {n : Machine σ ω}
    {trace : List (TraceEntry υ)} (fired : tryFire e h trigger payload m = (taken, n, trace)) :
    Narrates h m.state (visible e payload) (e.model.candidatesOn m.state trigger) m.data taken
      (heardBy i trace) := by
  let given := visible e payload
  let candidates := e.model.candidatesOn m.state trigger
  rw [tryFire_eq, if_pos passed, Run.bind_apply] at fired
  rcases select_outcome e h m.state given candidates m with
    ⟨nothing, refuses, _⟩ | ⟨t, refused, rest, asked, found, split, refuses, verdict, _⟩
  · left
    obtain ⟨n, notices, _, _, blocks, selected⟩ :=
      select_refusing observed m.state given refuses [] rfl registered
    rw [List.append_nil] at selected
    rw [selected] at fired
    cases fired
    refine ⟨rfl, ⟨_, refuses⟩, ?_⟩
    show heardBy i ((notices ++ []) ++ []) = _
    simpa using blocks
  · right
    obtain ⟨n, notices, data, remains, blocks, selected⟩ :=
      select_refusing observed m.state given refuses (t :: rest) rfl registered
    have answered := (inquire_computes e h m.state given t n).1
    have heard := inquire_heard observed (h := h) m.state given t remains
    have crew : (inquire e h m.state given t n).2.1.extensions.length = n.extensions.length :=
      (steady_closed h).inquire given tell_steady m.state t n
    rw [data, verdict] at answered
    rcases inquired : inquire e h m.state given t n with ⟨allows, ready, trace⟩
    rw [inquired] at answered heard crew
    obtain ⟨rfl, _⟩ := Prod.mk.inj answered
    have closing := conclude_heard observed (h := h) m.state given t (crew ▸ remains)
    rw [← split, select_allowed inquired] at selected
    rw [selected] at fired
    cases fired
    refine ⟨refused, t, rest, asked, split, refuses, by rw [verdict], ?_⟩
    simp [blocks, heard, closing, block, given]

/-- An extension is told of the candidates that are attempted, block by block: of those that their
guards refuse, and of the first that is allowed, which ends the call. -/
theorem attempts_narrated {e : Emission} (observed : e.isObserved) (h : Host σ υ ω)
    {m : Machine σ ω} {i : Nat} (registered : i < m.extensions.length) (call : Call σ υ ω) :
    let step := stepOf e h m call
    let events := heardBy i step.trace
    Closes events step.committed ∧ (call.fires? = none → events = []) ∧
      ∀ trigger payload, call.fires? = some (trigger, payload) →
        let given := visible e payload
        let candidates := e.model.candidatesOn m.state trigger
        (passes e h trigger given = false ∨ candidates = [] → events = []) ∧
        (passes e h trigger given →
          Narrates h m.state given candidates m.data step.committed events) := by
  intro step events
  cases fires : call.fires? with
  | none =>
      have silent : events = [] := idle_unheard e h fires i m
      refine ⟨?_, fun _ => silent, nofun⟩
      rw [silent, show step.committed = false from idle_committed fires m]
      exact closes_quiet (by simp)
  | some attempt =>
      obtain ⟨trigger, payload⟩ := attempt
      obtain ⟨run, committed⟩ := call_fires (h := h) (e := e) fires m
      rcases fired : tryFire e h trigger payload m with ⟨taken, n, trace⟩
      rw [fired] at run committed
      have heard : events = heardBy i trace := congrArg (fun ran => heardBy i ran.2) run
      have success : step.committed = taken := committed
      rw [heard, success]
      cases passed : passes e h trigger (visible e payload) with
      | false =>
          rw [tryFire_eq, passed] at fired
          cases fired
          refine ⟨closes_quiet nofun, nofun, ?_⟩
          rintro _ _ ⟨⟩
          exact ⟨fun _ => rfl, fun passes => by simp [passed] at passes⟩
      | true =>
          have told := tryFire_heard observed h registered passed fired
          refine ⟨told.closes, nofun, ?_⟩
          rintro _ _ ⟨⟩
          refine ⟨?_, fun _ => told⟩
          rintro (fails | none)
          · simp [passed] at fails
          · rw [none] at told
            exact told.nothing

section WatchedLamp

open Declaration

def watchedLampFacts : MachineFacts :=
  { lampFacts with
    declarations :=
      ⟨.machine { state := some (.word "State"), trigger := some (.word "Trigger"),
                  extensions := true }, ⟨1, 0⟩⟩ :: lampFacts.declarations.tail }

def watchedLamp : Emission where
  model := { lamp.model with
    config := { variant := .withExtensions, hasEntryExit := true, extensionsRequested := true,
                hierarchy := true } }
  variant := .withExtensions
  payload := .none

theorem watchedLamp_accepted : watchedLamp.Accepted := ⟨watchedLampFacts, lampModule, rfl, rfl⟩

theorem watched_lamp_goes_off :
    let m := after watchedLamp lampHost (start watchedLamp "Off" false)
      (.addExtension () :: brighten)
    let step := stepOf watchedLamp lampHost m (.tryFire "Power" none)
    let events := heardBy 0 step.trace
    watchedLamp.Accepted ∧ watchedLamp.isObserved ∧ 0 < m.extensions.length ∧
      Closes events true ∧
      events.map (fun event => (event.attempt.source, event.attempt.target, event.hook)) =
        [("High", "Low", .before), ("High", "Low", .evaluation "hot"),
         ("High", "Low", .evaluated "hot" false), ("High", "Low", .after false),
         ("High", "Off", .before), ("High", "Off", .after true)] := by
  intro m step events
  have registered : 0 < m.extensions.length := by decide +kernel
  have committed : step.committed = true := by decide +kernel
  have observed : watchedLamp.isObserved := rfl
  have closes := (attempts_narrated observed lampHost registered (.tryFire "Power" none)).1
  exact ⟨watchedLamp_accepted, observed, registered, committed ▸ closes, by decide +kernel⟩

end WatchedLamp

end Execution

end Statewright
