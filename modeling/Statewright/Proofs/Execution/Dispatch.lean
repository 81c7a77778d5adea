import Statewright.Proofs.Execution.Settled

/-!
# Dispatch

Firing a trigger selects a candidate and takes it. The selection asks guards, innermost candidate
first, and changes nothing but the data; only what was selected is taken.
-/

namespace Statewright

variable {σ υ ω : Type}

def Host.verdict (h : Host σ υ ω) (payload : Option υ) (t : Transition) (data : σ) : Bool × σ :=
  match t.guard with
  | none => (true, data)
  | some guard =>
    match h.given? guard payload with
    | none => (false, data)
    | some given =>
      match h.call guard given data with
      | (.holds, next) => (true, next)
      | (.refuses, next) => (false, next)
      | (.fails _, next) => (!guard.fallible, next)

inductive Host.Refuses (h : Host σ υ ω) (payload : Option υ) : List Transition → σ → σ → Prop
  | nil {data : σ} : h.Refuses payload [] data data
  | cons {t : Transition} {rest : List Transition} {data next last : σ} :
      h.verdict payload t data = (false, next) → h.Refuses payload rest next last →
        h.Refuses payload (t :: rest) data last

def Host.asks (h : Host σ υ ω) (payload : Option υ) (candidates : List Transition) :
    List (Callback × Option υ) :=
  h.calls payload (candidates.filterMap Transition.guard)

theorem Host.asks_append (h : Host σ υ ω) (payload : Option υ) (first rest : List Transition) :
    h.asks payload (first ++ rest) = h.asks payload first ++ h.asks payload rest := by
  simp [asks]

/-- Answer and data come out of the data alone, and these are the calls. -/
def Run.Computes {α : Type} (r : Run σ υ ω α) (f : σ → α × σ) (calls : List (Callback × Option υ)) :
    Prop :=
  ∀ m, ((r m).1, (r m).2.1.data) = f m.data ∧ callsIn (r m).2.2 = calls

namespace Run.Computes

variable {α : Type} {r : Run σ υ ω α} {f : σ → α × σ} {calls : List (Callback × Option υ)}

theorem before {notice : Run σ υ ω Unit} (quiet : notice.Computes (fun data => ((), data)) [])
    (computes : r.Computes f calls) : (notice >>= fun _ => r).Computes f calls := by
  intro m
  obtain ⟨data, silent⟩ := quiet m
  obtain ⟨answer, called⟩ := computes (notice m).2.1
  have same : (notice m).2.1.data = m.data := congrArg Prod.snd data
  rw [same] at answer
  exact ⟨answer, by rw [bind_apply, callsIn_append, silent, called]; rfl⟩

theorem behind {notice : α → Run σ υ ω Unit} (computes : r.Computes f calls)
    (quiet : ∀ a, (notice a).Computes (fun data => ((), data)) []) :
    (r >>= fun a => notice a >>= fun _ => pure a).Computes f calls := by
  intro m
  obtain ⟨answer, called⟩ := computes m
  obtain ⟨data, silent⟩ := quiet (r m).1 (r m).2.1
  constructor
  · have same : (notice (r m).1 (r m).2.1).2.1.data = (r m).2.1.data := congrArg Prod.snd data
    rw [← answer]
    exact congrArg (Prod.mk (r m).1) same
  · simp only [bind_apply, pure_apply, callsIn_append, silent, called]
    exact List.append_nil calls

end Run.Computes

namespace Execution

variable (e : Emission) (h : Host σ υ ω) (state : String) (payload : Option υ)

def attemptOf (t : Transition) : Attempt υ :=
  { source := state, trigger := t.trigger, target := t.target, payload }

def inquire (t : Transition) : Run σ υ ω Bool := do
  tell e h (attemptOf state payload t) .before
  allowed e h (attemptOf state payload t) t

def select : List Transition → Run σ υ ω (Option Transition)
  | [] => pure none
  | t :: rest => do
    if ← inquire e h state payload t then pure (some t)
    else
      tell e h (attemptOf state payload t) (.after false)
      select rest

def conclude : Option Transition → Run σ υ ω Bool
  | none => pure false
  | some t => do
    let taken ← transfer e h payload t
    tell e h (attemptOf state payload t) (.after taken)
    pure taken

theorem tryCandidates_eq (candidates : List Transition) :
    tryCandidates e h state payload candidates =
      select e h state payload candidates >>= conclude e h state payload := by
  induction candidates with
  | nil => rfl
  | cons t rest ih =>
      simp only [tryCandidates, attempt, select, inquire, attemptOf, bind_assoc]
      refine bind_congr fun _ => bind_congr fun allows => ?_
      cases allows with
      | false => simp [ih]
      | true =>
          simp only [if_true, conclude, bind_assoc, pure_bind]
          refine bind_congr fun taken => ?_
          cases taken <;> simp [attemptOf]

theorem select_consulted (candidates : List Transition) :
    (select e h state payload (consulted candidates) : Run σ υ ω _) =
      select e h state payload candidates := by
  induction candidates with
  | nil => rfl
  | cons t rest ih =>
      cases guard : t.guard with
      | none => simp [consulted, select, inquire, allowed, guard]
      | some g => simp [consulted, select, guard, ih]

end Execution

namespace Run.Closed

open Execution

variable {e : Emission} {h : Host σ υ ω} {P : {α : Type} → Run σ υ ω α → Prop}
  (closed : Run.Closed h P) (payload : Option υ) (tells : ∀ a hook, P (tell e h a hook))
include closed tells

theorem inquire (state : String) (t : Transition) : P (inquire e h state payload t) := by
  refine closed.bind (tells _ .before) fun _ => ?_
  unfold allowed
  split
  · exact closed.pure true
  · exact closed.bind (tells _ _) fun _ => closed.bind (closed.allows _ _) fun _ =>
      closed.bind (tells _ _) fun _ => closed.pure _

theorem select (state : String) (candidates : List Transition) :
    P (select e h state payload candidates) := by
  induction candidates with
  | nil => exact closed.pure none
  | cons t rest ih =>
      refine closed.bind (closed.inquire payload tells state t) fun allows => ?_
      cases allows with
      | false => exact closed.bind (tells _ _) fun _ => ih
      | true => exact closed.pure (some t)

theorem tryFire (current : P (Run.read Machine.state))
    (transfers : ∀ given t, P (transfer e h given t)) (trigger : String) :
    P (tryFire e h trigger payload) := by
  rw [Execution.tryFire]
  split
  · refine closed.bind current fun state => ?_
    rw [tryCandidates_eq]
    refine closed.bind (closed.select _ tells state _) fun found => ?_
    cases found with
    | none => exact closed.pure false
    | some t =>
        exact closed.bind (transfers _ t) fun taken => closed.bind (tells _ _) fun _ =>
          closed.pure taken
  · exact closed.pure false

end Run.Closed

namespace Execution

variable (e : Emission) (h : Host σ υ ω) (state : String) (payload : Option υ)

section Asking

variable (a : Attempt υ) (hook : Hook) (t : Transition) (candidates : List Transition)

theorem tell_still : (tell e h a hook : Run σ υ ω Unit).Still := by
  unfold tell
  split
  · exact h.tell_still a hook
  · exact .pure ()

theorem select_still : (select e h state payload candidates).Still :=
  (still_closed h).select payload (tell_still e h) state candidates

theorem tell_computes :
    (tell e h a hook : Run σ υ ω Unit).Computes (fun data => ((), data)) [] := by
  intro m
  unfold tell
  split
  · exact ⟨rfl, by simp [Host.tell, callsIn, TraceEntry.call?]⟩
  · exact ⟨rfl, rfl⟩

theorem allows_computes {guard : Callback} (guarded : t.guard = some guard) :
    (h.allows guard payload : Run σ υ ω Bool).Computes (h.verdict payload t)
      (h.asks payload [t]) := by
  intro m
  unfold Host.allows Host.verdict
  rw [guarded]
  cases allotted : h.given? guard payload with
  | none => simp [Run.pure_apply, Host.asks, Host.calls, guarded, allotted, callsIn]
  | some given =>
      have asked : h.asks payload [t] = [(guard, given)] := by
        simp [Host.asks, Host.calls, guarded, allotted]
      rcases answered : h.call guard given m.data with ⟨answer, data⟩
      simp only [Run.bind_apply, Host.invoke, allotted, answered, asked]
      cases answer with
      | holds => exact ⟨rfl, rfl⟩
      | refuses => exact ⟨rfl, rfl⟩
      | fails error => cases fallible : guard.fallible <;> exact ⟨rfl, rfl⟩

theorem allowed_computes :
    (allowed e h a t : Run σ υ ω Bool).Computes (h.verdict a.payload t)
      (h.asks a.payload [t]) := by
  unfold allowed
  cases guarded : t.guard with
  | none =>
      intro m
      simp [Run.pure_apply, Host.verdict, guarded, Host.asks, Host.calls, callsIn]
  | some guard =>
      apply (tell_computes e h a _).before
      apply (allows_computes h a.payload t guarded).behind
      exact fun holds => tell_computes e h a (.evaluated guard.name holds)

theorem inquire_computes :
    (inquire e h state payload t : Run σ υ ω Bool).Computes (h.verdict payload t)
      (h.asks payload [t]) := by
  apply (tell_computes e h (attemptOf state payload t) .before).before
  exact allowed_computes e h (attemptOf state payload t) t

section Steps

variable {e h state payload} {t : Transition} {rest : List Transition} {m n : Machine σ ω}
  {trace : List (TraceEntry υ)}

theorem select_allowed (inquired : inquire e h state payload t m = (true, n, trace)) :
    select e h state payload (t :: rest) m = (some t, n, trace) := by
  rw [select, Run.bind_apply, inquired]
  show (some t, n, trace ++ []) = _
  rw [List.append_nil]

theorem select_refused {ready : Machine σ ω} {notices : List (TraceEntry υ)}
    (inquired : inquire e h state payload t m = (false, n, trace))
    (narrated : tell e h (attemptOf state payload t) (.after false) n = ((), ready, notices)) :
    select e h state payload (t :: rest) m =
      ((select e h state payload rest ready).1, (select e h state payload rest ready).2.1,
        trace ++ (notices ++ (select e h state payload rest ready).2.2)) := by
  rw [select, Run.bind_apply, inquired]
  show ((tell e h (attemptOf state payload t) (.after false) >>= fun _ =>
    select e h state payload rest) n).map id (Prod.map id (trace ++ ·)) = _
  rw [Run.bind_apply, narrated]
  rfl

end Steps

theorem select_outcome (m : Machine σ ω) :
    ((select e h state payload candidates m).1 = none ∧
        h.Refuses payload candidates m.data (select e h state payload candidates m).2.1.data ∧
        callsIn (select e h state payload candidates m).2.2 = h.asks payload candidates) ∨
      ∃ t refused rest asked, (select e h state payload candidates m).1 = some t ∧
        candidates = refused ++ t :: rest ∧ h.Refuses payload refused m.data asked ∧
        h.verdict payload t asked = (true, (select e h state payload candidates m).2.1.data) ∧
        callsIn (select e h state payload candidates m).2.2 = h.asks payload (refused ++ [t]) := by
  induction candidates generalizing m with
  | nil => exact .inl ⟨rfl, .nil, rfl⟩
  | cons t rest ih =>
      obtain ⟨verdict, called⟩ := inquire_computes e h state payload t m
      rcases inquired : inquire e h state payload t m with ⟨allows, n, trace⟩
      rw [inquired] at verdict called
      cases allows with
      | true =>
          rw [select_allowed inquired]
          exact .inr ⟨t, [], rest, m.data, rfl, rfl, .nil, verdict.symm, called⟩
      | false =>
          obtain ⟨same, silent⟩ := tell_computes e h (attemptOf state payload t) (.after false) n
          rcases narrated : tell e h (attemptOf state payload t) (.after false) n with
            ⟨_, ready, notices⟩
          rw [narrated] at same silent
          have data : ready.data = n.data := congrArg Prod.snd same
          rw [select_refused inquired narrated]
          simp only [callsIn_append, called, silent, List.nil_append]
          rcases ih ready with ⟨nothing, refuses, after⟩ |
            ⟨u, refused, tail, asked, found, split, refuses, allowed, after⟩
          · refine .inl ⟨nothing, .cons verdict.symm (data ▸ refuses), ?_⟩
            rw [after, ← h.asks_append]
            rfl
          · refine .inr ⟨u, t :: refused, tail, asked, found, congrArg (t :: ·) split,
              .cons verdict.symm (data ▸ refuses), allowed, ?_⟩
            rw [after, ← h.asks_append]
            rfl

end Asking

/-! ## Firing -/

theorem tryFire_eq (trigger : String) (m : Machine σ ω) :
    tryFire e h trigger payload m =
      if passes e h trigger (visible e payload) then
        (select e h m.state (visible e payload) (e.model.candidatesOn m.state trigger) >>=
          conclude e h m.state (visible e payload)) m
      else (false, m, []) := by
  rw [← select_consulted, ← tryCandidates_eq, tryFire]
  split <;> rfl

def chosen? (trigger : String) (m : Machine σ ω) : Option Transition :=
  if passes e h trigger (visible e payload) then
    (select e h m.state (visible e payload) (e.model.candidatesOn m.state trigger) m).1
  else none

section Accepted

variable {e} (accepted : e.Accepted)
include accepted

theorem course_roles {t : Transition} (member : t ∈ e.model.transitions) (m : Machine σ ω)
    {c : Callback} (planned : c ∈ (course e t m).calls) : c.role ≠ .guard := by
  have through (left : List Nat) (exited entered : List String) (arrival : String)
      (planned : c ∈ (courseThrough e t left exited entered arrival).calls) : c.role ≠ .guard := by
    have walks := accepted.walkRoles
    simp only [courseThrough, List.mem_append, List.mem_filterMap, Option.bind_eq_some_iff,
      Option.mem_toList] at planned
    rcases planned with (⟨_, _, s, known, callback⟩ | action) | ⟨_, _, s, known, callback⟩
    · simp [(walks s (List.mem_of_find?_eq_some known)).2 c callback]
    · simp [(accepted.edgeRoles t member).2 c action]
    · simp [(walks s (List.mem_of_find?_eq_some known)).1 c callback]
  unfold course at planned
  split at planned
  · exact through _ _ _ _ planned
  · split at planned <;> exact through _ _ _ _ planned

theorem asks_roles {candidates : List Transition}
    (registered : ∀ t ∈ candidates, t ∈ e.model.transitions) :
    ∀ call ∈ h.asks payload candidates, call.1.role = .guard := by
  intro call member
  obtain ⟨guard, listed, given⟩ := List.mem_filterMap.mp member
  obtain ⟨t, inside, guarded⟩ := List.mem_filterMap.mp listed
  obtain ⟨_, _, rfl⟩ := Option.map_eq_some_iff.mp given
  exact (accepted.edgeRoles t (registered t inside)).1 guard guarded

end Accepted

end Execution

end Statewright
