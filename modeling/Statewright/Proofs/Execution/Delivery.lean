import Statewright.Proofs.Execution.Filter

/-!
# Delivery of payloads

A payload that is let through reaches every guard and action that takes one, whatever spelling of
its type they take it by: the builder has compared the spelling with the type that is enforced.
Without a payload, what needs one is not called.
-/

namespace Statewright

open Grammar

variable {σ υ ω : Type}

def Model.writtenTypes (m : Model) : List Ty :=
  m.defaultPayload.toList ++ m.triggerPayloads.map Prod.snd ++
    m.callbacks.filterMap fun c => c.payload.type?

/-- Types of the machine that are spelled alike have the same values. -/
def Host.Unifies (h : Host σ υ ω) (m : Model) : Prop :=
  ∀ a ∈ m.writtenTypes, ∀ b ∈ m.writtenTypes, a.same b → ∀ p, h.isOf p a = h.isOf p b

def Callback.needsPayload (c : Callback) : Bool :=
  match c.payload with
  | .required _ => true
  | _ => false

def handed (p : υ) (c : Callback) : Callback × Option υ :=
  (c, if c.expectsPayload then some p else none)

def unfed (plan : List Callback) : List (Callback × Option υ) :=
  (plan.filter (!·.needsPayload)).map fun c => (c, none)

section Calls

variable (h : Host σ υ ω)

theorem given?_handed {c : Callback} {ty : Ty} (takes : c.Takes ty) {p : υ}
    (fits : ∀ found, c.payload.type? = some found → ty.same found → h.isOf p found) :
    h.given? c (some p) = some (handed p c).2 := by
  unfold Callback.Takes at takes
  cases parameter : c.payload with
  | none =>
      simp [Host.given?, Callback.payloadPass, handed, Callback.expectsPayload,
        PayloadParameter.isPresent, PayloadParameter.type?, parameter]
  | required found | optional found =>
      rw [parameter] at takes
      have alike : ty.same found := by
        cases takes
        assumption
      have type := fits found (by rw [parameter]; rfl) alike
      simp [Host.given?, Callback.payloadPass, handed, Callback.expectsPayload, Host.payloadAs,
        PayloadParameter.isPresent, PayloadParameter.type?, parameter, type]
  | invalid found =>
      rw [parameter] at takes
      cases takes

theorem calls_handed {p : υ} {plan : List Callback}
    (given : ∀ c ∈ plan, h.given? c (some p) = some (handed p c).2) :
    h.calls (some p) plan = plan.map (handed p) := by
  induction plan with
  | nil => rfl
  | cons c rest ih =>
      obtain ⟨first, others⟩ := List.forall_mem_cons.mp given
      rw [List.map_cons, ← ih others, Host.calls, List.filterMap_cons, first]
      rfl

theorem calls_unfed (plan : List Callback) : h.calls none plan = unfed plan := by
  induction plan with
  | nil => rfl
  | cons c rest ih =>
      have others : h.calls none (c :: rest) =
          h.calls none [c] ++ h.calls none rest := h.calls_append none [c] rest
      rw [others, ih]
      cases parameter : c.payload <;>
        simp [Host.calls, Host.given?, Callback.payloadPass, Host.payloadAs, unfed,
          Callback.needsPayload, parameter]

theorem asks_unfed (candidates : List Transition) :
    h.asks none candidates = unfed (candidates.filterMap Transition.guard) :=
  calls_unfed h _

theorem verdict_unfed {t : Transition} {guard : Callback} (guarded : t.guard = some guard)
    (needs : guard.needsPayload) (data : σ) : h.verdict none t data = (false, data) := by
  have uncalled : h.given? guard none = none := by
    cases parameter : guard.payload <;>
      simp [Callback.needsPayload, parameter] at needs
    simp [Host.given?, Callback.payloadPass, Host.payloadAs, parameter]
  simp [Host.verdict, guarded, uncalled]

end Calls

namespace Execution

variable {e : Emission} (h : Host σ υ ω)

theorem wouldTake_computes (payload : Option υ) (t : Transition) :
    (wouldTake h payload t : Run σ υ ω Bool).Computes (h.verdict payload t)
      (h.asks payload [t]) := by
  unfold wouldTake
  cases guarded : t.guard with
  | none =>
      intro m
      simp [Run.pure_apply, Host.verdict, guarded, Host.asks, Host.calls, callsIn]
  | some guard => exact allows_computes h payload t guarded

theorem any_asks (payload : Option υ) (candidates : List Transition) (m : Machine σ ω) :
    ∃ asked rest, candidates = asked ++ rest ∧
      callsIn (Run.any (wouldTake h payload) candidates m).2.2 = h.asks payload asked := by
  induction candidates generalizing m with
  | nil => exact ⟨[], [], rfl, rfl⟩
  | cons t rest ih =>
      have called := (wouldTake_computes h payload t m).2
      cases taken : (wouldTake h payload t m).1 with
      | true =>
          refine ⟨[t], rest, rfl, ?_⟩
          simpa [Run.any, Run.bind_apply, taken, Run.pure_apply, callsIn] using called
      | false =>
          obtain ⟨asked, others, split, later⟩ := ih (wouldTake h payload t m).2.1
          refine ⟨t :: asked, others, congrArg (t :: ·) split, ?_⟩
          have both : h.asks payload (t :: asked) = h.asks payload [t] ++ h.asks payload asked :=
            h.asks_append payload [t] asked
          simp [Run.any, Run.bind_apply, taken, called, later, both]

theorem canFire_asks {trigger : String} {payload : Option υ}
    (passed : passes e h trigger (visible e payload) = true) (m : Machine σ ω) :
    ∃ asked rest, e.model.candidatesOn m.state trigger = asked ++ rest ∧
      callsIn (canFire e h trigger payload m).2.2 = h.asks (visible e payload) asked := by
  have all : canFire e h trigger payload m =
      Run.any (wouldTake h (visible e payload)) (e.model.candidatesOn m.state trigger) m := by
    rw [← any_consulted, canFire, if_pos passed]
    rfl
  rw [all]
  exact any_asks h _ _ m

theorem tryFire_asks (accepted : e.Accepted) {m : Machine σ ω} (settled : Settled e m)
    {trigger : String} {payload : Option υ}
    (passed : passes e h trigger (visible e payload) = true) :
    let candidates := e.model.candidatesOn m.state trigger
    let given := visible e payload
    let fired := tryFire e h trigger payload m
    (fired.1 = false ∧ guardsIn fired.2.2 = h.asks given candidates ∧
        effectsIn fired.2.2 = []) ∨
      ∃ refused t rest ready last, candidates = refused ++ t :: rest ∧
        h.verdict given t ready = (true, last) ∧
        guardsIn fired.2.2 = h.asks given (refused ++ [t]) ∧
        h.Performed given (course e t m).calls fired.1 (effectsIn fired.2.2)
          (failuresIn fired.2.2) := by
  intro candidates given fired
  cases chosen : chosen? e h payload trigger m with
  | none =>
      obtain ⟨n, asked, run, _, called, _⟩ := refused_run h trigger payload passed chosen
      have listed : ∀ t ∈ candidates, t ∈ e.model.transitions :=
        fun _ candidate => (candidate_registered accepted candidate).1
      have guards := split_guards (called ▸ asks_roles h given accepted listed)
      left
      simp only [fired, run]
      exact ⟨trivial, guards.1.trans called, guards.2⟩
  | some t =>
      obtain ⟨_, _, performed, refused, rest, ready, last, split, _, allows, guards⟩ :=
        tryFire_chosen h trigger payload accepted settled chosen
      exact .inr ⟨refused, t, rest, ready, last, split, allows, guards, performed⟩

/-! ## Payloads that are let through -/

/-- The payload can come with the trigger: it passes the filter, or is of the one type that the
machine carries. -/
def Admits (e : Emission) (h : Host σ υ ω) (trigger : String) (p : υ) : Prop :=
  match e.payload with
  | .multi => passes e h trigger (some p) = true
  | .single => ∃ ty, e.model.defaultPayload = some ty ∧ h.isOf p ty = true
  | .none => False

section Admitted

variable {h} {trigger : String} {p : υ} (accepted : e.Accepted) (admitted : Admits e h trigger p)
include admitted

theorem admitted_visible : visible e (some p) = some p := by
  unfold Admits at admitted
  cases kind : e.payload <;> simp [kind] at admitted <;>
    simp [visible, Emission.carriesPayload, kind]

theorem admitted_passes : passes e h trigger (visible e (some p)) = true := by
  rw [admitted_visible admitted]
  unfold Admits at admitted
  cases kind : e.payload <;> simp [kind] at admitted
  · simp [passes, enforced?, kind]
  · exact admitted

include accepted

theorem admitted_type {ty : Ty} (wanted : e.model.payloadFor? trigger = some ty) :
    h.isOf p ty = true := by
  unfold Admits at admitted
  cases kind : e.payload <;> simp [kind] at admitted
  · obtain ⟨default, declared, type⟩ := admitted
    obtain ⟨unowned, _⟩ := accepted.single kind
    rw [Model.payloadFor?, unowned, declared] at wanted
    cases wanted
    exact type
  · exact (passes_iff kind h trigger (some p)).mp admitted p ty rfl wanted

omit accepted admitted in
theorem payloadFor?_written {ty : Ty} (wanted : e.model.payloadFor? trigger = some ty) :
    ty ∈ e.model.writtenTypes := by
  simp only [Model.writtenTypes, List.mem_append, Option.mem_toList]
  rcases Option.or_eq_some_iff.mp wanted with own | ⟨_, default⟩
  · obtain ⟨entry, found, rfl⟩ := Option.map_eq_some_iff.mp own
    exact .inl (.inr (List.mem_map_of_mem (List.mem_of_find?_eq_some found)))
  · exact .inl (.inl default)

theorem candidate_given (unifies : h.Unifies e.model) {ty : Ty}
    (wanted : e.model.payloadFor? trigger = some ty) {t : Transition}
    (member : t ∈ e.model.transitions) (fires : t.trigger = trigger) {c : Callback}
    (called : c ∈ t.guard ∨ c ∈ t.action) : h.given? c (some p) = some (handed p c).2 := by
  obtain ⟨_, expected, takes⟩ := accepted.typed
  have awaited : t.expectedPayload = some ty := by rw [expected t member, fires, wanted]
  have both := takes t member ty awaited
  have listed : c ∈ e.model.callbacks := by
    refine List.mem_append_left _ (List.mem_flatMap.mpr ⟨t, member, ?_⟩)
    simpa using called
  refine given?_handed h (called.elim (both.1 c) (both.2 c)) fun found parameter alike => ?_
  have written : found ∈ e.model.writtenTypes :=
    List.mem_append_right _ (List.mem_filterMap.mpr ⟨c, listed, parameter⟩)
  rw [← unifies ty (payloadFor?_written wanted) found written alike]
  exact admitted_type accepted admitted wanted

theorem asks_handed (unifies : h.Unifies e.model) {ty : Ty}
    (wanted : e.model.payloadFor? trigger = some ty) {state : String} {asked : List Transition}
    (candidates : ∀ t ∈ asked, t ∈ e.model.candidatesOn state trigger) :
    h.asks (some p) asked = (asked.filterMap Transition.guard).map (handed p) := by
  apply calls_handed
  intro c listed
  obtain ⟨t, inside, guard⟩ := List.mem_filterMap.mp listed
  obtain ⟨member, _, fires⟩ := candidate_registered accepted (candidates t inside)
  exact candidate_given accepted admitted unifies wanted member fires (.inl guard)

end Admitted

theorem course_action (t : Transition) (m : Machine σ ω) :
    ∃ exits entries, (course e t m).calls = exits ++ t.action.toList ++ entries := by
  unfold course
  split
  · exact ⟨_, _, rfl⟩
  · split
    · exact ⟨_, _, rfl⟩
    · exact ⟨_, _, rfl⟩

/-! ## Delivery -/

section Delivery

/-- With the payload at hand, the guards that are asked and the action that runs are called with it
if they take one. -/
structure Fed (e : Emission) (h : Host σ υ ω) (trigger : String) (m : Machine σ ω) (p : υ) :
    Prop where
  questions : ∃ asked rest, e.model.candidatesOn m.state trigger = asked ++ rest ∧
    callsIn (canFire e h trigger (some p) m).2.2 =
      (asked.filterMap Transition.guard).map (handed p)
  attempts :
    let candidates := e.model.candidatesOn m.state trigger
    let fired := tryFire e h trigger (some p) m
    (fired.1 = false ∧ effectsIn fired.2.2 = [] ∧
        guardsIn fired.2.2 = (candidates.filterMap Transition.guard).map (handed p)) ∨
      ∃ refused t rest exits entries, candidates = refused ++ t :: rest ∧
        guardsIn fired.2.2 = ((refused ++ [t]).filterMap Transition.guard).map (handed p) ∧
        h.calls (some p) (course e t m).calls =
          h.calls (some p) exits ++ t.action.toList.map (handed p) ++ h.calls (some p) entries ∧
        h.Performed (some p) (course e t m).calls fired.1 (effectsIn fired.2.2)
          (failuresIn fired.2.2)

structure Unfed (e : Emission) (h : Host σ υ ω) (trigger : String) (m : Machine σ ω) : Prop where
  questions : ∃ asked rest, e.model.candidatesOn m.state trigger = asked ++ rest ∧
    callsIn (canFire e h trigger none m).2.2 = unfed (asked.filterMap Transition.guard)
  attempts :
    let candidates := e.model.candidatesOn m.state trigger
    let fired := tryFire e h trigger none m
    (fired.1 = false ∧ effectsIn fired.2.2 = [] ∧
        guardsIn fired.2.2 = unfed (candidates.filterMap Transition.guard)) ∨
      ∃ refused t rest, candidates = refused ++ t :: rest ∧
        (∀ guard ∈ t.guard, guard.needsPayload = false) ∧
        guardsIn fired.2.2 = unfed ((refused ++ [t]).filterMap Transition.guard) ∧
        h.calls none (course e t m).calls = unfed (course e t m).calls ∧
        h.Performed none (course e t m).calls fired.1 (effectsIn fired.2.2)
          (failuresIn fired.2.2)

variable (accepted : e.Accepted) {m : Machine σ ω} (reachable : Reachable e h m) (trigger : String)
include accepted reachable

theorem fed_run (unifies : h.Unifies e.model) {p : υ} {ty : Ty}
    (wanted : e.model.payloadFor? trigger = some ty) (admitted : Admits e h trigger p) :
    Fed e h trigger m p := by
  have shown := admitted_visible admitted
  have passed := admitted_passes admitted
  have given {asked : List Transition}
      (inside : ∀ t ∈ asked, t ∈ e.model.candidatesOn m.state trigger) :
      h.asks (some p) asked = (asked.filterMap Transition.guard).map (handed p) :=
    asks_handed accepted admitted unifies wanted inside
  constructor
  · obtain ⟨asked, rest, split, called⟩ := canFire_asks h passed m
    refine ⟨asked, rest, split, ?_⟩
    rw [called, shown]
    exact given fun t inside => split ▸ List.mem_append_left rest inside
  · rcases tryFire_asks h accepted (reachable_settled accepted reachable) passed with
      ⟨denied, guards, effects⟩ | ⟨refused, t, rest, _, _, split, _, guards, performed⟩
    · rw [shown] at guards
      exact .inl ⟨denied, effects, guards.trans (given fun _ => id)⟩
    · rw [shown] at guards performed
      have inside : ∀ u ∈ refused ++ [t], u ∈ e.model.candidatesOn m.state trigger := by
        intro u attempted
        rw [split, List.append_cons]
        exact List.mem_append_left rest attempted
      obtain ⟨member, _, fires⟩ := candidate_registered accepted (inside t (by simp))
      have acted : h.calls (some p) t.action.toList = t.action.toList.map (handed p) := by
        apply calls_handed
        intro c action
        exact candidate_given accepted admitted unifies wanted member fires
          (.inr (Option.mem_toList.mp action))
      obtain ⟨exits, entries, plan⟩ := course_action (e := e) t m
      refine .inr ⟨refused, t, rest, exits, entries, split, guards.trans (given inside), ?_,
        performed⟩
      rw [plan, Host.calls_append, Host.calls_append, acted]

theorem unfed_run : Unfed e h trigger m := by
  have shown : visible e (none : Option υ) = none := by simp [visible]
  have passed : passes e h trigger (visible e none) = true := by
    rw [shown]
    rfl
  constructor
  · obtain ⟨asked, rest, split, called⟩ := canFire_asks h passed m
    rw [shown, asks_unfed] at called
    exact ⟨asked, rest, split, called⟩
  · rcases tryFire_asks h accepted (reachable_settled accepted reachable) passed with
      ⟨denied, guards, effects⟩ | ⟨refused, t, rest, ready, last, split, allows, guards, performed⟩
    · rw [shown, asks_unfed] at guards
      exact .inl ⟨denied, effects, guards⟩
    · rw [shown] at guards performed allows
      rw [asks_unfed] at guards
      refine .inr ⟨refused, t, rest, split, fun guard guarded => ?_, guards, calls_unfed h _,
        performed⟩
      by_contra needs
      have denied := verdict_unfed h guarded (Bool.not_eq_false _ ▸ needs) ready
      cases allows.symm.trans denied

/-- A payload that is let through is handed to each guard that is asked and to the action of the
candidate that is taken, if they take one. Without a payload those that need one are not called. -/
theorem payload_delivered (unifies : h.Unifies e.model) :
    (∀ p ty, e.model.payloadFor? trigger = some ty → Admits e h trigger p →
      Fed e h trigger m p) ∧ Unfed e h trigger m := by
  constructor
  · intro p ty wanted admitted
    exact fed_run h accepted reachable trigger unifies wanted admitted
  · exact unfed_run h accepted reachable trigger

end Delivery

section Till

theorem till_unifies : tillHost.Unifies till.model := by
  have spelled : ∀ a ∈ till.model.writtenTypes, ∀ b ∈ till.model.writtenTypes, a.same b →
      a.lastSegment?.map Segment.ident = b.lastSegment?.map Segment.ident := by decide +kernel
  intro a written b other alike p
  have ident := spelled a written b other alike
  show Shape.isNamed a p = Shape.isNamed b p
  rw [Shape.isNamed, Shape.isNamed, ident]

theorem till_rings_price :
    let m : Machine Unit Unit := start till "Idle" ()
    let named (calls : List (Callback × Option String)) := calls.map fun (c, p) => (c.name, p)
    let priced := tryFire till tillHost "Scan" (some "Price") m
    let unpriced := tryFire till tillHost "Scan" none m
    Fed till tillHost "Scan" m "Price" ∧ Unfed till tillHost "Scan" m ∧
      priced.1 = true ∧ named (guardsIn priced.2.2) = [("known", some "Price")] ∧
      named (effectsIn priced.2.2) = [("ring", some "Price")] ∧
      unpriced.1 = false ∧ named (callsIn unpriced.2.2) = [] := by
  intro m named priced unpriced
  have reachable : Reachable till tillHost m := ⟨"Idle", by decide, (), [], rfl⟩
  obtain ⟨delivers, without⟩ :=
    payload_delivered tillHost till_accepted reachable "Scan" till_unifies
  have admitted : Admits till tillHost "Scan" "Price" := by
    show passes till tillHost "Scan" (some "Price") = true
    decide
  exact ⟨delivers "Price" price rfl admitted, without, by decide +kernel, by decide +kernel,
    by decide +kernel, by decide +kernel, by decide +kernel⟩

end Till

end Execution

end Statewright
