import Statewright.Execution

/-!
# Traces

What a trace says, one kind of entry at a time, and computations that stay clear of states and
history: they see the data only, and nothing but the data and the extensions changes.
-/

namespace Statewright

variable {σ υ ω α β : Type}

def TraceEntry.exited? : TraceEntry υ → Option String
  | .exited s => some s
  | _ => none

def TraceEntry.entered? : TraceEntry υ → Option String
  | .entered s => some s
  | _ => none

def TraceEntry.call? : TraceEntry υ → Option (Callback × Option υ)
  | .called c given => some (c, given)
  | _ => none

def TraceEntry.failure? : TraceEntry υ → Option (Callback × String)
  | .effectFailed c error => some (c, error)
  | _ => none

def TraceEntry.isTold : TraceEntry υ → Bool
  | .told _ => true
  | _ => false

def exitedIn (trace : List (TraceEntry υ)) : List String := trace.filterMap TraceEntry.exited?

def enteredIn (trace : List (TraceEntry υ)) : List String := trace.filterMap TraceEntry.entered?

def callsIn (trace : List (TraceEntry υ)) : List (Callback × Option υ) :=
  trace.filterMap TraceEntry.call?

def guardsIn (trace : List (TraceEntry υ)) : List (Callback × Option υ) :=
  (callsIn trace).filter fun call => call.1.role = .guard

def effectsIn (trace : List (TraceEntry υ)) : List (Callback × Option υ) :=
  (callsIn trace).filter fun call => call.1.role ≠ .guard

def failuresIn (trace : List (TraceEntry υ)) : List (Callback × String) :=
  trace.filterMap TraceEntry.failure?

def untold (trace : List (TraceEntry υ)) : List (TraceEntry υ) := trace.filter (!·.isTold)

section Append

variable (first rest : List (TraceEntry υ))

@[simp] theorem exitedIn_append : exitedIn (first ++ rest) = exitedIn first ++ exitedIn rest :=
  List.filterMap_append

@[simp] theorem enteredIn_append : enteredIn (first ++ rest) = enteredIn first ++ enteredIn rest :=
  List.filterMap_append

@[simp] theorem callsIn_append : callsIn (first ++ rest) = callsIn first ++ callsIn rest :=
  List.filterMap_append

@[simp] theorem guardsIn_append : guardsIn (first ++ rest) = guardsIn first ++ guardsIn rest := by
  simp [guardsIn]

@[simp] theorem effectsIn_append :
    effectsIn (first ++ rest) = effectsIn first ++ effectsIn rest := by
  simp [effectsIn]

@[simp] theorem failuresIn_append :
    failuresIn (first ++ rest) = failuresIn first ++ failuresIn rest :=
  List.filterMap_append

@[simp] theorem untold_append : untold (first ++ rest) = untold first ++ untold rest := by
  simp [untold]

end Append

theorem split_guards {trace : List (TraceEntry υ)}
    (roles : ∀ call ∈ callsIn trace, call.1.role = .guard) :
    guardsIn trace = callsIn trace ∧ effectsIn trace = [] := by
  constructor
  · exact List.filter_eq_self.mpr fun call member => by simpa using roles call member
  · exact List.filter_eq_nil_iff.mpr fun call member => by simpa using roles call member

theorem split_effects {trace : List (TraceEntry υ)}
    (roles : ∀ call ∈ callsIn trace, call.1.role ≠ .guard) :
    effectsIn trace = callsIn trace ∧ guardsIn trace = [] := by
  constructor
  · exact List.filter_eq_self.mpr fun call member => by simpa using roles call member
  · exact List.filter_eq_nil_iff.mpr fun call member => by simpa using roles call member

namespace Run

theorem bind_apply (r : Run σ υ ω α) (f : α → Run σ υ ω β) (m : Machine σ ω) :
    (r >>= f) m =
      ((f (r m).1 (r m).2.1).1, (f (r m).1 (r m).2.1).2.1,
        (r m).2.2 ++ (f (r m).1 (r m).2.1).2.2) := rfl

theorem bind_congr_at {r other : Run σ υ ω α} {m : Machine σ ω} (same : r m = other m)
    (f : α → Run σ υ ω β) : (r >>= f) m = (other >>= f) m := by
  rw [bind_apply, bind_apply, same]

theorem pure_apply (a : α) (m : Machine σ ω) : (pure a : Run σ υ ω α) m = (a, m, []) := rfl

theorem return_apply (r : Run σ υ ω α) (f : α → β) (m : Machine σ ω) :
    (do return f (← r) : Run σ υ ω β) m = (f (r m).1, (r m).2.1, (r m).2.2) := by
  simp [bind_apply, pure_apply]

instance : LawfulMonad (Run σ υ ω) := by
  refine LawfulMonad.mk' _ ?_ ?_ ?_
  · intro α r
    funext m
    show ((r m).1, (r m).2.1, (r m).2.2 ++ []) = r m
    rw [List.append_nil]
  · intro α β a f
    rfl
  · intro α β γ r f g
    funext m
    simp [bind_apply]

abbrev Alike (one other : α × Machine σ ω × List (TraceEntry υ)) : Prop :=
  one.1 = other.1 ∧ one.2.1.data = other.2.1.data ∧ untold one.2.2 = untold other.2.2

/-- States, history and extensions are not looked at. -/
def Uniform (r : Run σ υ ω α) : Prop := ∀ m n, m.data = n.data → Alike (r m) (r n)

/-- Furthermore no state is left or entered, and the history stays. -/
structure Still (r : Run σ υ ω α) : Prop where
  uniform : r.Uniform
  state m : (r m).2.1.state = m.state
  history m : (r m).2.1.history = m.history
  exited m : exitedIn (r m).2.2 = []
  entered m : enteredIn (r m).2.2 = []
  failures m : failuresIn (r m).2.2 = []

theorem Uniform.pure (a : α) : Uniform (pure a : Run σ υ ω α) := fun _ _ same => ⟨rfl, same, rfl⟩

theorem Uniform.bind {r : Run σ υ ω α} {f : α → Run σ υ ω β} (first : r.Uniform)
    (rest : ∀ a, (f a).Uniform) : (r >>= f).Uniform := by
  intro m n same
  obtain ⟨answer, data, trace⟩ := first m n same
  obtain ⟨answer', data', trace'⟩ := rest (r n).1 _ _ data
  rw [bind_apply, bind_apply, answer]
  exact ⟨answer', data', by rw [untold_append, untold_append, trace, trace']⟩

theorem Still.pure (a : α) : Still (pure a : Run σ υ ω α) := by
  refine ⟨.pure a, ?_, ?_, ?_, ?_, ?_⟩ <;> intro m <;> rfl

theorem Still.bind {r : Run σ υ ω α} {f : α → Run σ υ ω β} (first : r.Still)
    (rest : ∀ a, (f a).Still) : (r >>= f).Still := by
  refine ⟨first.uniform.bind fun a => (rest a).uniform, ?_, ?_, ?_, ?_, ?_⟩ <;> intro m <;>
    rw [bind_apply]
  · exact ((rest _).state _).trans (first.state m)
  · exact ((rest _).history _).trans (first.history m)
  · simp [first.exited, (rest _).exited]
  · simp [first.entered, (rest _).entered]
  · simp [first.failures, (rest _).failures]

theorem Still.of_eq {r : Run σ υ ω α} (still : r.Still) {m n : Machine σ ω} {a : α}
    {trace : List (TraceEntry υ)} (ran : r m = (a, n, trace)) :
    n.state = m.state ∧ n.history = m.history ∧ exitedIn trace = [] ∧ enteredIn trace = [] ∧
      failuresIn trace = [] := by
  have parts := And.intro (still.state m) (And.intro (still.history m)
    (And.intro (still.exited m) (And.intro (still.entered m) (still.failures m))))
  rwa [ran] at parts

end Run

namespace Host

variable (h : Host σ υ ω)

theorem untold_told (notices : List (Notice υ)) : untold (notices.map TraceEntry.told) = [] := by
  simp [untold, TraceEntry.isTold]

theorem tell_still (a : Attempt υ) (hook : Hook) : (h.tell a hook).Still := by
  constructor
  · intro m n same
    exact ⟨rfl, same, (untold_told _).trans (untold_told _).symm⟩
  all_goals intro m
  · rfl
  · rfl
  · simp [tell, exitedIn, TraceEntry.exited?]
  · simp [tell, enteredIn, TraceEntry.entered?]
  · simp [tell, failuresIn, TraceEntry.failure?]

theorem invoke_still (c : Callback) (given : Option υ) : (h.invoke c given).Still := by
  constructor
  · intro m n same
    simp [invoke, same, Run.Alike]
  all_goals
    intro m
    rfl

theorem guardFailed_still (guard : Callback) (error : String) :
    (Run.log (.guardFailed guard error) : Run σ υ ω Unit).Still := by
  constructor
  · exact fun m n same => ⟨rfl, same, rfl⟩
  all_goals
    intro m
    rfl

end Host

end Statewright
