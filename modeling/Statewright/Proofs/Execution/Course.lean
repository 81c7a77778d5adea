import Statewright.Proofs.Execution.Trace
import Statewright.Proofs.Hierarchy.Resumption

/-!
# Courses

A course is what an attempt comes to when nothing fails. Following it runs its callbacks in order,
all of them or up to the first failure, and a failure leaves the machine in its state.
-/

namespace Statewright

variable {σ υ ω α : Type}

/-- The calls that a plan comes to; a callback that wants a payload and finds none is skipped. -/
def Host.calls (h : Host σ υ ω) (payload : Option υ) (plan : List Callback) :
    List (Callback × Option υ) :=
  plan.filterMap fun c => (h.given? c payload).map fun given => (c, given)

@[simp] theorem Host.calls_append (h : Host σ υ ω) (payload : Option υ)
    (first rest : List Callback) :
    h.calls payload (first ++ rest) = h.calls payload first ++ h.calls payload rest :=
  List.filterMap_append

/-- The plan was carried out, or its callbacks ran up to the first whose call failed. -/
structure Host.Performed (h : Host σ υ ω) (payload : Option υ) (plan : List Callback) (ok : Bool)
    (called : List (Callback × Option υ)) (failed : List (Callback × String)) : Prop where
  whole : ok = true → called = h.calls payload plan ∧ failed = []
  part : ok = false → ∃ before c given rest error,
    h.calls payload plan = before ++ (c, given) :: rest ∧
      called = before ++ [(c, given)] ∧ failed = [(c, error)] ∧
      c.fallible ∧ ∃ data, (h.call c given data).1 = .fails error

namespace Execution

structure Course where
  left : List Nat
  exited : List String
  calls : List Callback
  entered : List String
  arrival : String

def Course.then (first rest : Course) : Course where
  left := first.left ++ rest.left
  exited := first.exited ++ rest.exited
  calls := first.calls ++ rest.calls
  entered := first.entered ++ rest.entered
  arrival := rest.arrival

/-- The machine is at the end of the course, or where it was and some of the exits are recorded. -/
structure Course.Walked (course : Course) (table : Hierarchy) (m : Machine σ ω)
    (result : Bool × Machine σ ω × List (TraceEntry υ)) : Prop where
  done : result.1 = true →
    result.2.1.state = course.arrival ∧
      result.2.1.history = m.history.recordAll table course.left ∧
      exitedIn result.2.2 = course.exited ∧ enteredIn result.2.2 = course.entered
  broken : result.1 = false →
    result.2.1.state = m.state ∧
      ∃ prior, prior <+: course.left ∧ result.2.1.history = m.history.recordAll table prior

structure Course.Followed (course : Course) (h : Host σ υ ω) (payload : Option υ)
    (table : Hierarchy) (m : Machine σ ω) (result : Bool × Machine σ ω × List (TraceEntry υ)) :
    Prop where
  performed : h.Performed payload course.calls result.1 (callsIn result.2.2) (failuresIn result.2.2)
  walked : course.Walked table m result

end Execution

def Run.andThen (first rest : Run σ υ ω Bool) : Run σ υ ω Bool := do
  if ← first then rest else pure false

namespace Run

variable {first rest : Run σ υ ω Bool} {m : Machine σ ω}

theorem andThen_holds (holds : (first m).1 = true) :
    (first.andThen rest) m =
      ((rest (first m).2.1).1, (rest (first m).2.1).2.1,
        (first m).2.2 ++ (rest (first m).2.1).2.2) := by
  rw [andThen, bind_apply, holds]
  rfl

theorem andThen_fails (fails : (first m).1 = false) : (first.andThen rest) m = first m := by
  rw [andThen, bind_apply, fails]
  show (false, (first m).2.1, (first m).2.2 ++ []) = first m
  rw [List.append_nil, ← fails]

theorem andThen_congr {other : Run σ υ ω Bool}
    (same : (first m).1 = true → rest (first m).2.1 = other (first m).2.1) :
    (first.andThen rest) m = (first.andThen other) m := by
  cases holds : (first m).1 with
  | false => rw [andThen_fails holds, andThen_fails holds]
  | true => rw [andThen_holds holds, andThen_holds holds, same holds]

end Run

namespace Host.Performed

variable {h : Host σ υ ω} {payload : Option υ} {plan later : List Callback}
  {called next : List (Callback × Option υ)} {failed also : List (Callback × String)} {ok : Bool}

theorem append (one : h.Performed payload plan true called failed)
    (two : h.Performed payload later ok next also) :
    h.Performed payload (plan ++ later) ok (called ++ next) (failed ++ also) := by
  obtain ⟨rfl, rfl⟩ := one.whole rfl
  constructor
  · intro holds
    obtain ⟨rfl, rfl⟩ := two.whole holds
    simp
  · intro fails
    obtain ⟨before, c, given, rest, error, split, rfl, rfl, cause⟩ := two.part fails
    exact ⟨h.calls payload plan ++ before, c, given, rest, error, by simp [split], by simp, rfl,
      cause⟩

theorem cut (one : h.Performed payload plan false called failed) :
    h.Performed payload (plan ++ later) false called failed := by
  refine ⟨by simp, fun fails => ?_⟩
  obtain ⟨before, c, given, rest, error, split, here, error', cause⟩ := one.part fails
  exact ⟨before, c, given, rest ++ h.calls payload later, error, by simp [split], here, error',
    cause⟩

end Host.Performed

theorem History.recordAll_append (past : History) (table : Hierarchy) (first rest : List Nat) :
    past.recordAll table (first ++ rest) = (past.recordAll table first).recordAll table rest :=
  List.foldl_append

namespace Execution.Course

variable {h : Host σ υ ω} {payload : Option υ} {table : Hierarchy} {m : Machine σ ω}

theorem Followed.then {one two : Course} {first : Run σ υ ω Bool}
    (followed : one.Followed h payload table m (first m)) (rest : Run σ υ ω Bool)
    (stays : one.arrival = m.state)
    (next : (first m).1 = true →
      two.Followed h payload table (first m).2.1 (rest (first m).2.1)) :
    (one.then two).Followed h payload table m ((first.andThen rest) m) := by
  cases holds : (first m).1 with
  | false =>
      rw [Run.andThen_fails holds]
      obtain ⟨state, prior, inside, history⟩ := followed.walked.broken holds
      refine ⟨?_, by simp [holds], fun _ => ⟨state, prior, ?_, history⟩⟩
      · rw [holds]
        exact (holds ▸ followed.performed).cut
      · exact inside.trans (List.prefix_append one.left two.left)
  | true =>
      rw [Run.andThen_holds holds]
      obtain ⟨state, history, exited, entered⟩ := followed.walked.done holds
      have following := next holds
      refine ⟨?_, fun taken => ?_, fun fails => ?_⟩
      · rw [callsIn_append, failuresIn_append]
        exact (holds ▸ followed.performed).append following.performed
      · obtain ⟨state', history', exited', entered'⟩ := following.walked.done taken
        refine ⟨state', ?_, ?_, ?_⟩
        · rw [history', history]
          exact (m.history.recordAll_append table one.left two.left).symm
        · simp [exited, exited', Course.then]
        · simp [entered, entered', Course.then]
      · obtain ⟨state', prior, inside, history'⟩ := following.walked.broken fails
        refine ⟨state'.trans (state.trans stays), one.left ++ prior, ?_, ?_⟩
        · exact (List.prefix_append_right_inj one.left).mpr inside
        · rw [history', history, History.recordAll_append]

end Execution.Course

end Statewright
