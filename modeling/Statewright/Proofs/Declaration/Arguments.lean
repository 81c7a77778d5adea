import Statewright.Declaration

/-!
# Arguments

A declaration that cannot be read says why: an argument that is required is reported if it is
missing, so one whose arguments have no problem has all that it is put together from.
-/

namespace Statewright.Declaration

open Grammar

variable {σ α : Type} {Has : String → σ → Prop} {slots : List (Slot σ)}

/-- The slot fills the place of its name and leaves the others filled. -/
def Slot.Fills (Has : String → σ → Prop) (slot : Slot σ) : Prop :=
  ∀ input s next, slot.set input s = .ok next →
    Has slot.name next ∧ ∀ name, Has name s → Has name next

theorem map_eq_ok {ε α β : Type} {f : α → β} {r : Except ε α} {b : β}
    (mapped : r.map f = .ok b) : ∃ a, r = .ok a ∧ f a = b := by
  cases r with
  | error e => cases mapped
  | ok a => exact ⟨a, rfl, Except.ok.inj mapped⟩

theorem Slot.ofReader_fills {name : String} {read : Reader α} {put : σ → α → σ} {required : Bool}
    (fills : ∀ s v, Has name (put s v) ∧ ∀ other, Has other s → Has other (put s v)) :
    (Slot.ofReader name read put required).Fills Has := by
  intro input s next set
  obtain ⟨v, _, rfl⟩ := map_eq_ok set
  exact fills s v

theorem Slot.ofTruth_fills {name : String} {put : σ → Bool → σ}
    (fills : ∀ s v, Has name (put s v) ∧ ∀ other, Has other s → Has other (put s v)) :
    (Slot.ofTruth name put).Fills Has := by
  intro input s next set
  obtain ⟨v, _, rfl⟩ := map_eq_ok set
  exact fills s v

def Progress.Keeps (Has : String → σ → Prop) (p : Progress σ) : Prop :=
  p.errors = [] → ∀ name ∈ p.met, Has name p.values

section Fills

variable (fills : ∀ slot ∈ slots, slot.Fills Has)
include fills

theorem Progress.step_filled (entry : Entry) {p : Progress σ} (filled : p.Keeps Has) :
    (p.step slots entry).Keeps Has := by
  cases entry with
  | literal => exact fun clean => by simp [Progress.step] at clean
  | named name input =>
      simp only [Progress.step]
      split
      · exact fun clean => by simp at clean
      · next slot found =>
          have named : slot.name = name := by simpa using List.find?_some found
          split
          · exact fun clean => by simp at clean
          · split
            · next _ set =>
                obtain ⟨own, kept⟩ := fills slot (List.mem_of_find?_eq_some found) input _ _ set
                intro clean other met
                rcases List.mem_cons.mp met with rfl | before
                · exact named ▸ own
                · exact kept other (filled clean other before)
            · exact fun clean => by simp at clean

theorem readEntries_filled {start values : σ} {entries : List Entry}
    (read : readEntries slots start entries = .ok values) :
    ∀ slot ∈ slots, slot.required → Has slot.name values := by
  let p := entries.foldl (Progress.step slots) { values := start }
  have filled : p.Keeps Has := by
    refine List.foldlRecOn (motive := Progress.Keeps Has) _ _ ?_ ?_
    · simp [Progress.Keeps]
    · exact fun p filled entry _ => Progress.step_filled fills entry filled
  unfold readEntries at read
  extract_lets at read
  split at read
  · next clean =>
      obtain rfl := Except.ok.inj read
      obtain ⟨quiet, complete⟩ := List.append_eq_nil_iff.mp (List.isEmpty_iff.mp clean)
      intro slot listed required
      have met := List.filterMap_eq_nil_iff.mp complete slot listed
      exact filled quiet slot.name (by simpa [required] using met)
  · cases read

theorem readAttribute_filled {start values : σ} {a : Attribute}
    (read : readAttribute slots start a = .ok values) :
    ∀ slot ∈ slots, slot.required → Has slot.name values := by
  unfold readAttribute at read
  split at read
  · exact readEntries_filled fills read
  · split at read
    · exact readEntries_filled fills read
    · cases read
  · cases read

end Fills

theorem readAttribute_told {start : σ} {a : Attribute} {errors : List ArgumentError}
    (failed : readAttribute slots start a = .error errors) : errors ≠ [] := by
  have entries {entries : List Entry} (failed : readEntries slots start entries = .error errors) :
      errors ≠ [] := by
    unfold readEntries at failed
    extract_lets at failed
    split at failed
    · cases failed
    · next problems =>
        obtain rfl := Except.error.inj failed
        simpa using problems
  unfold readAttribute at failed
  split at failed
  · exact entries failed
  · split at failed
    · exact entries failed
    · cases failed
      exact List.cons_ne_nil _ _
  · cases failed
    exact List.cons_ne_nil _ _

variable (Has) in
theorem read_told {finish : σ → Except (List ArgumentError) α} {start : σ} {a : Attribute}
    {errors : List ArgumentError} (fills : ∀ slot ∈ slots, slot.Fills Has)
    (complete : ∀ s, (∀ slot ∈ slots, slot.required → Has slot.name s) → ∃ v, finish s = .ok v)
    (failed : (readAttribute slots start a >>= finish) = .error errors) : errors ≠ [] := by
  cases read : readAttribute slots start a with
  | error found =>
      rw [read] at failed
      obtain rfl : found = errors := Except.error.inj failed
      exact readAttribute_told read
  | ok values =>
      obtain ⟨v, finished⟩ := complete values (readAttribute_filled fills read)
      rw [read] at failed
      cases finished.symm.trans failed

end Statewright.Declaration

namespace Statewright

open Grammar Declaration

section Kinds

variable {a : Attribute} {errors : List ArgumentError}

def TransitionArguments.Draft.Has (name : String) (d : Draft) : Prop :=
  (name = "from" → d.source.isSome) ∧ (name = "trigger" → d.trigger.isSome) ∧
    (name = "to" → d.target.isSome)

theorem TransitionArguments.read_told (failed : TransitionArguments.read a = .error errors) :
    errors ≠ [] := by
  refine Declaration.read_told Draft.Has ?_ ?_ failed
  · simp only [slots, List.forall_mem_cons]
    refine ⟨?_, ?_, ?_, ?_, ?_, nofun⟩ <;>
      exact Slot.ofReader_fills fun s v => by simp +contextual [Draft.Has]
  · intro d has
    simp only [slots, Slot.ofReader, List.forall_mem_cons, forall_const] at has
    obtain ⟨source, hasSource⟩ := Option.isSome_iff_exists.mp (has.1.1 rfl)
    obtain ⟨trigger, hasTrigger⟩ := Option.isSome_iff_exists.mp (has.2.1.2.1 rfl)
    obtain ⟨target, hasTarget⟩ := Option.isSome_iff_exists.mp (has.2.2.1.2.2 rfl)
    exact ⟨_, by simp only [finish, hasSource, hasTrigger, hasTarget]; rfl⟩

def InternalArguments.Draft.Has (name : String) (d : Draft) : Prop :=
  (name = "state" → d.state.isSome) ∧ (name = "trigger" → d.trigger.isSome) ∧
    (name = "action" → d.action.isSome)

theorem InternalArguments.read_told (failed : InternalArguments.read a = .error errors) :
    errors ≠ [] := by
  refine Declaration.read_told Draft.Has ?_ ?_ failed
  · simp only [slots, List.forall_mem_cons]
    refine ⟨?_, ?_, ?_, ?_, nofun⟩ <;>
      exact Slot.ofReader_fills fun s v => by simp +contextual [Draft.Has]
  · intro d has
    simp only [slots, Slot.ofReader, List.forall_mem_cons, forall_const] at has
    obtain ⟨state, hasState⟩ := Option.isSome_iff_exists.mp (has.1.1 rfl)
    obtain ⟨trigger, hasTrigger⟩ := Option.isSome_iff_exists.mp (has.2.1.2.1 rfl)
    obtain ⟨action, hasAction⟩ := Option.isSome_iff_exists.mp (has.2.2.1.2.2 rfl)
    exact ⟨_, by simp only [finish, hasState, hasTrigger, hasAction]; rfl⟩

theorem StateArguments.read_told (failed : StateArguments.read a = .error errors) :
    errors ≠ [] := by
  refine Declaration.read_told (fun name (d : Draft) => name = "state" → d.state.isSome)
    ?_ ?_ failed
  · simp only [slots, List.forall_mem_cons]
    refine ⟨?_, ?_, ?_, ?_, Slot.ofTruth_fills fun s v => by simp, ?_, nofun⟩ <;>
      exact Slot.ofReader_fills fun s v => by simp
  · intro d has
    simp only [slots, Slot.ofReader, List.forall_mem_cons, forall_const] at has
    obtain ⟨state, hasState⟩ := Option.isSome_iff_exists.mp has.1
    exact ⟨_, by simp only [finish, hasState]; rfl⟩

theorem PayloadArguments.read_told (failed : PayloadArguments.read a = .error errors) :
    errors ≠ [] := by
  refine Declaration.read_told (fun name (d : Draft) => name = "ty" → d.ty.isSome)
    ?_ ?_ failed
  · simp only [slots, List.forall_mem_cons]
    refine ⟨?_, ?_, nofun⟩ <;> exact Slot.ofReader_fills fun s v => by simp
  · intro d has
    simp only [slots, Slot.ofReader, List.forall_mem_cons, forall_const] at has
    obtain ⟨ty, hasType⟩ := Option.isSome_iff_exists.mp has.1
    exact ⟨_, by simp only [finish, hasType]; rfl⟩

theorem MachineDeclaration.read_told {kind : DeclarationKind}
    (failed : MachineDeclaration.read kind a = .error errors) : errors ≠ [] := by
  have same {α : Type} {f : α → MachineDeclaration} {r : Except (List ArgumentError) α}
      (failed : f <$> r = .error errors) : r = .error errors := by
    cases r with
    | error found => exact congrArg _ (Except.error.inj failed)
    | ok v => cases failed
  cases kind with
  | machine => exact readAttribute_told (same failed)
  | transition => exact TransitionArguments.read_told (same failed)
  | internal => exact InternalArguments.read_told (same failed)
  | state => exact StateArguments.read_told (same failed)
  | payload => exact PayloadArguments.read_told (same failed)

end Kinds

end Statewright
