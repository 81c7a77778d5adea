import Statewright.Emit
import Statewright.Proofs.Build.Draft
import Statewright.Proofs.Check.Cycles

/-!
# Accepted machines

A machine is accepted when its declarations build a model and the model can be emitted. The draft
behind its model is orderly, and if its states are nested their parents run in no circle.
-/

namespace Statewright

open Build

/-- The machine is emitted for declarations that the builder found no error in. -/
def Emission.Accepted (e : Emission) : Prop :=
  ∃ (machine : MachineFacts) (facts : ModuleFacts),
    (machine.build facts).1 = some e.model ∧ e.model.emission = .ok e

theorem Model.emission_eq_ok {m : Model} {e : Emission} :
    m.emission = .ok e ↔ ∃ variant, m.select = .ok variant ∧
      e = ⟨m, variant, Variant.emittedPayload m.payloadKind variant⟩ := by
  unfold Model.emission
  cases chosen : m.select with
  | error findings => simp [bind, Except.bind]
  | ok variant =>
      simp only [bind, Except.bind, pure, Except.pure, Except.ok.injEq, exists_eq_left']
      exact eq_comm

namespace Build

theorem checkTokens_reports (d : Draft) :
    ∃ more, checkTokens d = { d with report := d.report ++ more } := by
  unfold checkTokens
  refine List.foldlRecOn (motive := fun next : Draft =>
    ∃ more, next = { d with report := d.report ++ more }) _ _ ⟨[], by simp⟩ ?_
  rintro _ ⟨more, rfl⟩ u _
  exact ⟨_, by rw [Draft.tell, List.append_assoc]⟩

theorem checkNesting_reports (cx : Setting) (d : Draft) :
    ∃ more, checkNesting cx d = { d with report := d.report ++ more } := by
  unfold checkNesting
  split
  · exact ⟨_, rfl⟩
  · exact ⟨[], by simp⟩

theorem checks_report (cx : Setting) (d : Draft) :
    ∃ more, checkNesting cx (checkTokens d) = { d with report := d.report ++ more } := by
  obtain ⟨uses, tokens⟩ := checkTokens_reports d
  obtain ⟨found, nesting⟩ := checkNesting_reports cx (checkTokens d)
  exact ⟨uses ++ found, by rw [nesting, tokens, List.append_assoc]⟩

theorem checks_told (cx : Setting) (d : Draft) : d.Told (checkNesting cx (checkTokens d)) := by
  obtain ⟨more, checked⟩ := checks_report cx d
  exact checked ▸ .of_report d more

theorem draft_orderly (cx : Setting) (report : Report) :
    (draft cx report).Orderly (cx.stateEnum.members.map EnumMember.name) := by
  unfold draft
  extract_lets start
  have first : start.Orderly (cx.stateEnum.members.map EnumMember.name) := by
    refine ⟨by simp [start], ?_, by simp [start], List.Pairwise.nil, by simp [start],
      by simp [start], by simp [start]⟩
    exact List.Pairwise.map _ (fun _ _ => id) (List.pairwise_of_forall fun _ _ _ => rfl)
  have added (declarations : List (Declared MachineDeclaration)) : ∀ d : Draft,
      d.Orderly (cx.stateEnum.members.map EnumMember.name) →
        (declarations.foldl (addDeclaration cx) d).Orderly
          (cx.stateEnum.members.map EnumMember.name) := by
    induction declarations with
    | nil => exact fun _ orderly => orderly
    | cons e declarations ih =>
        exact fun d orderly => ih _ (addDeclaration_orderly cx e orderly)
  have all := added cx.machine.declarations _ (first.of_kept (declarePayloads_kept cx start))
  exact all.of_kept (checks_told cx _).kept

theorem hasErrors_append (first second : Report) :
    (first ++ second : Report).hasErrors = (first.hasErrors || second.hasErrors) :=
  List.any_append

theorem errors_stay {first rest : Report} (grows : first <+: rest) (errors : first.hasErrors) :
    rest.hasErrors := by
  obtain ⟨more, rfl⟩ := grows
  rw [hasErrors_append, errors]
  rfl

theorem quiet_before {first rest : Report} (grows : first <+: rest)
    (clean : rest.hasErrors = false) : first.hasErrors = false := by
  cases errors : first.hasErrors with
  | false => rfl
  | true => rw [← clean, errors_stay grows errors]

theorem checkNesting_quiet {cx : Setting} {d : Draft} (nested : isNested cx (checkNesting cx d))
    (clean : (checkNesting cx d).report.hasErrors = false) :
    ∀ f ∈ nestingFindings (checkNesting cx d), f.isError = false := by
  unfold checkNesting at nested clean ⊢
  split at clean
  · next on =>
      rw [if_pos on]
      simp only [hasErrors_append, Bool.or_eq_false_iff] at clean
      intro f found
      exact Bool.eq_false_iff.mpr (List.any_eq_false.mp clean.2 _ (List.mem_map_of_mem found))
  · next off =>
      rw [if_neg off] at nested
      exact absurd nested off

theorem circularHierarchy_clean {states : List Check.Nested}
    (quiet : ∀ f ∈ Check.circularHierarchy states, f.isError = false) :
    Check.circularHierarchy states = [] := by
  refine List.eq_nil_iff_forall_not_mem.mpr fun f member => ?_
  have silent := quiet f member
  obtain ⟨cycle, _, shown⟩ := List.mem_filterMap.mp member
  split at shown
  · cases shown
    cases silent
  · cases shown

theorem checkNesting_clean {cx : Setting} {d : Draft} (nested : isNested cx (checkNesting cx d))
    (clean : (checkNesting cx d).report.hasErrors = false) :
    Check.circularHierarchy (nestedStates (checkNesting cx d)) = [] := by
  refine circularHierarchy_clean fun f member => checkNesting_quiet nested clean f ?_
  simp only [nestingFindings, List.append_assoc]
  exact List.mem_append_left _ member

theorem build_setting {machine : MachineFacts} {facts : ModuleFacts} {m : Model}
    (built : (machine.build facts).1 = some m) :
    ∃ cx report, cx.machine = machine ∧ cx.facts = facts ∧
      facts.findEnum? cx.stateEnum.name = some cx.stateEnum ∧
      (draft cx report).report.hasErrors = false ∧ m = finish cx (draft cx report) := by
  unfold MachineFacts.build at built
  extract_lets tell repeated enumOf at built
  split at built
  · simp at built
  · extract_lets report stop at built
    split at built
    · simp [stop] at built
    · simp [stop] at built
    · simp [stop] at built
    · split at built
      · next stateEnum triggerEnum found _ =>
          extract_lets cx d model unreached rejected at built
          split at built
          · simp at built
          · next accepted =>
              obtain ⟨name, _, known⟩ := Option.bind_eq_some_iff.mp found
              have named : stateEnum.name = name := by simpa using List.find?_some known
              refine ⟨cx, report, rfl, rfl, named ▸ known, ?_, (Option.some.inj built).symm⟩
              simp only [rejected, Bool.or_eq_true, not_or, Bool.not_eq_true] at accepted
              exact accepted.1
      · simp [stop] at built

theorem build_eq_some {machine : MachineFacts} {facts : ModuleFacts} {m : Model}
    (built : (machine.build facts).1 = some m) :
    ∃ cx report, (draft cx report).report.hasErrors = false ∧ m = finish cx (draft cx report) := by
  obtain ⟨cx, report, _, _, _, clean, model⟩ := build_setting built
  exact ⟨cx, report, clean, model⟩

end Build

end Statewright
