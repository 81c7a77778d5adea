import Statewright.Proofs.Build.Transitions

/-!
# Duplicates

A transition that leaves the same state on the same trigger as one before it adds a warning to the
report and does nothing else: nothing that a build does depends on what was reported before.
-/

namespace Statewright

open Grammar Declaration

namespace Build

def Draft.behind (front : Report) (d : Draft) : Draft := { d with report := front ++ d.report }

section Behind

variable (cx : Setting) (front : Report) (d : Draft)

end Behind

def Setting.declaring (cx : Setting) (declarations : List (Declared MachineDeclaration)) :
    Setting :=
  { cx with machine := { cx.machine with declarations } }

section Duplicate

variable {cx : Setting} {before rest : List (Declared MachineDeclaration)}
  {again : Declared MachineDeclaration} {l : Link}

def duplicate (l : Link) (pos : Position) : Diagnostic :=
  ⟨.duplicateTransition, .warning, (Finding.duplicateTransition l.source l.trigger).message, pos⟩

def Setting.outcome (cx : Setting) (d : Draft) : Option Model × Report :=
  (if d.report.hasErrors || cx.machine.malformed then none else some (finish cx d),
    d.report ++ located (locate? cx d.places) cx.machine.pos (finish cx d).unreachable)

end Duplicate

end Build

/-! ## The whole machine -/

def MachineArguments.openEnums (name : String) (a : MachineArguments) : Finding :=
  a.state.elim (.argumentMissing name "state") fun state =>
    a.trigger.elim (.argumentMissing name "trigger") fun trigger =>
      .notEnums (Token.compact state.code) (Token.compact trigger.code)

namespace MachineFacts

open Build

variable (machine : MachineFacts) (facts : ModuleFacts)

/-- What is told before the enums are looked up. -/
def opening (primary : Declared MachineArguments) : Report :=
  if machine.machineDeclarations.length > 1 then
    [Diagnostic.ofOutcome primary.pos (Finding.declaredTwice machine.name).outcome]
  else []

variable {machine facts}

theorem build_undeclared (undeclared : machine.primary? = none) :
    machine.build facts =
      (none, [Diagnostic.ofOutcome machine.pos (Finding.undeclared machine.name).outcome]) := by
  simp only [build, undeclared]
  rfl

section Primary

variable {primary : Declared MachineArguments} (declared : machine.primary? = some primary)
include declared

theorem build_tuple {content : Code} (tuple : machine.fields = .tuple content) :
    machine.build facts = (none, machine.opening primary ++
      [Diagnostic.ofOutcome primary.pos (Finding.notExtensible machine.name).outcome]) := by
  simp only [build, declared, tuple]
  rfl

theorem build_open (extensible : ∀ content, machine.fields ≠ .tuple content)
    (unknown : machine.enums? facts = none) :
    machine.build facts = (none, machine.opening primary ++
      [Diagnostic.ofOutcome primary.pos (primary.value.openEnums machine.name).outcome]) := by
  rw [enums?, declared, Option.bind_some] at unknown
  cases fields : machine.fields with
  | tuple content => exact absurd fields (extensible content)
  | _ =>
      cases state : primary.value.state with
      | none =>
          simp only [build, declared, fields, state, MachineArguments.openEnums]
          rfl
      | some s =>
          cases trigger : primary.value.trigger with
          | none =>
              simp only [build, declared, fields, state, trigger, MachineArguments.openEnums]
              rfl
          | some t =>
              simp only [state, trigger, Option.bind_some] at unknown
              simp only [build, declared, fields, state, trigger, MachineArguments.openEnums]
              cases stateFound : (s.last?.map Segment.ident).bind facts.findEnum? with
              | none => rfl
              | some states =>
                  cases triggerFound : (t.last?.map Segment.ident).bind facts.findEnum? with
                  | none => rfl
                  | some triggers => simp [stateFound, triggerFound] at unknown

theorem build_known {states triggers : EnumFacts}
    (extensible : ∀ content, machine.fields ≠ .tuple content)
    (known : machine.enums? facts = some (states, triggers)) :
    let cx : Setting := ⟨machine, facts, states, triggers, primary.value⟩
    machine.build facts = cx.outcome (draft cx (machine.opening primary)) := by
  rw [enums?, declared, Option.bind_some] at known
  obtain ⟨states, stateFound, known⟩ := Option.bind_eq_some_iff.mp known
  obtain ⟨triggers, triggerFound, same⟩ := Option.map_eq_some_iff.mp known
  obtain ⟨rfl, rfl⟩ := Prod.mk.inj same
  obtain ⟨state, stateNamed, stateFound⟩ := Option.bind_eq_some_iff.mp stateFound
  obtain ⟨trigger, triggerNamed, triggerFound⟩ := Option.bind_eq_some_iff.mp triggerFound
  cases fields : machine.fields with
  | tuple content => exact absurd fields (extensible content)
  | _ =>
      simp only [build, declared, fields, stateNamed, triggerNamed, stateFound, triggerFound]
      rfl

end Primary

section Duplicate

variable {before rest : List (Declared MachineDeclaration)} {again : Declared MachineDeclaration}

end Duplicate

end MachineFacts

section Dusk

end Dusk

end Statewright
