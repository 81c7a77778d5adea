import Statewright.Proofs.Build.Payloads
import Statewright.Proofs.Build.Scopes
import Statewright.Proofs.Execution.Reordering

/-!
# Rearranged declarations

The same declarations in another order and at other places. What a declaration adds to a draft does
not depend on where it stands, and where no payload scope is declared twice, it does not depend on
the order of the others either.
-/

namespace Statewright

open Grammar Declaration

def Declaration.Reference.placeless (r : Reference) : Reference := ⟨r.expr, ⟨0, 0⟩⟩

def PayloadArguments.placeless (p : PayloadArguments) : PayloadArguments :=
  { p with trigger := p.trigger.map Reference.placeless }

def MachineDeclaration.placeless : MachineDeclaration → MachineDeclaration
  | .machine a => .machine a
  | .transition a =>
    .transition
      { a with
        source := a.source.placeless
        trigger := a.trigger.placeless
        target := a.target.placeless }
  | .internal a =>
    .internal { a with state := a.state.placeless, trigger := a.trigger.placeless }
  | .state a =>
    .state { a with state := a.state.placeless, parent := a.parent.map Reference.placeless }
  | .payload a => .payload a.placeless

def Declared.placeless (e : Declared MachineDeclaration) : Declared MachineDeclaration :=
  ⟨e.value.placeless, ⟨0, 0⟩⟩

section Place

variable {α β : Type} {place : α → α} {l other : List α}
  (moved : (l.map place).Perm (other.map place))
include moved

theorem filterMap_moved {f : α → Option β} (blind : ∀ a, f (place a) = f a) :
    (l.filterMap f).Perm (other.filterMap f) := by
  have placed (l : List α) : (l.map place).filterMap f = l.filterMap f := by
    rw [List.filterMap_map]
    exact List.filterMap_congr fun a _ => blind a
  rw [← placed l, ← placed other]
  exact moved.filterMap f

theorem flatMap_moved {f : α → List β} (blind : ∀ a, f (place a) = f a) :
    (l.flatMap f).Perm (other.flatMap f) := by
  have placed (l : List α) : (l.map place).flatMap f = l.flatMap f := by
    rw [List.flatMap_map]
    exact List.flatMap_congr fun a _ => blind a
  rw [← placed l, ← placed other]
  exact moved.flatMap_right f

theorem any_moved {f : α → Bool} (blind : ∀ a, f (place a) = f a) : l.any f = other.any f := by
  have placed (l : List α) : (l.map place).any f = l.any f := by
    rw [List.any_map]
    exact congrArg l.any (funext blind)
  rw [← placed l, ← placed other]
  exact moved.any_eq

theorem foldl_moved {f : β → α → β} (blind : ∀ b a, f b (place a) = f b a)
    (commutes : ∀ a ∈ l, ∀ c ∈ l, ∀ b, f (f b a) c = f (f b c) a) (start : β) :
    l.foldl f start = other.foldl f start := by
  have placed (l : List α) : (l.map place).foldl f start = l.foldl f start := by
    rw [List.foldl_map]
    simp only [blind]
  rw [← placed l, ← placed other]
  refine moved.foldl_eq' ?_ start
  intro a listed c also b
  obtain ⟨a, inside, rfl⟩ := List.mem_map.mp listed
  obtain ⟨c, within, rfl⟩ := List.mem_map.mp also
  simp only [blind]
  exact commutes a inside c within b

end Place

/-- The machine has the same declarations in some order, and nothing else of its own. -/
structure MachineFacts.Rearranges (other machine : MachineFacts) : Prop where
  name : other.name = machine.name
  generics : other.generics = machine.generics
  fields : other.fields = machine.fields
  malformed : other.malformed = machine.malformed
  declarations :
    (machine.declarations.map Declared.placeless).Perm (other.declarations.map Declared.placeless)

structure ModuleFacts.Shares (other facts : ModuleFacts) : Prop where
  name : other.name = facts.name
  enums : other.enums = facts.enums
  methods : other.methods = facts.methods

namespace Build

structure Setting.Rearranges (other cx : Setting) : Prop where
  machine : other.machine.Rearranges cx.machine
  facts : other.facts.Shares cx.facts
  stateEnum : other.stateEnum = cx.stateEnum
  triggerEnum : other.triggerEnum = cx.triggerEnum
  primary : other.primary = cx.primary

def payload? : MachineDeclaration → Option PayloadArguments
  | .payload a => some a
  | .machine _ | .transition _ | .internal _ | .state _ => none

theorem payloadTypes_eq (machine : MachineFacts) (facts : ModuleFacts) :
    (machine.payloadTypes facts).map Declared.value =
      machine.declarations.filterMap (fun e => payload? e.value) ++
        (facts.methodsOf machine.name).flatMap fun m => m.payloadTypes.map Declared.value := by
  rw [MachineFacts.payloadTypes, List.map_append, List.map_filterMap, List.map_flatMap]
  refine congrArg (· ++ _) (List.filterMap_congr fun e _ => ?_)
  cases e.value <;> rfl

section Payloads

variable {cx other : Setting}

theorem scope?_placeless (p : PayloadArguments) : cx.scope? p.placeless = cx.scope? p := by
  obtain ⟨ty, trigger⟩ := p
  cases trigger <;> rfl

theorem sharedType?_placeless (p : PayloadArguments) :
    Setting.sharedType? p.placeless = Setting.sharedType? p := by
  obtain ⟨ty, trigger⟩ := p
  cases trigger <;> rfl

theorem ownType?_placeless (p : PayloadArguments) : cx.ownType? p.placeless = cx.ownType? p := by
  obtain ⟨ty, trigger⟩ := p
  cases trigger <;> rfl

theorem payloadFindings_placeless (p : PayloadArguments) :
    cx.payloadFindings p.placeless = cx.payloadFindings p := by
  obtain ⟨ty, trigger⟩ := p
  cases trigger <;> rfl

variable (rearranges : other.Rearranges cx)
include rearranges

theorem methodsOf_rearranged : other.facts.methodsOf other.machine.name =
    cx.facts.methodsOf cx.machine.name := by
  rw [ModuleFacts.methodsOf, rearranges.facts.methods, rearranges.machine.name]
  rfl

theorem payloadTypes_rearranged :
    (((cx.machine.payloadTypes cx.facts).map Declared.value).map PayloadArguments.placeless).Perm
      (((other.machine.payloadTypes other.facts).map Declared.value).map
        PayloadArguments.placeless) := by
  rw [payloadTypes_eq, payloadTypes_eq, methodsOf_rearranged rearranges, List.map_append,
    List.map_append, List.map_filterMap, List.map_filterMap]
  refine List.Perm.append_right _ (filterMap_moved rearranges.machine.declarations fun e => ?_)
  obtain ⟨value, pos⟩ := e
  cases value with
  | payload p =>
      obtain ⟨ty, trigger⟩ := p
      cases trigger <;> rfl
  | _ => rfl

theorem ofTrigger_rearranged : other.scope? = cx.scope? ∧ other.ownType? = cx.ownType? ∧
    other.payloadFindings = cx.payloadFindings := by
  refine ⟨?_, ?_, ?_⟩ <;> funext p
  · rw [Setting.scope?, rearranges.triggerEnum, Setting.scope?]
  · rw [Setting.ownType?, rearranges.triggerEnum, Setting.ownType?]
  · rw [Setting.payloadFindings, rearranges.triggerEnum, Setting.payloadFindings]

theorem scopes_rearranged : cx.scopes.Perm other.scopes := by
  have moved := filterMap_moved (payloadTypes_rearranged rearranges) (f := cx.scope?)
    scope?_placeless
  rw [List.filterMap_map, List.filterMap_map] at moved
  rw [Setting.scopes, Setting.scopes, rearranges.primary, (ofTrigger_rearranged rearranges).1]
  exact moved.append_left _

structure Draft.PaysLike (d next : Draft) : Prop where
  defaultPayload : next.defaultPayload = d.defaultPayload
  triggerPayloads : d.triggerPayloads.Perm next.triggerPayloads
  owners : (d.triggerPayloads.map Prod.fst).Nodup

theorem declarePayloads_rearranged (distinct : cx.scopes.Nodup) {d : Draft}
    (bare : d.triggerPayloads = []) :
    (declarePayloads cx d).PaysLike (declarePayloads other d) ∧
      (declarePayloads cx d).report.shown.Perm (declarePayloads other d).report.shown := by
  have moved := payloadTypes_rearranged rearranges
  obtain ⟨_, owns, finds⟩ := ofTrigger_rearranged rearranges
  obtain ⟨default, triggers, report, _⟩ := declarePayloads_takes distinct bare
  obtain ⟨otherDefault, otherTriggers, otherReport, _⟩ := declarePayloads_takes
    ((scopes_rearranged rearranges).nodup_iff.mp distinct) bare
  rw [rearranges.primary] at otherDefault
  rw [owns] at otherTriggers
  rw [finds] at otherReport
  refine ⟨⟨?_, ?_, declarePayloads_owners bare⟩, ?_⟩
  · refine (toList_perm ?_).symm
    rw [default, otherDefault]
    exact (filterMap_moved moved sharedType?_placeless).append_left _
  · rw [triggers, otherTriggers]
    exact (filterMap_moved moved ownType?_placeless).append_left _
  · rw [report, otherReport]
    exact ((flatMap_moved moved payloadFindings_placeless).map _).append_left _

end Payloads

namespace Draft.PaysLike

variable {d next : Draft} (pays : d.PaysLike next)
include pays

theorem hasPayload : next.hasPayload = d.hasPayload := by
  rw [Draft.hasPayload, pays.defaultPayload, ← pays.triggerPayloads.isEmpty_eq, Draft.hasPayload]

theorem expected : next.expected = d.expected := by
  funext ty
  cases ty with
  | some ty => rfl
  | none => rw [Draft.expected, pays.hasPayload, Draft.expected]

theorem payloadFor? : next.payloadFor? = d.payloadFor? := by
  funext trigger
  rw [Draft.payloadFor?, pays.defaultPayload, ← lookup_perm pays.triggerPayloads pays.owners]
  rfl

end Draft.PaysLike

structure Setting.Alike (cx other : Setting) : Prop where
  stateEnum : other.stateEnum = cx.stateEnum
  triggerEnum : other.triggerEnum = cx.triggerEnum
  findings : other.findings = cx.findings
  callbackFor? : other.callbackFor? = cx.callbackFor?
  pays : cx.payloads.PaysLike other.payloads

theorem alike_of_rearranged {cx other : Setting} (rearranges : other.Rearranges cx)
    (distinct : cx.scopes.Nodup) : cx.Alike other := by
  have method : other.method? = cx.method? := by
    funext name
    rw [Setting.method?, methodsOf_rearranged rearranges]
    rfl
  have findings : other.findings = cx.findings := by
    funext role expected name
    rw [Setting.findings, method, rearranges.primary]
    rfl
  refine ⟨rearranges.stateEnum, rearranges.triggerEnum, findings, ?_,
    (declarePayloads_rearranged rearranges distinct rfl).1⟩
  funext role expected name
  rw [Setting.callbackFor?, method, findings]
  rfl

namespace Setting

variable {cx other : Setting}

def callbacksOf (cx : Setting) (e : Declared MachineDeclaration) : List Callback :=
  (cx.namings e).filterMap fun n => cx.callbackFor? n.role n.expected n.method

theorem namings_placeless {α : Type} (f : Naming → List α)
    (blind : ∀ method role expected pos other,
      f ⟨method, role, expected, pos⟩ = f ⟨method, role, expected, other⟩)
    (e : Declared MachineDeclaration) :
    (cx.namings e.placeless).flatMap f = (cx.namings e).flatMap f := by
  have named (role : Role) (expected : ExpectedPayload) (pos : Position) (method : Option String) :
      (naming role expected pos method).flatMap f =
        (naming role expected ⟨0, 0⟩ method).flatMap f := by
    cases method with
    | none => rfl
    | some method => simp [naming, blind method role expected pos ⟨0, 0⟩]
  have edge (e other : Edge) (pos : Position) (same : other.link? cx.stateEnum cx.triggerEnum =
      e.link? cx.stateEnum cx.triggerEnum) :
      (cx.edgeNamings other ⟨0, 0⟩).flatMap f = (cx.edgeNamings e pos).flatMap f := by
    rw [edgeNamings, same, edgeNamings]
    cases e.link? cx.stateEnum cx.triggerEnum with
    | none => rfl
    | some l => simp only [List.flatMap_append, named _ _ pos]
  obtain ⟨value, pos⟩ := e
  cases value with
  | transition a => exact edge (.ofTransition a) _ pos rfl
  | internal a => exact edge (.ofInternal a) _ pos rfl
  | state a =>
      show (if (cx.stateEnum.resolve? a.state).isSome then _ else []).flatMap f =
        (if (cx.stateEnum.resolve? a.state).isSome then _ else []).flatMap f
      split
      · simp only [List.flatMap_append, named _ _ pos]
        rfl
      · rfl
  | machine a => rfl
  | payload a => rfl

theorem findingsOf_placeless (e : Declared MachineDeclaration) :
    cx.findingsOf e.placeless = cx.findingsOf e := by
  rw [findingsOf, findingsOf]
  refine congrArg₂ (· ++ ·) ?_ (namings_placeless (fun n => cx.findings n.role n.expected n.method)
    (fun _ _ _ _ _ => rfl) e)
  obtain ⟨value, pos⟩ := e
  cases value <;> rfl

theorem callbacksOf_placeless (e : Declared MachineDeclaration) :
    cx.callbacksOf e.placeless = cx.callbacksOf e := by
  have listed (e : Declared MachineDeclaration) : cx.callbacksOf e =
      (cx.namings e).flatMap fun n => (cx.callbackFor? n.role n.expected n.method).toList := by
    rw [callbacksOf, List.filterMap_eq_flatMap_toList]
  rw [listed, listed]
  exact namings_placeless _ (fun _ _ _ _ _ => rfl) e

theorem transition?_placeless (declaration : MachineDeclaration) :
    cx.transition? declaration.placeless = cx.transition? declaration := by
  cases declaration <;> rfl

theorem change_placeless (states : List StateModel) (declaration : MachineDeclaration) :
    cx.change states declaration.placeless = cx.change states declaration := by
  cases declaration with
  | state a =>
    obtain ⟨state, entry, exit, parent, initial, history⟩ := a
    cases parent <;> rfl
  | _ => rfl

theorem entersOrLeaves_placeless (declaration : MachineDeclaration) :
    cx.entersOrLeaves declaration.placeless = cx.entersOrLeaves declaration := by
  cases declaration <;> rfl

section Alike

variable (alike : cx.Alike other)
include alike

theorem namings_alike : other.namings = cx.namings := by
  funext e
  rcases e with ⟨_ | _ | _ | _ | _, pos⟩ <;>
    simp only [namings, edgeNamings, alike.stateEnum, alike.triggerEnum, alike.pays.expected,
      alike.pays.payloadFor?, alike.pays.defaultPayload]

theorem findingsOf_alike : other.findingsOf = cx.findingsOf := by
  funext e
  rw [findingsOf, namings_alike alike, alike.findings, findingsOf]
  rcases e with ⟨_ | _ | _ | _ | _, pos⟩ <;>
    simp only [references, edgeReferences, alike.stateEnum, alike.triggerEnum]

theorem callbacksOf_alike : other.callbacksOf = cx.callbacksOf := by
  funext e
  rw [callbacksOf, namings_alike alike, alike.callbackFor?, callbacksOf]

theorem transition?_alike : other.transition? = cx.transition? := by
  funext declaration
  have made : other.transitionOf = cx.transitionOf := by
    funext l
    simp only [transitionOf, alike.callbackFor?, alike.pays.expected, alike.pays.payloadFor?]
  rw [transition?, made, alike.stateEnum, alike.triggerEnum, transition?]

theorem change_alike : other.change = cx.change := by
  have known : other.stateOf? = cx.stateOf? := by
    funext declaration
    cases declaration <;> simp only [stateOf?, alike.stateEnum]
  have made : other.extend = cx.extend := by
    funext declaration s
    cases declaration <;>
      simp only [extend, alike.stateEnum, alike.callbackFor?, alike.pays.expected,
        alike.pays.defaultPayload]
  funext states declaration
  rw [change, known, made, change]

theorem entersOrLeaves_alike : other.entersOrLeaves = cx.entersOrLeaves := by
  funext declaration
  cases declaration <;> simp only [entersOrLeaves, alike.stateEnum]

end Alike

end Setting

end Build

end Statewright
