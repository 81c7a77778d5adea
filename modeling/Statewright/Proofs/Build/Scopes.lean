import Statewright.Proofs.Build.Parts

/-!
# Scopes of payload types

Where no scope is declared twice, each payload type is taken as it stands: the one without a trigger
for the whole machine, and each other one for its trigger.
-/

namespace Statewright

open Grammar Declaration

namespace Build

namespace Setting

variable (cx : Setting)

def scopes : List (Option String) :=
  cx.primary.payload.toList.map (fun _ => none) ++
    (cx.machine.payloadTypes cx.facts).filterMap fun p => cx.scope? p.value

def sharedType? (p : PayloadArguments) : Option Ty := p.trigger.elim (some p.ty) fun _ => none

def ownType? (p : PayloadArguments) : Option (String × Ty) :=
  p.trigger.bind fun r => (cx.triggerEnum.resolve? r).map fun m => (m.name, p.ty)

def payloadFindings (p : PayloadArguments) : List Finding :=
  p.trigger.elim [] (referenceFindings cx.triggerEnum)

end Setting

def Draft.scopes (d : Draft) : List (Option String) :=
  d.defaultPayload.toList.map (fun _ => none) ++ d.triggerPayloads.map fun entry => some entry.1

structure Draft.Takes (d next : Draft) (cx : Setting) (p : PayloadArguments) : Prop where
  defaultPayload :
    next.defaultPayload.toList = d.defaultPayload.toList ++ (Setting.sharedType? p).toList
  triggerPayloads : next.triggerPayloads = d.triggerPayloads ++ (cx.ownType? p).toList
  report : next.report.shown = d.report.shown ++ (cx.payloadFindings p).map Finding.shown
  hasEntryExit : next.hasEntryExit = d.hasEntryExit

section Fresh

variable {cx : Setting} {d : Draft}

theorem Draft.mem_scopes {scope : Option String} :
    scope ∈ d.scopes ↔ (d.payloadOf? scope).isSome := by
  cases scope with
  | none => cases default : d.defaultPayload <;> simp [Draft.scopes, Draft.payloadOf?, default]
  | some trigger => simp [Draft.scopes, Draft.payloadOf?]

theorem declarePayload_takes (onMethod : Option String) (p : Declared PayloadArguments)
    (fresh : ∀ scope ∈ cx.scope? p.value, scope ∉ d.scopes) :
    d.Takes (declarePayload cx onMethod p d) cx p.value := by
  rcases declarePayload_cases cx onMethod p d with
    ⟨r, fires, unknown, same⟩ | ⟨scope, inside, ⟨existing, known, _⟩ | ⟨free, same⟩⟩
  · have told := resolve_shown cx.triggerEnum r d
    rw [same]
    refine ⟨?_, ?_, ?_, rfl⟩
    · simp [Setting.sharedType?, fires, resolve, Draft.tell]
    · simp [Setting.ownType?, fires, unknown, resolve, Draft.tell]
    · simpa [Setting.payloadFindings, fires] using told
  · exact absurd (Draft.mem_scopes.mpr (by simp [known])) (fresh scope inside)
  · rw [same]
    cases trigger : p.value.trigger with
    | none =>
        obtain rfl : none = scope := by simpa [Setting.scope?, trigger] using inside
        have unset : d.defaultPayload = none := free
        exact ⟨by simp [Draft.gaining, unset, Setting.sharedType?, trigger],
          by simp [Draft.gaining, Setting.ownType?, trigger],
          by simp [Draft.gaining, Setting.payloadFindings, trigger], rfl⟩
    | some r =>
        obtain ⟨m, resolved, rfl⟩ : ∃ m, cx.triggerEnum.resolve? r = some m ∧ some m.name = scope := by
          simpa [Setting.scope?, trigger] using inside
        exact ⟨by simp [Draft.gaining, Setting.sharedType?, trigger],
          by simp [Draft.gaining, Setting.ownType?, trigger, resolved],
          by simp [Draft.gaining, Setting.payloadFindings, trigger, referenceFindings_found resolved],
          rfl⟩

theorem Draft.Takes.scopes {next : Draft} {p : PayloadArguments} (takes : d.Takes next cx p)
    (fresh : ∀ scope ∈ cx.scope? p, scope ∉ d.scopes) :
    next.scopes.Perm (d.scopes ++ (cx.scope? p).toList) := by
  rw [Draft.scopes, takes.defaultPayload, takes.triggerPayloads]
  cases trigger : p.trigger with
  | none =>
      have unset : none ∉ d.scopes := fresh none (by simp [Setting.scope?, trigger])
      have free : d.defaultPayload = none := by simpa [Draft.mem_scopes, Draft.payloadOf?] using unset
      simp only [Draft.scopes, Setting.sharedType?, Setting.ownType?, Setting.scope?, trigger, free]
      simpa using (List.perm_append_singleton none _).symm
  | some r =>
      cases resolved : cx.triggerEnum.resolve? r <;>
        simp [Draft.scopes, Setting.sharedType?, Setting.ownType?, Setting.scope?, trigger,
          resolved]

end Fresh

structure Draft.TakesAll (d next : Draft) (cx : Setting) (types : List PayloadArguments) :
    Prop where
  defaultPayload : next.defaultPayload.toList =
    d.defaultPayload.toList ++ types.filterMap Setting.sharedType?
  triggerPayloads : next.triggerPayloads = d.triggerPayloads ++ types.filterMap cx.ownType?
  report : next.report.shown =
    d.report.shown ++ (types.flatMap cx.payloadFindings).map Finding.shown
  hasEntryExit : next.hasEntryExit = d.hasEntryExit

theorem foldl_takes {cx : Setting} (types : List (Option String × Declared PayloadArguments))
    (d : Draft) (distinct : (d.scopes ++
      types.filterMap fun (_, p) => cx.scope? p.value).Nodup) :
    d.TakesAll (types.foldl (fun d (onMethod, p) => declarePayload cx onMethod p d) d) cx
      (types.map fun (_, p) => p.value) := by
  induction types generalizing d with
  | nil => exact ⟨by simp, by simp, by simp, rfl⟩
  | cons p rest ih =>
      obtain ⟨onMethod, p⟩ := p
      have split : (d.scopes ++ (cx.scope? p.value).toList ++
          rest.filterMap fun (_, p) => cx.scope? p.value).Nodup := by
        cases scope : cx.scope? p.value <;> simpa [scope] using distinct
      have fresh : ∀ scope ∈ cx.scope? p.value, scope ∉ d.scopes := by
        intro scope here earlier
        obtain ⟨_, _, apart⟩ := List.nodup_append.mp (List.nodup_append.mp split).1
        exact apart scope earlier scope (by simpa using here) rfl
      -- the scope of `p` moves from the declarations that are left to the draft
      have takes := declarePayload_takes onMethod p fresh
      have next := ih (declarePayload cx onMethod p d)
        (((takes.scopes fresh).append_right _).nodup_iff.mpr split)
      rw [List.foldl_cons]
      constructor
      · rw [next.defaultPayload, takes.defaultPayload, List.append_assoc]
        cases shared : Setting.sharedType? p.value <;> simp [shared]
      · rw [next.triggerPayloads, takes.triggerPayloads, List.append_assoc]
        cases own : cx.ownType? p.value <;> simp [own]
      · simp [next.report, takes.report]
      · rw [next.hasEntryExit, takes.hasEntryExit]

theorem declarePayloads_takes {cx : Setting} (distinct : cx.scopes.Nodup) {d : Draft}
    (bare : d.triggerPayloads = []) :
    Draft.TakesAll { d with defaultPayload := cx.primary.payload } (declarePayloads cx d) cx
      ((cx.machine.payloadTypes cx.facts).map Declared.value) := by
  have listed : (cx.machine.payloadSources cx.facts).map (fun (_, p) => p) =
      cx.machine.payloadTypes cx.facts := MachineFacts.payloadSources_map _
  rw [declarePayloads_eq, ← listed, List.map_map]
  refine foldl_takes _ _ ?_
  simpa [Draft.scopes, bare, Setting.scopes, ← listed, List.filterMap_map] using distinct

end Build

end Statewright
