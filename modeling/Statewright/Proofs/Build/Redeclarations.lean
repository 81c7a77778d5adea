import Statewright.Proofs.Build.Scopes

/-!
# Redeclared payload types

The first payload type that is declared for a scope is kept. Each later one is spelled like it, or is
reported as a conflict and the machine is not accepted.
-/

namespace Statewright

open Grammar Declaration

def Model.payloadOf? (m : Model) : Option String → Option Ty
  | none => m.defaultPayload
  | some trigger => (m.triggerPayloads.find? (·.1 == trigger)).map (·.2)

def Report.TellsConflict (report : Report) (scope : Option String) : Prop :=
  ∃ existing declared onMethod pos, existing ≠ declared ∧
    ∃ f ∈ Check.payloadRedeclaration scope existing declared onMethod,
      Diagnostic.ofOutcome pos f.outcome ∈ report

namespace Report.TellsConflict

variable {first report : Report} {scope : Option String}

theorem grow (tells : first.TellsConflict scope) (grows : first <+: report) :
    report.TellsConflict scope := by
  obtain ⟨existing, declared, onMethod, pos, apart, f, found, told⟩ := tells
  exact ⟨existing, declared, onMethod, pos, apart, f, found, grows.subset told⟩

theorem hasErrors (tells : report.TellsConflict scope) : report.hasErrors := by
  obtain ⟨existing, declared, onMethod, pos, apart, f, found, told⟩ := tells
  refine List.any_eq_true.mpr ⟨_, told, ?_⟩
  simp only [Check.payloadRedeclaration, beq_iff_eq, if_neg apart] at found
  cases onMethod <;> obtain rfl := List.mem_singleton.mp found <;> rfl

end Report.TellsConflict

namespace Build

/-- A payload type is declared for a scope: with the machine, on its struct or on a method. -/
inductive Setting.Declares (cx : Setting) : Option String → Ty → Prop
  | machine {ty : Ty} : cx.primary.payload = some ty → cx.Declares none ty
  | payload {scope : Option String} {p : Declared PayloadArguments} :
      p ∈ cx.machine.payloadTypes cx.facts → cx.scope? p.value = some scope →
        cx.Declares scope p.value.ty

variable {cx : Setting} {d next : Draft} {scope : Option String} {ty : Ty}

namespace Draft

structure Retains (d next : Draft) : Prop where
  payloads : ∀ scope kept, d.payloadOf? scope = some kept → next.payloadOf? scope = some kept
  report : d.report <+: next.report

/-- The scope has a payload type spelled like this one, or the report tells that it has another. -/
def Honours (d : Draft) (scope : Option String) (ty : Ty) : Prop :=
  ∃ kept, d.payloadOf? scope = some kept ∧ (kept.text = ty.text ∨ d.report.TellsConflict scope)

theorem Retains.refl (d : Draft) : d.Retains d := ⟨fun _ _ => id, List.prefix_rfl⟩

theorem Retains.trans {middle : Draft} (first : d.Retains middle) (rest : middle.Retains next) :
    d.Retains next :=
  ⟨fun scope kept => rest.payloads scope kept ∘ first.payloads scope kept,
    first.report.trans rest.report⟩

theorem Pays.retains (pays : d.Pays next) (grows : d.report <+: next.report) : d.Retains next := by
  refine ⟨fun scope kept => ?_, grows⟩
  cases scope <;> simp [payloadOf?, pays.defaultPayload, pays.triggerPayloads]

theorem Told.retains (told : d.Told next) : d.Retains next :=
  Pays.retains ⟨told.defaultPayload, told.triggerPayloads⟩ told.report

theorem Honours.retained (honours : d.Honours scope ty) (retains : d.Retains next) :
    next.Honours scope ty := by
  obtain ⟨kept, known, agrees⟩ := honours
  exact ⟨kept, retains.payloads scope kept known,
    agrees.imp_right fun tells => tells.grow retains.report⟩

theorem gaining_retains (free : d.payloadOf? scope = none) : d.Retains (d.gaining ty scope) := by
  cases scope with
  | none =>
      refine ⟨fun other kept known => ?_, List.prefix_rfl⟩
      cases other with
      | none => cases free.symm.trans known
      | some trigger => exact known
  | some trigger =>
      refine ⟨fun other kept known => ?_, List.prefix_rfl⟩
      cases other with
      | none => exact known
      | some other =>
          obtain ⟨entry, found, rfl⟩ := Option.map_eq_some_iff.mp known
          simp only [payloadOf?, gaining, List.find?_append, found, Option.some_or, Option.map_some]

theorem gaining_honours (free : d.payloadOf? scope = none) :
    (d.gaining ty scope).Honours scope ty := by
  refine ⟨ty, ?_, .inl rfl⟩
  cases scope with
  | none => rfl
  | some trigger =>
      have unknown := Option.map_eq_none_iff.mp free
      simp [payloadOf?, gaining, List.find?_append, unknown]

end Draft

theorem tell_redeclared {existing : Ty} (known : d.payloadOf? scope = some existing) (ty : Ty)
    (onMethod : Option String) (pos : Position) :
    (d.tell (Check.payloadRedeclaration scope existing.text ty.text onMethod) pos).Honours scope
      ty := by
  have kept : ∀ findings, (d.tell findings pos).payloadOf? scope = some existing := by
    cases scope <;> exact fun _ => known
  refine ⟨existing, kept _, or_iff_not_imp_left.mpr fun apart => ?_⟩
  obtain ⟨f, found⟩ :
      ∃ f, f ∈ Check.payloadRedeclaration scope existing.text ty.text onMethod := by
    simp only [Check.payloadRedeclaration, beq_iff_eq, if_neg apart]
    cases onMethod <;> exact ⟨_, List.mem_cons_self⟩
  exact ⟨existing.text, ty.text, onMethod, pos, apart, f, found,
    List.mem_append_right _ (List.mem_map_of_mem found)⟩

theorem declarePayload_retains (cx : Setting) (onMethod : Option String)
    (p : Declared PayloadArguments) (d : Draft) : d.Retains (declarePayload cx onMethod p d) := by
  rcases declarePayload_told cx onMethod p d with told | ⟨scope, free, same⟩
  · exact told.retains
  · rw [same]
    exact Draft.gaining_retains free

theorem declarePayload_honours (onMethod : Option String) {p : Declared PayloadArguments}
    (inside : cx.scope? p.value = some scope) (d : Draft) :
    (declarePayload cx onMethod p d).Honours scope p.value.ty := by
  rcases declarePayload_cases cx onMethod p d with
    ⟨r, fires, unknown, _⟩ | ⟨other, also, ⟨existing, known, same⟩ | ⟨free, same⟩⟩
  · simp [Setting.scope?, fires, unknown] at inside
  · obtain rfl := Option.some.inj (also.symm.trans inside)
    rw [same]
    exact tell_redeclared known p.value.ty onMethod p.pos
  · obtain rfl := Option.some.inj (also.symm.trans inside)
    rw [same]
    exact Draft.gaining_honours free

theorem foldl_retains {α : Type} {f : Draft → α → Draft} (retains : ∀ d a, Draft.Retains d (f d a))
    (added : List α) (d : Draft) : d.Retains (added.foldl f d) := by
  induction added generalizing d with
  | nil => exact .refl d
  | cons a rest ih => exact (retains d a).trans (ih (f d a))

theorem declarePayloads_honours (declares : cx.Declares scope ty) (d : Draft) :
    (declarePayloads cx d).Honours scope ty := by
  have retains (d : Draft) (source : Option String × Declared PayloadArguments) :=
    declarePayload_retains cx source.1 source.2 d
  rw [declarePayloads_eq]
  cases declares with
  | machine shared =>
      have start : Draft.Honours { d with defaultPayload := cx.primary.payload } none ty :=
        ⟨ty, shared, .inl rfl⟩
      exact start.retained (foldl_retains retains _ _)
  | payload declared inside =>
      rw [← MachineFacts.payloadSources_map] at declared
      obtain ⟨⟨onMethod, p⟩, member, rfl⟩ := List.mem_map.mp declared
      obtain ⟨before, behind, split⟩ := List.append_of_mem member
      rw [split, List.foldl_append, List.foldl_cons]
      exact (declarePayload_honours onMethod inside _).retained (foldl_retains retains behind _)

theorem addDeclaration_retains (d : Draft) (e : Declared MachineDeclaration) :
    d.Retains (addDeclaration cx d e) := by
  have grows : d.report <+: (addDeclaration cx d e).report := (addDeclaration_report e d).1
  rcases addDeclaration_cases cx d e with
    ⟨_, spares, _⟩ | ⟨l, _, ⟨_, told⟩ | ⟨_, t, gains⟩⟩
  · exact Draft.Pays.retains ⟨spares.defaultPayload, spares.triggerPayloads⟩ grows
  · exact told ▸ (tell_told d _ e.pos).retains
  · have told := gains.told
    exact Draft.Pays.retains ⟨told.defaultPayload, told.triggerPayloads⟩ told.report

theorem draft_honours (declares : cx.Declares scope ty) (report : Report) :
    (draft cx report).Honours scope ty := by
  unfold draft
  extract_lets start
  have checked := checks_told cx
    (cx.machine.declarations.foldl (addDeclaration cx) (declarePayloads cx start))
  exact ((declarePayloads_honours declares start).retained
    (foldl_retains addDeclaration_retains cx.machine.declarations _)).retained
      (checked.retains)

end Build

namespace MachineFacts

open Build

/-- In an accepted machine no payload type is overridden: each one that is declared, for the whole
machine or for a trigger however it is referred to, is spelled like the one that the model has for
its scope. Where two types that are spelled differently are declared for one scope, the machine is
not accepted, and the report tells of it. -/
theorem payloads_not_overridden (machine : MachineFacts) (facts : ModuleFacts) :
    (∀ m, (machine.build facts).1 = some m →
      ∃ cx, machine.setting? facts = some cx ∧
        (∀ p ∈ machine.payloadTypes facts, ∃ scope, cx.scope? p.value = some scope) ∧
        ∀ scope ty, cx.Declares scope ty →
          ∃ kept, m.payloadOf? scope = some kept ∧ kept.text = ty.text) ∧
      ∀ cx, machine.setting? facts = some cx → ∀ scope ty other,
        cx.Declares scope ty → cx.Declares scope other → ty.text ≠ other.text →
          (machine.build facts).1 = none ∧ (machine.build facts).2.hasErrors ∧
            (machine.build facts).2.TellsConflict scope := by
  cases set : machine.setting? facts with
  | none =>
      obtain ⟨stopped, _⟩ := build_unset set
      simp [stopped]
  | some cx =>
      obtain ⟨extensible, primary, states, triggers, declared, known, rfl⟩ :=
        setting?_eq_some.mp set
      let cx : Setting := ⟨machine, facts, states, triggers, primary.value⟩
      let d := draft cx (machine.opening primary)
      have built : machine.build facts = cx.outcome d := build_known declared extensible known
      rw [built]
      constructor
      · intro m accepted
        obtain ⟨clean, same⟩ := Option.ite_none_left_eq_some.mp accepted
        obtain rfl := Option.some.inj same
        have quiet : d.report.hasErrors = false := by
          simp only [Bool.or_eq_true, not_or, Bool.not_eq_true] at clean
          exact clean.1
        refine ⟨cx, rfl, fun p member => ?_, fun scope ty declares => ?_⟩
        · cases trigger : p.value.trigger with
          | none => exact ⟨none, by simp [Setting.scope?, trigger]⟩
          | some r =>
              have listed : r ∈ machine.triggerReferences facts := List.mem_append_right _
                (List.mem_filterMap.mpr ⟨p, member, trigger⟩)
              obtain ⟨t, found⟩ := Option.isSome_iff_exists.mp ((draft_resolves quiet).fired r listed)
              exact ⟨some t.name, by simp [Setting.scope?, trigger, cx, found]⟩
        · obtain ⟨kept, known, agrees⟩ := draft_honours declares (machine.opening primary)
          refine ⟨kept, ?_, agrees.resolve_right fun tells => ?_⟩
          · cases scope <;> exact known
          · cases quiet.symm.trans tells.hasErrors
      · rintro _ ⟨⟩ scope ty other declares also apart
        obtain ⟨kept, known, agrees⟩ := draft_honours declares (machine.opening primary)
        obtain ⟨again, found, alike⟩ := draft_honours also (machine.opening primary)
        obtain rfl := Option.some.inj (known.symm.trans found)
        have tells : d.report.TellsConflict scope := by
          rcases agrees with spelled | tells
          · exact alike.resolve_left fun other => apart (spelled.symm.trans other)
          · exact tells
        have reported : (cx.outcome d).2.TellsConflict scope := tells.grow (List.prefix_append _ _)
        refine ⟨?_, reported.hasErrors, reported⟩
        rw [Setting.outcome, tells.hasErrors]
        rfl

end MachineFacts

section Kiosk

def kioskType (name : String) : Ty := .path (.word name)

/-- A kiosk whose method says again, by the discriminant of the trigger, what is paid with. -/
def kioskModule (again : String) : ModuleFacts where
  name := "kiosk"
  enums :=
    [⟨"State", ["Open", "Shut"].map porchMember⟩, ⟨"Trigger", [⟨"Pay", ⟨1, 0⟩, some 0⟩]⟩]
  methods :=
    [⟨"Kiosk", "ring", .exclusive, [], none, false,
      [⟨⟨kioskType again, some ⟨.literal (.int "0"), ⟨4, 0⟩⟩⟩, ⟨4, 0⟩⟩]⟩]

def kioskFacts : MachineFacts where
  name := "Kiosk"
  pos := ⟨1, 0⟩
  generics := {}
  fields := .unit
  itemIndex := 0
  malformed := false
  declarations :=
    [⟨.machine
        { state := some (.word "State"), trigger := some (.word "Trigger")
          payload := some (kioskType "u32") }, ⟨1, 0⟩⟩,
     ⟨.payload ⟨kioskType "Coin", some (porchReference "Pay")⟩, ⟨2, 0⟩⟩,
     ⟨.payload ⟨kioskType "u32", none⟩, ⟨3, 0⟩⟩]

def kioskSetting (again : String) : Build.Setting where
  machine := kioskFacts
  facts := kioskModule again
  stateEnum := ⟨"State", ["Open", "Shut"].map porchMember⟩
  triggerEnum := ⟨"Trigger", [⟨"Pay", ⟨1, 0⟩, some 0⟩]⟩
  primary :=
    { state := some (.word "State"), trigger := some (.word "Trigger")
      payload := some (kioskType "u32") }

theorem kiosk_declares (again : String) :
    (kioskSetting again).Declares (some "Pay") (kioskType "Coin") ∧
      (kioskSetting again).Declares (some "Pay") (kioskType again) := by
  constructor
  · exact .payload (p := ⟨⟨kioskType "Coin", some (porchReference "Pay")⟩, ⟨2, 0⟩⟩)
      List.mem_cons_self rfl
  · refine .payload
      (p := ⟨⟨kioskType again, some ⟨.literal (.int "0"), ⟨4, 0⟩⟩⟩, ⟨4, 0⟩⟩) ?_ rfl
    exact List.mem_append_right _ List.mem_cons_self

theorem kiosk_takes_coins :
    (∃ m, (kioskFacts.build (kioskModule "Coin")).1 = some m ∧
      ∃ kept, m.payloadOf? (some "Pay") = some kept ∧ kept.text = "Coin") ∧
      (kioskFacts.build (kioskModule "Note")).1 = none ∧
      (kioskFacts.build (kioskModule "Note")).2.TellsConflict (some "Pay") := by
  obtain ⟨accepted, _⟩ := kioskFacts.payloads_not_overridden (kioskModule "Coin")
  obtain ⟨_, refused⟩ := kioskFacts.payloads_not_overridden (kioskModule "Note")
  constructor
  · obtain ⟨m, built⟩ : ∃ m, (kioskFacts.build (kioskModule "Coin")).1 = some m := ⟨_, rfl⟩
    obtain ⟨cx, set, _, kept⟩ := accepted m built
    obtain rfl : kioskSetting "Coin" = cx := Option.some.inj set
    exact ⟨m, built, kept (some "Pay") (kioskType "Coin") (kiosk_declares "Coin").1⟩
  · obtain ⟨stopped, _, told⟩ := refused (kioskSetting "Note") rfl (some "Pay")
      (kioskType "Coin") (kioskType "Note") (kiosk_declares "Note").1 (kiosk_declares "Note").2
      (by decide)
    exact ⟨stopped, told⟩

end Kiosk

end Statewright
