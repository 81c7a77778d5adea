import Statewright.Proofs.Build.Payloads
import Statewright.Proofs.Execution.Foresight
import Statewright.Proofs.Execution.Selection

/-!
# Payload filter

Where triggers have payload types of their own, a payload of another type is turned away before
anything happens. The type that counts is the one that the callbacks of the trigger were checked
against.
-/

namespace Statewright.Execution

open Grammar

variable {σ υ ω : Type} {e : Emission}

theorem enforced?_eq (multi : e.payload = .multi) (trigger : String) :
    enforced? e trigger = e.model.payloadFor? trigger := by
  let arm (entry : String × Ty) : Option String × Ty := (some entry.1, entry.2)
  have default (default : Option Ty) :
      ((default.toList.map fun ty => ((none : Option String), ty)).find?
        fun entry => entry.1.all (· == trigger)).map (·.2) = default := by
    cases default <;> rfl
  have matched : ((fun entry : Option String × Ty => entry.1.all (· == trigger)) ∘ arm) =
      fun entry : String × Ty => entry.1 == trigger := by
    funext entry
    rfl
  have asked : enforced? e trigger =
      ((e.model.triggerPayloads.map arm ++
          e.model.defaultPayload.toList.map fun ty => ((none : Option String), ty)).find?
        fun entry => entry.1.all (· == trigger)).map (·.2) := if_pos multi
  rw [asked, List.find?_append, Option.map_or, default, Model.payloadFor?, List.find?_map, matched,
    Option.map_map]
  rfl

theorem visible_carried (multi : e.payload = .multi) (payload : Option υ) :
    visible e payload = payload := by
  simp [visible, Emission.carriesPayload, multi]

theorem passes_iff (multi : e.payload = .multi) (h : Host σ υ ω) (trigger : String)
    (payload : Option υ) :
    passes e h trigger payload = true ↔
      ∀ p ty, payload = some p → e.model.payloadFor? trigger = some ty → h.isOf p ty := by
  cases payload with
  | none => simp [passes]
  | some p =>
      cases wanted : e.model.payloadFor? trigger with
      | none => simp [passes, enforced?_eq multi, wanted]
      | some ty => simp [passes, enforced?_eq multi, wanted]

variable (h : Host σ υ ω) (trigger : String) {payload : Option υ}

theorem filtered_out (multi : e.payload = .multi) (stopped : passes e h trigger payload = false)
    (m : Machine σ ω) :
    tryFire e h trigger payload m = (false, m, []) ∧
      canFire e h trigger payload m = (false, m, []) := by
  constructor
  · rw [tryFire_eq, visible_carried multi, stopped]
    rfl
  · rw [canFire, visible_carried multi, stopped]
    rfl

theorem let_through (multi : e.payload = .multi) (passed : passes e h trigger payload = true)
    (m : Machine σ ω) :
    tryFire e h trigger payload m =
        tryCandidates e h m.state payload (e.model.candidatesOn m.state trigger) m ∧
      canFire e h trigger payload m =
        Run.any (wouldTake h payload) (e.model.candidatesOn m.state trigger) m := by
  constructor
  · rw [tryFire_eq, visible_carried multi, if_pos passed, tryCandidates_eq]
  · rw [← any_consulted, canFire, visible_carried multi, if_pos passed]
    rfl

/-- A payload is turned away, and nothing happens, just when it is of another type than the trigger
wants; all else goes on to the candidates. The type wanted is the trigger's own or the default, and
it is the one that its transitions were built for. -/
theorem payload_filtered (accepted : e.Accepted) (multi : e.payload = .multi) (m : Machine σ ω) :
    (∀ p ty, e.model.payloadFor? trigger = some ty → h.isOf p ty = false →
        tryFire e h trigger (some p) m = (false, m, []) ∧
          canFire e h trigger (some p) m = (false, m, [])) ∧
      (∀ payload, (∀ p ty, payload = some p → e.model.payloadFor? trigger = some ty →
          h.isOf p ty) →
        let candidates := e.model.candidatesOn m.state trigger
        tryFire e h trigger payload m = tryCandidates e h m.state payload candidates m ∧
          canFire e h trigger payload m = Run.any (wouldTake h payload) candidates m) ∧
      (∀ ty, e.model.payloadFor? trigger = some ty ↔ (trigger, ty) ∈ e.model.triggerPayloads ∨
        trigger ∉ e.model.triggerPayloads.map Prod.fst ∧ e.model.defaultPayload = some ty) ∧
      (∀ t ∈ e.model.transitions, t.trigger = trigger →
        t.expectedPayload = e.model.payloadFor? trigger) ∧
      (e.model.triggerPayloads.map Prod.fst).Nodup := by
  obtain ⟨owners, expected, _⟩ := accepted.typed
  refine ⟨?_, ?_, ?_, ?_, owners⟩
  · intro p ty wanted other
    apply filtered_out h trigger multi
    rw [Bool.eq_false_iff]
    intro passed
    have type := (passes_iff multi h trigger (some p)).mp passed p ty rfl wanted
    simp [other] at type
  · intro payload fits
    exact let_through h trigger multi ((passes_iff multi h trigger payload).mpr fits) m
  · exact fun ty => Model.payloadFor?_eq_some owners
  · rintro t member rfl
    exact expected t member

section Till

open Declaration

def tillReference (name : String) : Reference := ⟨.path (.word name), ⟨1, 0⟩⟩

def price : Ty := .path (.word "Price")

def coin : Ty := .path (.word "Coin")

/-- The price as another module would spell it. -/
def shopPrice : Ty := .path (.mk false [.mk "shop" .none, .mk "Price" .none])

def tillFacts : MachineFacts where
  name := "Till"
  pos := ⟨1, 0⟩
  generics := {}
  fields := .unit
  itemIndex := 0
  malformed := false
  declarations :=
    [⟨.machine { state := some (.word "State"), trigger := some (.word "Trigger")
                 payload := some coin }, ⟨1, 0⟩⟩,
     ⟨.payload { ty := price, trigger := some (tillReference "Scan") }, ⟨1, 0⟩⟩,
     ⟨.transition ⟨tillReference "Idle", tillReference "Scan", tillReference "Open",
       some "known", some "ring"⟩, ⟨1, 0⟩⟩,
     ⟨.transition ⟨tillReference "Open", tillReference "Pay", tillReference "Idle", none,
       some "take"⟩, ⟨1, 0⟩⟩]

def tillModule : ModuleFacts where
  name := "till"
  enums :=
    [⟨"State", [⟨"Idle", ⟨1, 0⟩, none⟩, ⟨"Open", ⟨1, 0⟩, none⟩]⟩,
     ⟨"Trigger", [⟨"Scan", ⟨1, 0⟩, none⟩, ⟨"Pay", ⟨1, 0⟩, none⟩]⟩]
  methods :=
    [⟨"Till", "known", .shared, [.reference none false shopPrice], some (.path (.word "bool")),
       false, []⟩,
     ⟨"Till", "ring", .exclusive,
       [.path (.mk false [.mk "Option" (.angle false [.type (.reference none false price)] false)])],
       none, false, []⟩,
     ⟨"Till", "take", .exclusive, [.reference none false coin], none, false, []⟩]

def tillKnown : Callback := { name := "known", role := .guard, payload := .required shopPrice }

def tillRing : Callback := { name := "ring", role := .action, payload := .optional price }

def tillTake : Callback := { name := "take", role := .action, payload := .required coin }

def till : Emission where
  model :=
    { name := "Till"
      module := some "till"
      states := [{ name := "Idle" }, { name := "Open" }]
      triggers := ["Scan", "Pay"]
      transitions :=
        [{ source := "Idle", trigger := "Scan", target := "Open", guard := some tillKnown
           action := some tillRing, expectedPayload := some price },
         { source := "Open", trigger := "Pay", target := "Idle", action := some tillTake
           expectedPayload := some coin }]
      defaultPayload := some coin
      triggerPayloads := [("Scan", price)]
      config := { variant := .withMultiPayload, hasPayload := true } }
  variant := .withMultiPayload
  payload := .multi

theorem till_accepted : till.Accepted := ⟨tillFacts, tillModule, rfl, rfl⟩

def tillHost : Host Unit String Unit where
  isOf p ty := Shape.isNamed ty p
  typeName p := p
  call _ _ data := (.holds, data)
  react extension _ := (extension, false)

theorem till_wants_price :
    let m : Machine Unit Unit := start till "Idle" ()
    till.Accepted ∧ till.payload = .multi ∧ till.model.payloadFor? "Scan" = some price ∧
      tryFire till tillHost "Scan" (some "Coin") m = (false, m, []) ∧
      tryFire till tillHost "Scan" (some "Price") m =
        tryCandidates till tillHost "Idle" (some "Price") (till.model.candidatesOn "Idle" "Scan") m ∧
      (tryFire till tillHost "Scan" (some "Price") m).1 = true := by
  intro m
  obtain ⟨turned, onward, _⟩ := payload_filtered tillHost "Scan" till_accepted rfl m
  obtain ⟨coin, _⟩ := turned "Coin" price rfl (by decide)
  obtain ⟨price, _⟩ := onward (some "Price") (by
    rintro p ty ⟨⟩ wanted
    obtain rfl := Option.some.inj wanted
    decide)
  exact ⟨till_accepted, rfl, rfl, coin, price, by decide +kernel⟩

end Till

end Statewright.Execution
