import Mathlib.Data.List.Forall2
import Statewright.Emit
import Statewright.Proofs.Build.Growth
import Statewright.Proofs.Execution.Session

/-!
# Emitted calls

The calls of callbacks that are emitted fit the methods they call. Two kinds of parameters escape
the rules: a payload in no known form, of a guard where a forced variant carries no payload, and a
token that is borrowed exclusively.
-/

namespace Statewright.Emission

open Grammar Declaration Emit Build Execution

/-- What a call of the callback may hand over for a parameter of a type. -/
inductive Hands (c : Callback) : Ty → Code → Prop
  | present {lifetime : Option String} {target : Ty} :
      c.payloadPass = .present target → Hands c (.reference lifetime false target) ["__payload"]
  | maybe {t target : Ty} {lifetime : Option String} :
      Shape.isNamed t "Option" →
        Shape.firstArgument? t = some (.reference lifetime false target) →
          c.payloadPass = .maybe target → Hands c t (payloadAs target)
  | owned {t : Ty} :
      Shape.isNamed t "CancellationToken" →
        Hands c t (absolutePath ["core", "clone", "Clone", "clone"] ++ parens ["cancel"])
  | lent {lifetime : Option String} {target : Ty} :
      Shape.isNamed target "CancellationToken" →
        Hands c (.reference lifetime false target) ["cancel"]

def payloadArguments (c : Callback) : List Code :=
  match c.payloadPass with
  | .present _ => [word "__payload"]
  | .maybe ty => [payloadAs ty]
  | .nothing => []

def tokenArguments (c : Callback) : List Code :=
  match c.token with
  | .owned => [absolutePath ["core", "clone", "Clone", "clone"] ++ parens ["cancel"]]
  | .borrowed => [word "cancel"]
  | .none => []

theorem callArguments_eq (c : Callback) :
    callArguments c = payloadArguments c ++ tokenArguments c := rfl

variable {c : Callback}

theorem payloadArguments_fit {t : Ty} (payload : c.payload = Shape.payloadParameter t) :
    List.Forall₂ (Hands c) [t] (payloadArguments c) ∨
      c.payload = .invalid t ∧ payloadArguments c = [] := by
  rcases Shape.payloadParameter_cases t with
    ⟨lifetime, target, rfl, required⟩ | ⟨lifetime, target, named, held, optional⟩ | invalid
  · have pass : c.payloadPass = .present target := by
      rw [Callback.payloadPass, payload, required]
    rw [payloadArguments, pass]
    exact .inl (.cons (.present pass) .nil)
  · have pass : c.payloadPass = .maybe target := by
      rw [Callback.payloadPass, payload, optional]
    rw [payloadArguments, pass]
    exact .inl (.cons (.maybe named held pass) .nil)
  · rw [invalid] at payload
    exact .inr ⟨payload, by simp [payloadArguments, Callback.payloadPass, payload]⟩

theorem tokenArguments_fit {last : Ty} (token : c.token = Shape.tokenParameter last)
    (isToken : Shape.isToken last) :
    List.Forall₂ (Hands c) [last] (tokenArguments c) ∨
      (tokenArguments c).length = 1 ∧ ∃ lifetime target, last = .reference lifetime true target ∧
        Shape.isNamed target "CancellationToken" := by
  rcases Shape.tokenParameter_cases last with
    ⟨lifetime, exclusive, target, rfl, named, borrowed⟩ | ⟨named, owned⟩ | none
  · rw [borrowed] at token
    cases exclusive with
    | false => exact .inl (by simpa [tokenArguments, token] using .lent named)
    | true => exact .inr ⟨by simp [tokenArguments, token], lifetime, target, rfl, named⟩
  · rw [owned] at token
    exact .inl (by simpa [tokenArguments, token] using .owned named)
  · simp [Shape.isToken, none] at isToken

theorem payloadArguments_whole (others : List Ty)
    (payload : c.payload = match others with
      | [] => .none
      | t :: _ => Shape.payloadParameter t)
    (few : others.length - 1 = 0) :
    List.Forall₂ (Hands c) others (payloadArguments c) ∨
      ∃ t, others = [t] ∧ c.payload = .invalid t ∧ payloadArguments c = [] := by
  match others with
  | [] => exact .inl (by simp [payloadArguments, Callback.payloadPass, payload])
  | [t] => exact (payloadArguments_fit payload).imp_right fun unfit => ⟨t, rfl, unfit⟩
  | _ :: _ :: _ => simp at few

theorem callArguments_fit {m : MethodFacts} (payload : c.payload = (shapeFor m c.role).payload)
    (token : c.token = (shapeFor m c.role).token) (few : (shapeFor m c.role).extraParameters = 0) :
    List.Forall₂ (Hands c) m.parameters (callArguments c) ∨
      (∃ t ∈ m.parameters.head?, c.payload = .invalid t ∧
        (callArguments c).length + 1 = m.parameters.length) ∨
      ∃ lifetime target, m.parameters.getLast? = some (.reference lifetime true target) ∧
        Shape.isNamed target "CancellationToken" := by
  have payloads := payloadArguments_whole (Shape.splitToken m.parameters).2 payload few
  rw [callArguments_eq]
  rcases Shape.splitToken_cases m.parameters with ⟨last, isToken, split, kind⟩ | ⟨_, whole⟩
  · generalize (Shape.splitToken m.parameters).2 = others at payloads split
    rcases tokenArguments_fit (token.trans kind) isToken with
      tokens | ⟨_, lifetime, target, rfl, named⟩
    · rcases payloads with fit | ⟨t, rfl, invalid, none⟩
      · exact .inl (split ▸ List.rel_append fit tokens)
      · refine .inr (.inl ⟨t, by simp [split], invalid, ?_⟩)
        simp [none, split, ← tokens.length_eq]
    · exact .inr (.inr ⟨lifetime, target, by simp [split], named⟩)
  · have tokens : tokenArguments c = [] := by
      have none : c.token = .none := token.trans (congrArg Prod.fst whole)
      simp [tokenArguments, none]
    simp only [whole] at payloads
    rw [tokens, List.append_nil]
    rcases payloads with fit | ⟨t, alone, invalid, none⟩
    · exact .inl fit
    · exact .inr (.inl ⟨t, by simp [alone], invalid, by simp [none, alone]⟩)

def guardBody (e : Emission) (c : Callback) : Code :=
  if c.fallible then e.checkedGuard c (e.call c) else e.call c

def effectBody (e : Emission) (c : Callback) (onError : Code) : Code :=
  match c.resultUse with
  | .dropped => code [absolutePath ["core", "mem", "drop"], parens (e.call c), [';']]
  | .inspected =>
    code
      [["if", "let"], result "Err", parens ["error"], ['='], e.call c,
       braces (e.logFailure c "state machine callback failed" ++ onError)]
  | .ignored => e.call c ++ symbol ';'

def whereBound (pass : PayloadPass) (body : Code) : Code :=
  match pass with
  | .present ty =>
    code
      [["match"], payloadAs ty,
       braces (code
         [something ["__payload"], fatArrow, body, [','], nothing, fatArrow, ["false", ',']])]
  | _ => body

def ifBound (pass : PayloadPass) (body : Code) : Code :=
  match pass with
  | .present ty =>
    code [["if", "let"], something ["__payload"], ['='], payloadAs ty, braces body]
  | _ => body

structure Serves (e : Emission) (c : Callback) (m : MethodFacts) : Prop where
  receiver : m.receiver = .shared ∨ m.receiver = .exclusive ∧ c.role ≠ .guard
  token : c.token ≠ .none ↔ ∃ last ∈ m.parameters.getLast?, Shape.isToken last
  tokenInScope : c.token ≠ .none → e.isAsync
  payloadInScope : c.payload.isPresent → e.hasPayloadInScope
  guarded : e.guardExpr c = whereBound c.payloadPass (e.guardBody c)
  effected {onError : Code} :
    e.effect c onError = ifBound c.payloadPass (e.effectBody c onError)
  awaited : c.isAwaited e.isAsync ↔ Shape.isAwaitable m.isAsync m.output
  inspected : c.fallible ↔
    ∃ t, Shape.awaitedType m.isAsync m.output = some t ∧ Shape.isNamed t "Result"
  dropped : c.resultUse = .inspected ↔ c.fallible

theorem shape_token (m : MethodFacts) (role : Role) :
    (shapeFor m role).token ≠ .none ↔ ∃ last ∈ m.parameters.getLast?, Shape.isToken last := by
  have split : (shapeFor m role).token = (Shape.splitToken m.parameters).1 := rfl
  rw [split]
  rcases Shape.splitToken_cases m.parameters with ⟨last, isToken, parameters, kind⟩ | ⟨other, whole⟩
  · rw [kind]
    exact iff_of_true (by simpa [Shape.isToken] using isToken)
      ⟨last, by rw [parameters]; simp, isToken⟩
  · rw [whole]
    refine iff_of_false (by simp) ?_
    rintro ⟨last, ends, isToken⟩
    exact other last ends isToken

theorem expected_none {d : Draft} {cx : Setting} {payload : Option Ty}
    (expected : d.expected payload = .none) : (finish cx d).payloadKind = .none := by
  cases payload with
  | some ty => cases expected
  | none =>
      have without : d.defaultPayload = none ∧ d.triggerPayloads = [] := by
        simpa [Draft.expected, Draft.hasPayload] using expected
      simp [Model.payloadKind, finish, without]

variable {e : Emission}

theorem known_serves {cx : Setting} {d : Draft} (model : e.model = finish cx d)
    (tokens : ∀ u ∈ d.tokenUses, u.token = .none ∨ d.mode.isAsync) (known : d.Knows cx c)
    (listed : c ∈ e.model.callbacks) :
    ∃ m, cx.method? c.name = some m ∧ e.Serves c m ∧
      (List.Forall₂ (Hands c) m.parameters (callArguments c) ∨
        (c.role = .guard ∧ e.model.config.forced.isSome ∧ e.model.payloadKind = .none ∧
          ∃ t ∈ m.parameters.head?, c.payload = .invalid t ∧
            (callArguments c).length + 1 = m.parameters.length) ∨
        ∃ lifetime target, m.parameters.getLast? = some (.reference lifetime true target) ∧
          Shape.isNamed target "CancellationToken") := by
  obtain ⟨m, described, ⟨payload, passed⟩, async, pos, used⟩ := known
  obtain ⟨receiver, usable, few, readable⟩ := Check.callbackSignature_passed passed
  obtain ⟨awaits, inspects⟩ := Shape.returned_usable usable
  have mode : e.isAsync = d.mode.isAsync := by rw [isAsync, model]; rfl
  refine ⟨m, described.found, ?_, ?_⟩
  · refine
      { receiver, token := ?_, tokenInScope := ?_, payloadInScope := ?_, guarded := rfl
        effected := rfl, awaited := ?_, inspected := ?_, dropped := ?_ }
    · rw [described.token, shape_token]
    · intro taken
      rw [mode]
      exact (tokens _ used).resolve_left taken
    · intro present
      simp only [hasPayloadInScope, Bool.or_eq_true, List.any_eq_true]
      exact .inr ⟨c, listed, present⟩
    · rw [Callback.isAwaited, Bool.and_eq_true, mode, and_iff_left_of_imp async, described.isAsync]
      exact awaits
    · rw [described.fallible]
      exact inspects
    · rw [Callback.resultUse]
      cases detached : c.detached with
      | false => cases c.fallible <;> simp
      | true =>
          have certain := Shape.returned_detached _ _ (described.detached.mp detached)
          have same : c.fallible = false := described.fallible.trans certain
          simp [same]
  · refine (callArguments_fit described.payload described.token few).imp_right fun unfit => ?_
    refine unfit.imp_left fun ⟨t, first, invalid, missing⟩ => ?_
    obtain ⟨guard, forced, expected⟩ := readable t (described.payload.symm.trans invalid)
    rw [model]
    exact ⟨guard, forced, expected_none expected, t, first, invalid, missing⟩

theorem trusted_known {cx : Setting} {d : Draft} (trusted : d.Trusted cx)
    (listed : c ∈ (finish cx d).callbacks) : d.Knows cx c := by
  simp only [Model.callbacks, List.mem_append, List.mem_flatMap, Option.mem_toList] at listed
  rcases listed with ⟨t, member, guard | action⟩ | ⟨s, member, entry | exit⟩
  · exact (trusted.edges t member).1 c guard
  · exact (trusted.edges t member).2 c action
  · exact (trusted.walks s member).1 c entry
  · exact (trusted.walks s member).2 c exit

/-- Every call fits the method, but for what the rules let through: the guard of a forced variant
without payloads may want one in no known form, and a token may be borrowed exclusively. -/
theorem calls_fit {machine : MachineFacts} {facts : ModuleFacts}
    (built : (machine.build facts).1 = some e.model) :
    ∀ c ∈ e.model.callbacks, ∃ m,
      (facts.methodsOf machine.name).find? (·.name == c.name) = some m ∧ e.Serves c m ∧
        (List.Forall₂ (Hands c) m.parameters (callArguments c) ∨
          (c.role = .guard ∧ e.model.config.forced.isSome ∧ e.model.payloadKind = .none ∧
            ∃ t ∈ m.parameters.head?, c.payload = .invalid t ∧
              (callArguments c).length + 1 = m.parameters.length) ∨
          ∃ lifetime target, m.parameters.getLast? = some (.reference lifetime true target) ∧
            Shape.isNamed target "CancellationToken") := by
  intro c listed
  obtain ⟨cx, report, rfl, rfl, _, clean, model⟩ := build_setting built
  have known := trusted_known (draft_trusted cx report) (model ▸ listed)
  exact known_serves model (draft_tokens clean) known listed

def heat : Ty := .path (.word "u32")

def heatGuard : Callback := { name := "hot", role := .guard, payload := .required heat }

def heatMethod : MethodFacts :=
  ⟨"Lamp", "hot", .shared, [.reference none false heat], some (.path (.word "bool")), false, []⟩

def heatFacts : MachineFacts :=
  { lampFacts with
    declarations := lampFacts.declarations ++ [⟨.payload { ty := heat }, ⟨1, 0⟩⟩] }

def heatModule : ModuleFacts :=
  { lampModule with methods := lampModule.methods.take 1 ++ [heatMethod] }

def heatLamp : Emission where
  model :=
    { lamp.model with
      transitions := lamp.model.transitions.map fun t =>
        { t with guard := t.guard.map fun _ => heatGuard, expectedPayload := some heat }
      defaultPayload := some heat
      config := { lamp.model.config with variant := .withPayload, hasPayload := true } }
  variant := .withPayload
  payload := .single

theorem heatLamp_accepted : heatLamp.Accepted := ⟨heatFacts, heatModule, rfl, rfl⟩

theorem heatGuard_told :
    heatGuard ∈ heatLamp.model.callbacks ∧ heatLamp.Serves heatGuard heatMethod ∧
      List.Forall₂ (Hands heatGuard) heatMethod.parameters [["__payload"]] := by
  have built : (heatFacts.build heatModule).1 = some heatLamp.model := rfl
  have known : (heatModule.methodsOf "Lamp").find? (·.name == "hot") = some heatMethod := rfl
  have listed : heatGuard ∈ heatLamp.model.callbacks := by
    simp [Model.callbacks, heatLamp, lamp]
  obtain ⟨m, found, serves, fits⟩ := calls_fit built heatGuard listed
  obtain rfl := Option.some.inj (known.symm.trans found)
  refine ⟨listed, serves, ?_⟩
  rcases fits with fits | ⟨_, forced, _⟩ | ⟨lifetime, target, last, _⟩
  · exact fits
  · cases forced
  · cases last

/-- The guard of the gate takes a weight by value, and the variant is forced to carry none. -/
def gateFacts : MachineFacts where
  name := "Gate"
  pos := ⟨1, 0⟩
  generics := {}
  fields := .unit
  itemIndex := 0
  malformed := false
  declarations :=
    [⟨.machine
        { state := some (.word "State"), trigger := some (.word "Trigger"), variant := some .pure },
       ⟨1, 0⟩⟩,
     ⟨.transition
        ⟨lampReference "Shut", lampReference "Push", lampReference "Open", some "ready", none⟩,
       ⟨1, 0⟩⟩]

def gateModule : ModuleFacts where
  name := "gate"
  enums :=
    [⟨"State", ["Shut", "Open"].map lampMember⟩, ⟨"Trigger", ["Push"].map lampMember⟩]
  methods :=
    [⟨"Gate", "ready", .shared, [.path (.word "u32")], some (.path (.word "bool")), false, []⟩]

theorem gate_underfed :
    ∃ model e c m, (gateFacts.build gateModule).1 = some model ∧ model.emission = .ok e ∧
      c ∈ e.model.callbacks ∧ (gateModule.methodsOf "Gate").find? (·.name == c.name) = some m ∧
        m.parameters.length = 1 ∧ callArguments c = [] := by
  exact ⟨_, _, _, _, rfl, rfl, List.mem_cons_self, rfl, rfl, rfl⟩

end Statewright.Emission
