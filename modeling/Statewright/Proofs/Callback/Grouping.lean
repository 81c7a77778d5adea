import Statewright.Proofs.Callback.Future
import Statewright.Proofs.Grammar.Opened

/-!
# Hidden groups in signatures

A macro leaves hidden groups in the types that it is given. They make no difference to what a method
returns. A parameter is looked at as it stands, though: a reference in a group is not seen, so a
token behind it is no token, and a payload has no form that can be called.
-/

namespace Statewright.Shape

open Grammar

variable {t other : Ty}

@[simp] theorem isNamed_opened (t : Ty) (name : String) :
    isNamed t.opened name = isNamed t name := by
  simp [isNamed, t.lastSegment?_opened, Function.comp_def, Segment.ident_opened]

theorem firstArgument?_opened (t : Ty) :
    firstArgument? t.opened = (firstArgument? t).map Ty.opened := by
  unfold firstArgument?
  rw [t.lastSegment?_opened]
  cases t.lastSegment? with
  | none => rfl
  | some s => simp [s.typeArguments_opened, List.head?_map]

theorem resolved_opened : ∀ t : Ty, resolved t.opened = resolved t
  | .path p => by simp only [Ty.opened, resolved, p.word?_opened]
  | .paren inner => resolved_opened inner
  | .group inner => resolved_opened inner
  | .tuple [] _ | .tuple (_ :: _) _ => rfl
  | .projection .. | .reference .. | .pointer .. | .slice .. | .array .. | .implBound ..
  | .object .. | .never | .infer | .other .. => rfl

theorem successType?_opened (t : Ty) :
    successType? t.opened = (successType? t).map Ty.opened := by
  unfold successType?
  rw [isNamed_opened, firstArgument?_opened]
  split <;> rfl

theorem outcome_opened (output : Option Ty) : outcome (output.map Ty.opened) = outcome output := by
  cases output with
  | none => rfl
  | some t =>
      simp only [outcome, Option.map_some, successType?_opened]
      cases successType? t with
      | none => simp [resolved_opened]
      | some success => simp [resolved_opened]

theorem declaredOutput_opened (arguments : Arguments) :
    boundOutput?.declaredOutput arguments.opened =
      (boundOutput?.declaredOutput arguments).map Ty.opened := by
  cases arguments with
  | angle turbofish arguments trailing =>
      simp only [Arguments.opened, boundOutput?.declaredOutput, Argument.allOpened_eq_map,
        List.findSome?_map, List.map_findSome?]
      congr 1
      funext a
      cases a with
      | binding name arguments ty =>
          by_cases output : name = "Output"
          · subst output
            rfl
          · simp [Argument.opened, output]
      | _ => rfl
  | _ => rfl

theorem boundOutput?_opened (bounds : List Bound) :
    boundOutput? (bounds.map Bound.opened) = (boundOutput? bounds).map (Option.map Ty.opened) := by
  induction bounds with
  | nil => rfl
  | cons b rest ih =>
      cases b with
      | trait parenthesized modifiers p =>
          simp only [List.map_cons, Bound.opened, boundOutput?, p.last?_opened]
          cases last : p.last? with
          | none => simpa using ih
          | some s =>
              obtain ⟨name, arguments⟩ := s
              by_cases future : name = "Future"
              · subst future
                simp [Segment.opened, declaredOutput_opened]
              · simp [Segment.opened, future, ih]
      | lifetime | capture | other => exact ih

mutual

theorem futureOutput?_opened : ∀ t : Ty,
    futureOutput? t.opened = (futureOutput? t).map (Option.map Ty.opened)
  | .implBound bounds trailing | .object keyword bounds trailing => by
    simp only [Ty.opened, futureOutput?, Bound.allOpened_eq_map, boundOutput?_opened]
  | .paren inner => futureOutput?_opened inner
  | .group inner => futureOutput?_opened inner
  | .path p => pathOutput?_opened p
  | .projection .. | .reference .. | .pointer .. | .tuple .. | .slice .. | .array .. | .never
  | .infer | .other .. => rfl

theorem pathOutput?_opened : ∀ p : Path,
    pathOutput? p.opened = (pathOutput? p).map (Option.map Ty.opened)
  | .mk _ segments => lastOutput?_opened segments

theorem lastOutput?_opened : ∀ segments : List Segment,
    lastOutput? (Segment.allOpened segments) = (lastOutput? segments).map (Option.map Ty.opened)
  | [] => rfl
  | [s] => segmentOutput?_opened s
  | _ :: s :: rest => lastOutput?_opened (s :: rest)

theorem segmentOutput?_opened : ∀ s : Segment,
    segmentOutput? s.opened = (segmentOutput? s).map (Option.map Ty.opened)
  | .mk name arguments => by
    have first := congrArg List.head? (Segment.mk name arguments).typeArguments_opened
    simp only [Segment.opened, segmentOutput?, heldOutput?_opened arguments] at first ⊢
    rw [first, List.head?_map]
    split
    · rfl
    · split <;> rfl

theorem heldOutput?_opened : ∀ arguments : Arguments,
    heldOutput? arguments.opened = (heldOutput? arguments).map (Option.map Ty.opened)
  | .none | .call .. => rfl
  | .angle _ arguments _ => firstTypeOutput?_opened arguments

theorem firstTypeOutput?_opened : ∀ arguments : List Argument,
    firstTypeOutput? (Argument.allOpened arguments) =
      (firstTypeOutput? arguments).map (Option.map Ty.opened)
  | [] => rfl
  | .type t :: _ => futureOutput?_opened t
  | .lifetime .. :: rest | .value .. :: rest | .binding .. :: rest | .bindingValue .. :: rest
  | .constraint .. :: rest => firstTypeOutput?_opened rest

end

theorem returned_opened (isAsync : Bool) (output : Option Ty) (isGuard : Bool) :
    returned isAsync (output.map Ty.opened) isGuard = returned isAsync output isGuard := by
  cases isAsync with
  | true => simp only [returned, if_true, outcome_opened]
  | false =>
      cases output with
      | none => rfl
      | some t =>
          have held := outcome_opened (some t)
          simp only [Option.map_some] at held
          simp only [returned, Option.map_some, isNamed_opened, futureOutput?_opened t, held]
          rcases futureOutput? t with _ | _ | inner
          · rfl
          · rfl
          · have held := outcome_opened (some inner)
            simp only [Option.map_some] at held ⊢
            rw [held]

/-! ## Parameters -/

def target? : Ty → Option (Bool × Ty)
  | .reference _ exclusive target => some (exclusive, target)
  | _ => none

theorem target?_opened : ∀ t : Ty,
    target? t.opened =
      (target? t.ungrouped).map fun (exclusive, target) => (exclusive, target.opened)
  | .group inner => target?_opened inner
  | .path .. | .projection .. | .reference .. | .pointer .. | .tuple .. | .paren .. | .slice ..
  | .array .. | .implBound .. | .object .. | .never | .infer | .other .. => rfl

theorem target?_ungrouped {pair : Bool × Ty} (referring : target? t = some pair) :
    target? t.ungrouped = some pair := by
  cases t with
  | reference => exact referring
  | _ => cases referring

theorem isNamed_referring {pair : Bool × Ty} (name : String) :
    ∀ t : Ty, target? t.ungrouped = some pair → isNamed t name = false
  | .group inner, referring => isNamed_referring name inner referring
  | .reference .., _ => rfl

theorem tokenParameter_eq (t : Ty) :
    tokenParameter t =
      match target? t with
      | some (_, target) => if isNamed target "CancellationToken" then .borrowed else .none
      | none => if isNamed t "CancellationToken" then .owned else .none := by
  cases t <;> rfl

/-- Hidden groups stand between the type and a reference to the target. -/
def Veils (t : Ty) (exclusive : Bool) (target : Ty) : Prop :=
  target? t = none ∧ target? t.ungrouped = some (exclusive, target)

def VeilsToken (t : Ty) : Prop :=
  ∃ exclusive target, Veils t exclusive target ∧ isNamed target "CancellationToken"

def VeilsPayload (t : Ty) : Prop :=
  (∃ target, Veils t false target) ∨
    isNamed t "Option" ∧ ∃ held ∈ firstArgument? t, ∃ target, Veils held false target

theorem tokenParameter_opened (plain : ¬VeilsToken t) :
    tokenParameter t.opened = tokenParameter t := by
  rw [tokenParameter_eq, tokenParameter_eq, target?_opened]
  cases found : target? t with
  | some pair => simp [target?_ungrouped found]
  | none =>
      cases behind : target? t.ungrouped with
      | none => simp
      | some pair =>
          have other : isNamed pair.2 "CancellationToken" = false := by
            simpa using fun named => plain ⟨pair.1, pair.2, ⟨found, behind⟩, named⟩
          simp [other, isNamed_referring _ _ behind]

theorem tokenParameter_veiled (veiled : VeilsToken t) :
    tokenParameter t = .none ∧ tokenParameter t.opened = .borrowed := by
  obtain ⟨exclusive, target, ⟨found, behind⟩, named⟩ := veiled
  rw [tokenParameter_eq, tokenParameter_eq, target?_opened, found, behind]
  simp [named, isNamed_referring _ _ behind]

theorem target?_eq_some_iff {exclusive : Bool} {target : Ty} :
    target? t = some (exclusive, target) ↔
      ∃ lifetime, t = .reference lifetime exclusive target := by
  cases t <;> simp [target?]

theorem payloadParameter_required {target : Ty} (referring : target? t = some (false, target)) :
    payloadParameter t = .required target := by
  obtain ⟨lifetime, rfl⟩ := target?_eq_some_iff.mp referring
  rfl

theorem payloadParameter_optional {held target : Ty} (named : isNamed t "Option")
    (first : firstArgument? t = some held) (referring : target? held = some (false, target)) :
    payloadParameter t = .optional target := by
  obtain ⟨lifetime, rfl⟩ := target?_eq_some_iff.mp referring
  cases t with
  | reference => cases named
  | _ => simp only [payloadParameter, named, first, if_true]

theorem payloadParameter_invalid (other : ∀ target, target? t ≠ some (false, target))
    (unheld : isNamed t "Option" → ∀ held ∈ firstArgument? t, ∀ target,
      target? held ≠ some (false, target)) :
    payloadParameter t = .invalid t := by
  rcases payloadParameter_cases t with ⟨l, target, rfl, _⟩ | ⟨l, target, named, first, _⟩ | invalid
  · exact absurd rfl (other target)
  · exact absurd rfl (unheld named _ first target)
  · exact invalid

theorem target?_shared_opened (plain : ∀ target, ¬Veils t false target) :
    (∃ target, target? t = some (false, target) ∧ target? t.opened = some (false, target.opened)) ∨
      (∀ target, target? t ≠ some (false, target)) ∧
        ∀ target, target? t.opened ≠ some (false, target) := by
  rw [target?_opened]
  match found : target? t with
  | some (exclusive, target) =>
      rw [target?_ungrouped found]
      cases exclusive <;> simp
  | none =>
      refine .inr ⟨nofun, fun target opens => ?_⟩
      obtain ⟨⟨exclusive, inner⟩, behind, pair⟩ := Option.map_eq_some_iff.mp opens
      obtain ⟨rfl, -⟩ := Prod.mk.inj pair
      exact plain inner ⟨found, behind⟩

end Statewright.Shape

namespace Statewright

open Grammar

def PayloadParameter.opened : PayloadParameter → PayloadParameter
  | none => none
  | required ty => required ty.opened
  | optional ty => optional ty.opened
  | invalid ty => invalid ty.opened

namespace Shape

variable {t : Ty}

theorem payloadParameter_opened (plain : ¬VeilsPayload t) :
    payloadParameter t.opened = (payloadParameter t).opened := by
  obtain ⟨apart, unheld⟩ := not_or.mp plain
  rcases target?_shared_opened (not_exists.mp apart) with
    ⟨target, found, opens⟩ | ⟨none, noneOpened⟩
  · rw [payloadParameter_required found, payloadParameter_required opens, PayloadParameter.opened]
  by_cases option : isNamed t "Option" ∧ ∃ held, firstArgument? t = some held
  · obtain ⟨named, held, first⟩ := option
    have firstOpened : firstArgument? t.opened = some held.opened := by
      rw [firstArgument?_opened, first, Option.map_some]
    have namedOpened : isNamed t.opened "Option" := by rwa [isNamed_opened]
    have heldPlain : ∀ target, ¬Veils held false target := fun target veils =>
      unheld ⟨named, held, first, target, veils⟩
    rcases target?_shared_opened heldPlain with ⟨target, found, opens⟩ | ⟨other, otherOpened⟩
    · rw [payloadParameter_optional named first found,
        payloadParameter_optional namedOpened firstOpened opens, PayloadParameter.opened]
    · rw [payloadParameter_invalid none (by simpa [first] using fun _ => other),
        payloadParameter_invalid noneOpened (by simpa [firstOpened] using fun _ => otherOpened),
        PayloadParameter.opened]
  · have absent (named : isNamed t "Option") : firstArgument? t = Option.none := by
      cases first : firstArgument? t with
      | none => rfl
      | some held => exact absurd ⟨named, held, first⟩ option
    rw [payloadParameter_invalid none fun named => by simp [absent named],
      payloadParameter_invalid noneOpened fun named => ?_, PayloadParameter.opened]
    rw [isNamed_opened] at named
    simp [firstArgument?_opened, absent named]

theorem payloadParameter_veiled (veiled : VeilsPayload t) :
    payloadParameter t = .invalid t ∧ (∀ ty, payloadParameter t.opened ≠ .invalid ty) := by
  rcases veiled with ⟨target, none, behind⟩ | ⟨named, held, first, target, none, behind⟩
  · constructor
    · refine payloadParameter_invalid (by simp [none]) fun named => ?_
      simp [isNamed_referring _ _ behind] at named
    · have opens : target? t.opened = some (false, target.opened) := by
        rw [target?_opened, behind, Option.map_some]
      simp [payloadParameter_required opens]
  · have unreferring (target : Ty) : target? t ≠ some (false, target) := by
      intro referring
      simp [isNamed_referring _ _ (target?_ungrouped referring)] at named
    constructor
    · refine payloadParameter_invalid unreferring fun _ other member => ?_
      obtain rfl := Option.some.inj (first.symm.trans member)
      simp [none]
    · have firstOpened : firstArgument? t.opened = some held.opened := by
        rw [firstArgument?_opened, first, Option.map_some]
      have opens : target? held.opened = some (false, target.opened) := by
        rw [target?_opened, behind, Option.map_some]
      have namedOpened : isNamed t.opened "Option" := by rwa [isNamed_opened]
      simp [payloadParameter_optional namedOpened firstOpened opens]

theorem splitToken_opened {parameters : List Ty}
    (plain : ∀ last ∈ parameters.getLast?, ¬VeilsToken last) :
    splitToken (parameters.map Ty.opened) =
      ((splitToken parameters).1, (splitToken parameters).2.map Ty.opened) := by
  unfold splitToken
  rw [List.getLast?_map]
  cases ends : parameters.getLast? with
  | none => rfl
  | some last =>
      simp only [Option.map_some, tokenParameter_opened (plain last ends)]
      cases tokenParameter last <;> simp [List.map_dropLast]

theorem head_of_splitToken {parameters rest : List Ty} {first : Ty}
    (others : (splitToken parameters).2 = first :: rest) : first ∈ parameters.head? := by
  rcases splitToken_cases parameters with ⟨last, _, split, _⟩ | ⟨_, kept⟩
  · rw [split, others]
    rfl
  · rw [kept] at others
    rw [show parameters = first :: rest from others]
    rfl

def opened (s : Shape) : Shape := { s with payload := s.payload.opened }

/-- No hidden group stands between a parameter and the reference that tells what it is for. -/
structure Unveiled (parameters : List Ty) : Prop where
  payload : ∀ first ∈ parameters.head?, ¬VeilsPayload first
  token : ∀ last ∈ parameters.getLast?, ¬VeilsToken last

section Signatures

variable (receiver : Receiver) (output : Option Ty) (isAsync : Bool) (role : Role)

theorem ofSignature_opened {parameters : List Ty} (plain : Unveiled parameters) :
    ofSignature receiver (parameters.map Ty.opened) (output.map Ty.opened) isAsync role =
      (ofSignature receiver parameters output isAsync role).opened := by
  simp only [ofSignature, returned_opened, splitToken_opened plain.token, List.length_map, opened]
  cases others : (splitToken parameters).2 with
  | nil => rfl
  | cons first rest =>
      have seen := payloadParameter_opened (plain.payload first (head_of_splitToken others))
      simp only [List.map_cons, seen]

end Signatures

end Shape

/-! ## Verdicts -/

def PayloadParameter.IsPath (payload : PayloadParameter) : Prop :=
  ∃ ty p, payload.type? = some ty ∧ ty.Names p

namespace Check

variable {payload other : PayloadParameter} {method : String} {role : Role}
  {expected : ExpectedPayload} {forced : Bool}

theorem outcome_signature {problem another : SignatureProblem}
    (same : problem.detail = another.detail) :
    (Finding.signature method role expected problem).outcome =
      (Finding.signature method role expected another).outcome := by
  obtain ⟨front, worded⟩ : ∃ front, ∀ problem,
      (Finding.signature method role expected problem).message =
        front ++ SignatureProblem.detail problem ++ ")." := ⟨_, fun _ => rfl⟩
  have message : (Finding.signature method role expected problem).message =
      (Finding.signature method role expected another).message := by
    rw [worded, worded, same]
  exact congrArg (Outcome.mk .invalidMethodSignature _ · none) message

theorem payloadFindings_alike (alike : payload.opened = other.opened)
    (paths : payload.IsPath ↔ other.IsPath) :
    (payloadFindings (.signature method role expected) method role expected forced payload).map
        Finding.outcome =
      (payloadFindings (.signature method role expected) method role expected forced other).map
        Finding.outcome := by
  cases payload <;> cases other <;>
    simp only [PayloadParameter.opened, reduceCtorEq, PayloadParameter.required.injEq,
      PayloadParameter.optional.injEq, PayloadParameter.invalid.injEq] at alike
  case none.none => rfl
  case invalid.invalid found given =>
      have detail : (SignatureProblem.payloadForm found).detail =
          (SignatureProblem.payloadForm given).detail :=
        congrArg (_ ++ ·) (Ty.Alike.text alike)
      cases expected <;> simp [payloadFindings, PayloadParameter.type?, outcome_signature detail]
  all_goals
    rename_i found given
    have detail : (SignatureProblem.payloadType found).detail =
        (SignatureProblem.payloadType given).detail := congrArg (_ ++ ·) (Ty.Alike.text alike)
    have named : (∃ p, found.Names p) ↔ ∃ q, given.Names q := by
      simpa [PayloadParameter.IsPath, PayloadParameter.type?] using paths
    cases expected with
    | none => simp [payloadFindings, PayloadParameter.type?]
    | any => rfl
    | type ty =>
        simp only [payloadFindings, PayloadParameter.type?, Ty.Alike.same_eq alike named ty]
        split
        · rfl
        · simp [outcome_signature detail]

theorem callbackSignature_alike {s t : Shape} (returns : s.returns = t.returns)
    (receiver : s.receiver = t.receiver) (extra : s.extraParameters = t.extraParameters)
    (alike : s.payload.opened = t.payload.opened) (paths : s.payload.IsPath ↔ t.payload.IsPath) :
    (callbackSignature method role (some s) expected forced).map Finding.outcome =
      (callbackSignature method role (some t) expected forced).map Finding.outcome := by
  simp only [callbackSignature, returns, receiver, extra, List.map_append]
  split
  · rfl
  · rw [payloadFindings_alike alike paths]

end Check

namespace Shape

/-- Two signatures that differ in hidden groups only are called and awaited alike, and can fail
alike. If none of them has a parameter behind whose groups a reference stands, the token, the form
of the payload and the number of parameters are the same too, and so is what is found about them,
unless a group stands around the path of the payload in one of them only. A token or a payload
behind such groups is not recognised, whatever is in the groups. -/
theorem ofSignature_grouped {parameters others : List Ty} {output result : Option Ty}
    (alike : parameters.map Ty.opened = others.map Ty.opened)
    (returned : output.map Ty.opened = result.map Ty.opened)
    (receiver : Receiver) (isAsync : Bool) (role : Role) :
    let s := ofSignature receiver parameters output isAsync role
    let t := ofSignature receiver others result isAsync role
    (s.returns = t.returns ∧ s.fallible = t.fallible ∧ s.receiver = t.receiver) ∧
      (Unveiled parameters → Unveiled others →
        s.token = t.token ∧ s.extraParameters = t.extraParameters ∧
          s.payload.opened = t.payload.opened ∧
          ((s.payload.IsPath ↔ t.payload.IsPath) → ∀ method expected forced,
            (Check.callbackSignature method role (some s) expected forced).map Finding.outcome =
              (Check.callbackSignature method role (some t) expected forced).map
                Finding.outcome)) ∧
      ∀ parameter, (VeilsToken parameter → tokenParameter parameter = .none ∧
          tokenParameter parameter.opened = .borrowed) ∧
        (VeilsPayload parameter → payloadParameter parameter = .invalid parameter ∧
          ∀ ty, payloadParameter parameter.opened ≠ .invalid ty) := by
  intro s t
  have results : Shape.returned isAsync output (role = .guard) =
      Shape.returned isAsync result (role = .guard) := by
    rw [← returned_opened, returned, returned_opened]
  have returns : s.returns = t.returns := congrArg Prod.fst results
  refine ⟨⟨returns, congrArg Prod.snd results, rfl⟩, fun plain plainOthers => ?_, fun parameter =>
    ⟨tokenParameter_veiled, payloadParameter_veiled⟩⟩
  have shapes : s.opened = t.opened := by
    rw [← ofSignature_opened receiver output isAsync role plain, alike, returned,
      ofSignature_opened receiver result isAsync role plainOthers]
  obtain ⟨-, -, -, payload, token, extra⟩ := (Shape.mk.injEq ..).mp shapes
  exact ⟨token, extra, payload, fun paths _ _ _ =>
    Check.callbackSignature_alike returns rfl extra payload paths⟩

def stallType (grouped : Bool) (name : String) : Ty :=
  if grouped then .group (.named name) else .named name

/-- `&Vec<Coin>` and a token by value. -/
def stallParameters (grouped : Bool) : List Ty :=
  [.reference none false (.path (applied [] "Vec" [.type (stallType grouped "Coin")])),
   stallType grouped "CancellationToken"]

/-- `Result<bool, String>` -/
def stallOutput (grouped : Bool) : Ty :=
  .path (applied [] "Result" [.type (stallType grouped "bool"), .type (.named "String")])

theorem stall_unveiled (grouped : Bool) : Unveiled (stallParameters grouped) where
  payload := by
    rintro _ ⟨⟩ (⟨_, none, _⟩ | ⟨named, _⟩)
    · cases none
    · cases named
  token := by
    rintro _ ⟨⟩ ⟨_, _, ⟨_, behind⟩, _⟩
    cases grouped <;> cases behind

theorem stall_grouped :
    let s :=
      ofSignature .shared (stallParameters true) (some (.group (stallOutput true))) false .guard
    let t := ofSignature .shared (stallParameters false) (some (stallOutput false)) false .guard
    (s.returns, s.fallible, s.token, s.extraParameters) = (.syncBool, true, .owned, 0) ∧
      (t.returns, t.fallible, t.token, t.extraParameters) = (.syncBool, true, .owned, 0) ∧
      ∀ method expected forced,
        (Check.callbackSignature method .guard (some s) expected forced).map Finding.outcome =
          (Check.callbackSignature method .guard (some t) expected forced).map Finding.outcome := by
  intro s t
  have parameters :
      (stallParameters true).map Ty.opened = (stallParameters false).map Ty.opened := rfl
  have outputs : (some (Ty.group (stallOutput true))).map Ty.opened =
      (some (stallOutput false)).map Ty.opened := rfl
  have grouped := (ofSignature_grouped parameters outputs .shared false .guard).2.1
  have same := (grouped (stall_unveiled true) (stall_unveiled false)).2.2.2
  exact ⟨by decide, by decide, same (iff_of_true ⟨_, _, rfl, .path _⟩ ⟨_, _, rfl, .path _⟩)⟩

/-- `&Coin`, with and without a hidden group around it. -/
def coinReference (grouped : Bool) : Ty :=
  if grouped then .group (.reference none false (.named "Coin"))
  else .reference none false (.named "Coin")

theorem coin_refused_grouped :
    let shape := fun grouped => ofSignature .exclusive [coinReference grouped] none false .action
    let found := fun grouped =>
      Check.callbackSignature "pay" .action (some (shape grouped)) (.type (.named "Coin")) false
    (coinReference true).Alike (coinReference false) ∧
      (shape false).payload = .required (.named "Coin") ∧ found false = [] ∧
      (shape true).payload = .invalid (coinReference true) ∧
      (found true).map Finding.rule = [.invalidMethodSignature] ∧
      ¬∀ (parameters others : List Ty) (output result : Option Ty) (receiver : Receiver)
          (isAsync : Bool) (role : Role),
        parameters.map Ty.opened = others.map Ty.opened →
          output.map Ty.opened = result.map Ty.opened →
            (ofSignature receiver parameters output isAsync role).payload.opened =
              (ofSignature receiver others result isAsync role).payload.opened := by
  intro shape found
  refine ⟨rfl, rfl, rfl, rfl, rfl, fun claimed => ?_⟩
  have same := claimed [coinReference true] [coinReference false] none none .exclusive false .action
    rfl rfl
  cases same

end Shape

end Statewright
