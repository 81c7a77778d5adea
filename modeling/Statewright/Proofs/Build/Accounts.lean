import Statewright.Proofs.Build.Uses

/-!
# Accounts of uses

What a draft says of the modes of the callbacks that were looked at: the first use fixes the mode,
the uses that are turned away are told of, and the others are noted for a look at their tokens.
Declarations add their uses to the account, and nothing else that is told is about modes.
-/

namespace Statewright

open Grammar Declaration

/-- How the finding on a token ends, and no other one under its rule. -/
def tokenWording : String := "Expected: no CancellationToken parameter in a synchronous machine."

namespace Diagnostic

def blamesToken (d : Diagnostic) : Bool :=
  d.rule = .invalidMethodSignature && tokenWording.toList.isSuffixOf d.message.toList

def ofModes (d : Diagnostic) : Bool :=
  d.rule = .mixedModes || d.rule = .asyncInSyncMachine || d.blamesToken

end Diagnostic

def Finding.ofModes : Finding → Bool
  | .mixedModes _ _ | .asyncInSyncMachine _ _ | .tokenInSyncMachine _ _ => true
  | _ => false

theorem tokenWording_ends : tokenWording =
    "Expected: no CancellationToken parameter in a synchronous machin" ++ "e." := by decide

theorem not_tokenWording {text ending : String} {c : Char} (ends : ending.toList = [c, '.'])
    (other : c ≠ 'e') : tokenWording.toList.isSuffixOf (text ++ ending).toList = false := by
  rw [Bool.eq_false_iff]
  intro suffix
  obtain ⟨front, same⟩ := List.isSuffixOf_iff_suffix.mp suffix
  rw [tokenWording_ends, String.toList_append, String.toList_append, ends,
    ← List.append_assoc] at same
  have last := List.append_inj_right' same rfl
  simp at last
  exact other last.symm

theorem ofModes_signature {f : Finding} (filed : f.rule = .invalidMethodSignature)
    (pos : Position) :
    (Diagnostic.ofOutcome pos f.outcome).ofModes =
      tokenWording.toList.isSuffixOf f.message.toList := by
  simp [Diagnostic.ofModes, Diagnostic.blamesToken, Diagnostic.ofOutcome, Finding.outcome, filed]

theorem ofOutcome_ofModes (pos : Position) (f : Finding) :
    (Diagnostic.ofOutcome pos f.outcome).ofModes = f.ofModes := by
  cases f with
  | signature method role expected problem =>
      obtain ⟨text, message⟩ : ∃ text,
        (Finding.signature method role expected problem).message = text ++ ")." := ⟨_, rfl⟩
      rw [ofModes_signature rfl, message]
      exact not_tokenWording (c := ')') rfl (by decide)
  | payloadConflictOnMethod method trigger existing declared =>
      obtain ⟨text, message⟩ : ∃ text,
        (Finding.payloadConflictOnMethod method trigger existing declared).message =
          text ++ "'." := ⟨_, rfl⟩
      rw [ofModes_signature rfl, message]
      exact not_tokenWording (c := '\'') rfl (by decide)
  | tokenInSyncMachine method role =>
      obtain ⟨text, message⟩ : ∃ text,
        (Finding.tokenInSyncMachine method role).message = text ++ tokenWording := ⟨_, rfl⟩
      rw [ofModes_signature rfl, message, String.toList_append]
      exact List.isSuffixOf_iff_suffix.mpr (List.suffix_append _ _)
  | _ => rfl

def Calm (findings : List Finding) : Prop := ∀ f ∈ findings, f.ofModes = false

@[simp] theorem calm_nil : Calm [] := by simp [Calm]

@[simp] theorem calm_singleton {f : Finding} : Calm [f] ↔ f.ofModes = false := by simp [Calm]

@[simp] theorem calm_append {first rest : List Finding} :
    Calm (first ++ rest) ↔ Calm first ∧ Calm rest := List.forall_mem_append

@[simp] theorem calm_ite {c : Prop} [Decidable c] {first rest : List Finding} :
    Calm (if c then first else rest) ↔ (c → Calm first) ∧ (¬c → Calm rest) := by
  split <;> simp [*]

theorem calm_filterMap {α : Type} {find : α → Option Finding}
    (calm : ∀ a, ∀ f ∈ find a, f.ofModes = false) (l : List α) : Calm (l.filterMap find) := by
  intro f found
  obtain ⟨a, _, here⟩ := List.mem_filterMap.mp found
  exact calm a f here

theorem Calm.filter {findings : List Finding} (calm : Calm findings) (place : Finding → Position) :
    (findings.map fun f => Diagnostic.ofOutcome (place f) f.outcome).filter Diagnostic.ofModes =
      [] := by
  refine List.filter_eq_nil_iff.mpr fun d told => ?_
  obtain ⟨f, found, rfl⟩ := List.mem_map.mp told
  simp [ofOutcome_ofModes, calm f found]

namespace Check

theorem callbackSignature_calm (method : String) (role : Role) (shape : Option Shape)
    (expected : ExpectedPayload) (forced : Bool) :
    Calm (callbackSignature method role shape expected forced) := by
  have signature (problem : SignatureProblem) :
      (Finding.signature method role expected problem).ofModes = false := rfl
  cases shape with
  | none => simp [callbackSignature, signature]
  | some s =>
      refine calm_append.mpr ⟨calm_append.mpr ⟨?_, ?_⟩, ?_⟩
      · cases s.receiver <;> simp [receiverFindings, signature]
      · cases s.returns <;> simp [returnFindings, Finding.ofModes]
      · refine calm_ite.mpr ⟨fun _ => by simp [signature], fun _ => ?_⟩
        unfold payloadFindings
        cases expected <;> cases s.payload <;>
          simp [PayloadParameter.type?, Finding.ofModes]

theorem enumValue_calm (value enum : String) (resolved : Bool) :
    Calm (enumValue value enum resolved) := by
  simp [enumValue, Finding.ofModes]

theorem payloadRedeclaration_calm (trigger : Option String) (existing declared : String)
    (onMethod : Option String) :
    Calm (payloadRedeclaration trigger existing declared onMethod) := by
  cases onMethod <;> simp [payloadRedeclaration, Finding.ofModes]

theorem forcedVariant_calm (forced : Variant) (f : Features) : Calm (forcedVariant forced f) := by
  cases forced <;> simp [forcedVariant, Finding.ofModes]

theorem nested_calm (states : List Nested) (moves : List (String × String)) :
    Calm (circularHierarchy states ++ orphanSubstates states ++ compositeEntry states ++
      historyOnLeaf states ++ compositeTargets states moves) := by
  simp only [calm_append]
  refine ⟨⟨⟨⟨?_, ?_⟩, ?_⟩, ?_⟩, ?_⟩ <;> apply calm_filterMap
  · intro cycle f found
    split at found <;> cases found
    rfl
  · intro s f found
    split at found
    · split at found <;> cases found
      rfl
    · cases found
  · intro s f found
    split at found
    · split at found
      · split at found <;> cases found
        rfl
      · cases found
      · cases found
        rfl
    · cases found
  · intro s f found
    split at found <;> cases found
    rfl
  · intro (source, target) f found
    dsimp only at found
    split at found <;> cases found
    rfl

end Check

theorem unreachable_calm (m : Model) : Calm m.unreachable := by
  unfold Model.unreachable Check.unreachableStates
  extract_lets states
  split
  · apply calm_filterMap
    intro (name, i) f found
    dsimp only at found
    split at found <;> cases found
    rfl
  · exact calm_nil

namespace Build

/-! ## Accounts of uses -/

def startsAsync (uses : List Use) : Bool := uses.head?.any Use.isAsync

/-- The uses that the mode of the machine turns away. -/
def rejected (uses : List Use) : List Use :=
  if startsAsync uses then [] else uses.filter Use.isAsync

def admitted (uses : List Use) : List Use :=
  if startsAsync uses then uses else uses.filter fun u => !u.isAsync

def modeOf (uses : List Use) : MachineMode :=
  if uses.isEmpty then .unset else if startsAsync uses then .async else .sync

namespace Use

/-- That the machine mixes modes, told where the first use turned away stands. -/
def mixed (first u : Use) : Diagnostic :=
  .ofOutcome u.pos (Finding.mixedModes first.callback.name u.callback.name).outcome

def late (first u : Use) : Diagnostic :=
  .ofOutcome u.pos (Finding.asyncInSyncMachine u.callback.name first.callback.name).outcome

def idleToken (u : Use) : Diagnostic :=
  .ofOutcome u.pos (Finding.tokenInSyncMachine u.callback.name u.callback.role).outcome

end Use

/-- What is told of the modes of uses, in this order. -/
def conflicts (uses : List Use) : Report :=
  match uses.head?, rejected uses with
  | some first, u :: others => Use.mixed first u :: (u :: others).map (Use.late first)
  | _, _ => []

section Concat

variable {uses : List Use} (nonempty : uses ≠ []) (u : Use)
include nonempty

theorem startsAsync_concat : startsAsync (uses ++ [u]) = startsAsync uses := by
  rw [startsAsync, List.head?_append_of_ne_nil _ nonempty, startsAsync]

theorem modeOf_concat : modeOf (uses ++ [u]) = modeOf uses := by
  simp [modeOf, startsAsync_concat nonempty, nonempty]

theorem rejected_concat : rejected (uses ++ [u]) =
    rejected uses ++ if startsAsync uses || !u.isAsync then [] else [u] := by
  rw [rejected, rejected, startsAsync_concat nonempty]
  cases startsAsync uses <;> cases async : u.isAsync <;> simp [async]

theorem admitted_concat : admitted (uses ++ [u]) =
    admitted uses ++ if startsAsync uses || !u.isAsync then [u] else [] := by
  rw [admitted, admitted, startsAsync_concat nonempty]
  cases startsAsync uses <;> cases async : u.isAsync <;> simp [async]

theorem conflicts_concat (kept : startsAsync uses || !u.isAsync) :
    conflicts (uses ++ [u]) = conflicts uses := by
  rw [conflicts, rejected_concat nonempty, if_pos kept, List.append_nil,
    List.head?_append_of_ne_nil _ nonempty, conflicts]

/-- The first use that is turned away is told of after a word on the whole machine. -/
def refusal (first : Use) (uses : List Use) (u : Use) : Report :=
  (if (rejected uses).isEmpty then [Use.mixed first u] else []) ++ [Use.late first u]

theorem conflicts_refusal {first : Use} (starts : uses.head? = some first)
    (turned : startsAsync uses = false ∧ u.isAsync) :
    conflicts (uses ++ [u]) = conflicts uses ++ refusal first uses u := by
  have gains : rejected (uses ++ [u]) = rejected uses ++ [u] := by
    simp [rejected_concat nonempty, turned]
  rw [conflicts, conflicts, gains, List.head?_append_of_ne_nil _ nonempty, starts, refusal]
  cases rejected uses <;> simp

end Concat

structure Draft.Accounts (d : Draft) (uses : List Use) : Prop where
  mode : d.mode = modeOf uses
  modeSource : ∀ first ∈ uses.head?, d.modeSource = first.callback.name
  conflictReported : d.conflictReported = !(rejected uses).isEmpty
  tokenUses : d.tokenUses = (admitted uses).map Use.token
  report : d.report.filter Diagnostic.ofModes = conflicts uses
  adjacent : ∀ first ∈ uses.head?, ∀ u ∈ (rejected uses).head?, ∃ front back,
    d.report = front ++ Use.mixed first u :: Use.late first u :: back ∧
      front.filter Diagnostic.ofModes = []

structure Draft.Passes (d next : Draft) : Prop where
  mode : next.mode = d.mode
  modeSource : next.modeSource = d.modeSource
  conflictReported : next.conflictReported = d.conflictReported
  tokenUses : next.tokenUses = d.tokenUses
  report : ∃ more, next.report = d.report ++ more ∧ more.filter Diagnostic.ofModes = []

namespace Draft

variable {d next : Draft} {uses : List Use}

theorem Passes.of_eq (mode : next.mode = d.mode) (source : next.modeSource = d.modeSource)
    (reported : next.conflictReported = d.conflictReported) (tokens : next.tokenUses = d.tokenUses)
    (report : next.report = d.report) : d.Passes next :=
  ⟨mode, source, reported, tokens, [], by simp [report], rfl⟩

theorem Passes.trans {middle : Draft} (first : d.Passes middle) (rest : middle.Passes next) :
    d.Passes next := by
  obtain ⟨told, front, calm⟩ := first.report
  obtain ⟨more, back, silent⟩ := rest.report
  exact ⟨rest.mode.trans first.mode, rest.modeSource.trans first.modeSource,
    rest.conflictReported.trans first.conflictReported, rest.tokenUses.trans first.tokenUses,
    told ++ more, by rw [back, front, List.append_assoc], by simp [calm, silent]⟩

theorem tell_passes {findings : List Finding} (calm : Calm findings) (d : Draft) (pos : Position) :
    d.Passes (d.tell findings pos) :=
  ⟨rfl, rfl, rfl, rfl, _, rfl, calm.filter fun _ => pos⟩

theorem Accounts.passed (accounts : d.Accounts uses) (passes : d.Passes next) :
    next.Accounts uses := by
  obtain ⟨mode, source, reported, tokens, more, report, calm⟩ := passes
  constructor
  · rw [mode, accounts.mode]
  · rw [source]
    exact accounts.modeSource
  · rw [reported, accounts.conflictReported]
  · rw [tokens, accounts.tokenUses]
  · rw [report, List.filter_append, calm, accounts.report, List.append_nil]
  · intro first starts u turned
    obtain ⟨front, back, split, quiet⟩ := accounts.adjacent first starts u turned
    exact ⟨front, back ++ more, by simp [report, split], quiet⟩

theorem accounts_first (accounts : d.Accounts []) (u : Use) :
    (weigh u d).2.Accounts [u] := by
  obtain ⟨mode, _, reported, tokens, report, _⟩ := accounts
  have unset : d.mode = .unset := mode
  simp only [weigh, unset]
  cases async : u.isAsync <;> constructor <;>
    simp_all [modeOf, startsAsync, rejected, admitted, conflicts]

section Later

variable (accounts : d.Accounts uses) (nonempty : uses ≠ []) {u : Use}
include accounts nonempty

theorem accounts_kept (kept : startsAsync uses || !u.isAsync) :
    (weigh u d).2.Accounts (uses ++ [u]) := by
  have empty : uses.isEmpty = false := by simpa using nonempty
  obtain ⟨mode, source, reported, tokens, report, adjacent⟩ := accounts
  have set : d.mode ≠ .unset := by
    rw [mode, modeOf, empty]
    cases startsAsync uses <;> simp
  have joins : ¬(d.mode = .sync ∧ u.isAsync) := by
    rw [mode, modeOf, empty]
    cases starts : startsAsync uses <;> simp_all
  rw [weigh, if_neg joins]
  constructor
  · simpa [set, modeOf_concat nonempty] using mode
  · simpa [set, List.head?_append_of_ne_nil _ nonempty] using source
  · simpa [rejected_concat nonempty, kept] using reported
  · simp [admitted_concat nonempty, kept, tokens]
  · rw [conflicts_concat nonempty u kept]
    exact report
  · simpa [rejected_concat nonempty, kept, List.head?_append_of_ne_nil _ nonempty] using adjacent

theorem accounts_turned (turned : startsAsync uses = false ∧ u.isAsync) :
    (weigh u d).2.Accounts (uses ++ [u]) := by
  obtain ⟨first, starts⟩ := Option.isSome_iff_exists.mp (List.isSome_head?.mpr nonempty)
  obtain ⟨mode, source, reported, tokens, report, adjacent⟩ := accounts
  have sync : d.mode = .sync := by simp [mode, modeOf, turned.1, nonempty]
  have gains : rejected (uses ++ [u]) = rejected uses ++ [u] := by
    simp [rejected_concat nonempty, turned]
  have told : (d.tell (Check.modeConflict u.callback.name d.modeSource (!d.conflictReported))
      u.pos).report = d.report ++ refusal first uses u := by
    rw [source first starts, reported, Bool.not_not, refusal]
    cases rejected uses <;> rfl
  have late : (refusal first uses u).filter Diagnostic.ofModes = refusal first uses u := by
    rw [refusal]
    cases rejected uses <;> rfl
  rw [weigh, if_pos ⟨sync, turned.2⟩]
  constructor
  · rw [modeOf_concat nonempty, ← mode]
    rfl
  · rw [List.head?_append_of_ne_nil _ nonempty]
    exact source
  · rw [gains]
    simp
  · have same : admitted (uses ++ [u]) = admitted uses := by
      simp [admitted_concat nonempty, turned]
    rw [same]
    exact tokens
  · show List.filter _ (d.tell _ u.pos).report = _
    rw [told, List.filter_append, report, late, conflicts_refusal nonempty u starts turned]
  · rw [gains, List.head?_append_of_ne_nil _ nonempty]
    intro other same v turnedFirst
    obtain rfl := Option.some.inj (starts.symm.trans same)
    show ∃ front back, (d.tell _ u.pos).report = _ ∧ _
    rw [told]
    cases earlier : rejected uses with
    | nil =>
        obtain rfl : u = v := by simpa [earlier] using turnedFirst
        refine ⟨d.report, [], by simp [refusal, earlier], ?_⟩
        rw [report, conflicts, starts, earlier]
    | cons w others =>
        obtain rfl : w = v := by simpa [earlier] using turnedFirst
        obtain ⟨front, back, split, quiet⟩ := adjacent first starts w (by simp [earlier])
        exact ⟨front, back ++ refusal first uses u, by simp [split], quiet⟩

end Later

theorem Accounts.weigh (accounts : d.Accounts uses) (u : Use) :
    (weigh u d).2.Accounts (uses ++ [u]) := by
  by_cases nonempty : uses = []
  · subst nonempty
    exact accounts_first accounts u
  · cases starts : startsAsync uses with
    | true => exact accounts_kept accounts nonempty (by simp [starts])
    | false =>
        cases async : u.isAsync with
        | true => exact accounts_turned accounts nonempty ⟨starts, async⟩
        | false => exact accounts_kept accounts nonempty (by simp [async])

theorem Accounts.callback? (cx : Setting) (role : Role) (expected : ExpectedPayload)
    (pos : Position) (method : Option String) (accounts : d.Accounts uses) :
    (callback? cx method role expected pos d).2.Accounts
      (uses ++ (naming role expected pos method).filterMap cx.use?) := by
  cases method with
  | none => simpa [naming, Build.callback?] using accounts
  | some method =>
      let next := d.tell (cx.findings role expected method) pos
      have calm : Calm (cx.findings role expected method) :=
        Check.callbackSignature_calm _ _ _ _ _
      have told : next.Accounts uses := accounts.passed (tell_passes calm d pos)
      rw [Build.callback?, callback_eq]
      cases made : cx.callbackFor? role expected method with
      | none => simpa [naming, Setting.use?, made] using told
      | some c => simpa [naming, Setting.use?, made] using told.weigh ⟨c, pos⟩

end Draft

section Declaration

variable {cx : Setting} {d : Draft} {uses : List Use}

theorem resolve_passes (facts : EnumFacts) (r : Reference) (d : Draft) :
    d.Passes (resolve facts r d).2 :=
  Draft.tell_passes (Check.enumValue_calm _ _ _) d r.pos

theorem declarePayload_passes (onMethod : Option String) (p : Declared PayloadArguments)
    (d : Draft) : d.Passes (declarePayload cx onMethod p d) := by
  rcases declarePayload_cases cx onMethod p d with
    ⟨r, _, _, same⟩ | ⟨scope, _, ⟨_, _, same⟩ | ⟨_, same⟩⟩
  · rw [same]
    exact resolve_passes cx.triggerEnum r d
  · rw [same]
    exact Draft.tell_passes (Check.payloadRedeclaration_calm _ _ _ _) d p.pos
  · rw [same]
    cases scope <;> exact .of_eq rfl rfl rfl rfl rfl

theorem addTransition_passes {e : Edge} (pos : Position) (d : Draft)
    (unresolved : e.link? cx.stateEnum cx.triggerEnum = none) :
    d.Passes (addTransition cx e pos d) := by
  have missing := Edge.link?_eq_none unresolved
  have leaves := resolve_passes cx.stateEnum e.source d
  have fires := resolve_passes cx.triggerEnum e.trigger (resolve cx.stateEnum e.source d).2
  have aims := resolve_passes cx.stateEnum e.target
    (resolve cx.triggerEnum e.trigger (resolve cx.stateEnum e.source d).2).2
  simp only [addTransition]
  split
  · next source trigger target sourced triggered targeted =>
      rcases missing with none | none | none <;> simp [resolve, none] at sourced triggered targeted
  · exact leaves.trans (fires.trans aims)

section Paid

variable (pays : cx.payloads.Pays d) (accounts : d.Accounts uses)
include pays accounts

theorem addTransition_accounts {e : Edge} (pos : Position)
    (fresh : ∀ l, e.link? cx.stateEnum cx.triggerEnum = some l →
      d.isRegistered l.source l.trigger = false) :
    (addTransition cx e pos d).Accounts (uses ++ (cx.edgeNamings e pos).filterMap cx.use?) := by
  cases resolved : e.link? cx.stateEnum cx.triggerEnum with
  | none =>
      have passes := addTransition_passes pos d resolved
      simpa [Setting.edgeNamings, resolved] using accounts.passed passes
  | some l =>
      have guarded := accounts.callback? cx .guard
        (cx.payloads.expected (cx.payloads.payloadFor? l.trigger)) pos l.guard
      have acted := guarded.callback? cx .action
        (cx.payloads.expected (cx.payloads.payloadFor? l.trigger)) pos l.action
      rw [addTransition_fresh pays resolved (fresh l resolved)]
      simp only [Setting.edgeNamings, resolved, List.filterMap_append, ← List.append_assoc]
      exact acted.passed (.of_eq rfl rfl rfl rfl rfl)

theorem addState_accounts (a : StateArguments) (pos : Position) :
    (addState cx a pos d).Accounts
      (uses ++ (cx.namings ⟨.state a, pos⟩).filterMap cx.use?) := by
  have known := accounts.passed (resolve_passes cx.stateEnum a.state d)
  cases resolved : cx.stateEnum.resolve? a.state with
  | none =>
      simpa [addState, resolve, resolved, Setting.namings] using known
  | some state =>
      have started : Draft.Accounts { d with
          places := d.places ++ [(state.name, pos)]
          hasEntryExit := d.hasEntryExit || a.onEntry.isSome || a.onExit.isSome } uses :=
        accounts.passed (.of_eq rfl rfl rfl rfl rfl)
      have entered := started.callback? cx .onEntry
        (cx.payloads.expected cx.payloads.defaultPayload) pos a.onEntry
      have exited := entered.callback? cx .onExit
        (cx.payloads.expected cx.payloads.defaultPayload) pos a.onExit
      obtain ⟨_, added⟩ := addState_found pays resolved pos
      rw [added]
      simp only [Setting.namings, resolved, Option.isSome_some, if_true, List.filterMap_append,
        ← List.append_assoc]
      exact exited.passed (.of_eq rfl rfl rfl rfl rfl)

theorem addDeclaration_accounts (e : Declared MachineDeclaration)
    (fresh : ∀ l, e.value.link? cx.stateEnum cx.triggerEnum = some l →
      d.isRegistered l.source l.trigger = false) :
    (addDeclaration cx d e).Accounts (uses ++ (cx.namings e).filterMap cx.use?) := by
  obtain ⟨value, pos⟩ := e
  cases value with
  | transition a => exact addTransition_accounts pays accounts pos fresh
  | internal a => exact addTransition_accounts pays accounts pos fresh
  | state a => exact addState_accounts pays accounts a pos
  | machine a => simpa [Setting.namings, addDeclaration] using accounts
  | payload a => simpa [Setting.namings, addDeclaration] using accounts

end Paid

end Declaration

end Build

end Statewright
