import Statewright.Proofs.Build.Accounts
import Statewright.Proofs.Expansion.Emitted

/-!
# Modes

The first use of a callback fixes whether a machine is asynchronous. In a synchronous machine every
asynchronous use is turned away with a finding of its own, the first one with a finding on the
machine before it; in an asynchronous one none is. Tokens are judged when all uses are known.
-/

namespace Statewright

open Grammar Declaration

namespace Build

structure Draft.Follows (d : Draft) (cx : Setting) (kept : List (Declared MachineDeclaration)) :
    Prop where
  pays : cx.payloads.Pays d
  registered : ∀ l : Link,
    d.isRegistered l.source l.trigger = (linksOf cx.stateEnum cx.triggerEnum kept).any l.meets
  accounts : d.Accounts ((kept.flatMap cx.namings).filterMap cx.use?)

section Declarations

variable {cx : Setting} {kept : List (Declared MachineDeclaration)} {d : Draft}
  {e : Declared MachineDeclaration}

theorem any_meets {l : Link} (resolved : e.value.link? cx.stateEnum cx.triggerEnum = some l) :
    kept.any (cx.meets e) = (linksOf cx.stateEnum cx.triggerEnum kept).any l.meets := by
  rw [linksOf, List.any_filterMap]
  refine congrArg kept.any (funext fun other => ?_)
  simp only [Setting.meets, resolved, Option.any_some]
  cases other.value.link? cx.stateEnum cx.triggerEnum <;> rfl

theorem any_meets_unlinked (unresolved : e.value.link? cx.stateEnum cx.triggerEnum = none) :
    kept.any (cx.meets e) = false := by
  simp [Setting.meets, unresolved]

theorem addDeclaration_follows (follows : d.Follows cx kept) :
    (addDeclaration cx d e).Follows cx
      (if kept.any (cx.meets e) then kept else kept ++ [e]) := by
  obtain ⟨pays, registered, accounts⟩ := follows
  have grows (fresh : ∀ l, e.value.link? cx.stateEnum cx.triggerEnum = some l →
      d.isRegistered l.source l.trigger = false) :
      (addDeclaration cx d e).Accounts (((kept ++ [e]).flatMap cx.namings).filterMap cx.use?) := by
    simpa using addDeclaration_accounts pays accounts e fresh
  rcases addDeclaration_cases cx d e with
    ⟨unresolved, spares, _⟩ | ⟨l, resolved, ⟨taken, told⟩ | ⟨fresh, t, gains⟩⟩
  · rw [any_meets_unlinked unresolved]
    refine ⟨pays.spared spares, fun l => ?_, grows fun l resolved => ?_⟩
    · have same : linksOf cx.stateEnum cx.triggerEnum (kept ++ [e]) =
          linksOf cx.stateEnum cx.triggerEnum kept := by simp [linksOf, unresolved]
      rw [Draft.isRegistered, spares.transitions, if_neg Bool.false_ne_true, same]
      exact registered l
    · cases unresolved.symm.trans resolved
  · rw [any_meets resolved, ← registered, taken, told]
    refine ⟨⟨pays.defaultPayload, pays.triggerPayloads⟩, registered, ?_⟩
    exact accounts.passed (Draft.tell_passes (by simp [Finding.ofModes]) d e.pos)
  · rw [any_meets resolved, ← registered, fresh]
    refine ⟨⟨gains.told.defaultPayload.trans pays.defaultPayload,
      gains.told.triggerPayloads.trans pays.triggerPayloads⟩, fun other => ?_,
      grows fun other same => ?_⟩
    · have before := registered other
      rw [isRegistered_link] at before ⊢
      simp [gains.transitions, linksOf, resolved, before, Link.meets, Transition.link, gains.ends]
    · cases resolved.symm.trans same
      exact fresh

theorem foldl_follows (declarations : List (Declared MachineDeclaration))
    (start : d.Follows cx []) :
    (declarations.foldl (addDeclaration cx) d).Follows cx (declarations.eraseDupsBy cx.meets) := by
  induction declarations using List.reverseRecOn with
  | nil => exact start
  | append_singleton declarations e ih =>
      rw [List.foldl_append, eraseDupsBy_concat]
      exact addDeclaration_follows ih

end Declarations

def tokenReport (uses : List Use) : Report :=
  if (admitted uses).any Use.isAsync then []
  else ((admitted uses).filter fun u => u.callback.token ≠ .none).map Use.idleToken

theorem admitted_async (uses : List Use) : (admitted uses).any Use.isAsync = startsAsync uses := by
  cases starts : startsAsync uses with
  | true =>
      obtain ⟨first, head, async⟩ := (Option.any_eq_true _ _).mp starts
      rw [admitted, if_pos starts]
      exact List.any_eq_true.mpr ⟨first, List.mem_of_mem_head? head, async⟩
  | false => simp [admitted, starts]

theorem checkTokens_eq (d : Draft) :
    checkTokens d = { d with
      report := d.report ++ d.tokenUses.flatMap fun u =>
        (Check.tokenParameter u.method u.role u.token d.mode.isAsync).map fun f =>
          Diagnostic.ofOutcome u.pos f.outcome } := by
  have folded (uses : List TokenUse) (start : Draft) : uses.foldl checkToken start =
      { start with
        report := start.report ++ uses.flatMap fun u =>
          (Check.tokenParameter u.method u.role u.token start.mode.isAsync).map fun f =>
            Diagnostic.ofOutcome u.pos f.outcome } := by
    induction uses generalizing start with
    | nil => simp
    | cons u rest ih =>
        rw [List.foldl_cons, ih]
        simp [checkToken, Draft.tell]
  exact folded d.tokenUses d

theorem isAsync_modeOf (uses : List Use) : (modeOf uses).isAsync = startsAsync uses := by
  cases uses with
  | nil => rfl
  | cons first rest =>
      rw [modeOf]
      cases startsAsync (first :: rest) <;> rfl

theorem Draft.Accounts.tokens {d : Draft} {uses : List Use} (accounts : d.Accounts uses) :
    (checkTokens d).report = d.report ++ tokenReport uses := by
  rw [checkTokens_eq, accounts.mode, isAsync_modeOf, accounts.tokenUses, tokenReport,
    admitted_async]
  simp only [List.append_cancel_left_eq]
  generalize admitted uses = noted
  cases startsAsync uses with
  | true => simp [Check.tokenParameter]
  | false =>
      induction noted with
      | nil => rfl
      | cons u rest ih =>
          by_cases none : u.callback.token = .none
          · simpa [Check.tokenParameter, Use.token, none] using ih
          · simpa [Check.tokenParameter, Use.token, none, Use.idleToken] using ih

theorem tokenReport_ofModes (uses : List Use) :
    (tokenReport uses).filter Diagnostic.ofModes = tokenReport uses := by
  refine List.filter_eq_self.mpr fun d told => ?_
  unfold tokenReport at told
  split at told
  · cases told
  · obtain ⟨u, _, rfl⟩ := List.mem_map.mp told
    exact ofOutcome_ofModes u.pos _

end Build

structure Report.Accounts (report : Report) (uses : List Build.Use) : Prop where
  ofModes : report.filter Diagnostic.ofModes = Build.conflicts uses ++ Build.tokenReport uses
  adjacent : ∀ first ∈ uses.head?, ∀ u ∈ (Build.rejected uses).head?, ∃ front back,
    report = front ++ Build.Use.mixed first u :: Build.Use.late first u :: back ∧
      front.filter Diagnostic.ofModes = []

theorem Report.Accounts.append {report more : Report} {uses : List Build.Use}
    (accounts : report.Accounts uses) (calm : more.filter Diagnostic.ofModes = []) :
    Report.Accounts (report ++ more) uses := by
  refine ⟨by rw [List.filter_append, accounts.ofModes, calm, List.append_nil], ?_⟩
  intro first starts u turned
  obtain ⟨front, back, split, quiet⟩ := accounts.adjacent first starts u turned
  exact ⟨front, back ++ more, by simp [split], quiet⟩

theorem Report.Accounts.calm {report : Report} (calm : report.filter Diagnostic.ofModes = []) :
    report.Accounts [] := ⟨calm, by simp⟩

namespace Build

def Setting.start (cx : Setting) (opening : Report) : Draft :=
  declarePayloads cx
    { report := opening, states := cx.stateEnum.members.map fun m => { name := m.name } }

theorem start_follows (cx : Setting) {opening : Report}
    (calm : opening.filter Diagnostic.ofModes = []) : (cx.start opening).Follows cx [] := by
  let bare : Draft :=
    { report := opening, states := cx.stateEnum.members.map fun m => { name := m.name } }
  have paid : bare.Passes (cx.start opening) :=
    declarePayloads_induction bare.Passes (.of_eq rfl rfl rfl rfl rfl) fun onMethod p d passes =>
      passes.trans (declarePayload_passes onMethod p d)
  have fresh : (cx.start opening).transitions = [] := (declarePayloads_kept cx bare).transitions
  have first : bare.Accounts [] := ⟨rfl, by simp, rfl, rfl, calm, by simp⟩
  exact ⟨declarePayloads_pays cx rfl, fun l => by simp [Draft.isRegistered, fresh, linksOf],
    first.passed paid⟩

theorem draft_accounts (cx : Setting) {opening : Report}
    (calm : opening.filter Diagnostic.ofModes = []) :
    (draft cx opening).report.Accounts (cx.usesIn cx.machine.declarations) ∧
      (draft cx opening).mode = modeOf (cx.usesIn cx.machine.declarations) := by
  have follows := start_follows cx calm
  let d := cx.machine.declarations.foldl (addDeclaration cx) (cx.start opening)
  let uses := cx.usesIn cx.machine.declarations
  have accounts : d.Accounts uses := (foldl_follows cx.machine.declarations follows).accounts
  have checked : (checkTokens d).report.Accounts uses := by
    rw [accounts.tokens]
    constructor
    · rw [List.filter_append, accounts.report, tokenReport_ofModes]
    · intro first starts u turned
      obtain ⟨front, back, split, quiet⟩ := accounts.adjacent first starts u turned
      exact ⟨front, back ++ tokenReport uses, by simp [split], quiet⟩
  have mode : (checkTokens d).mode = modeOf uses := by
    rw [checkTokens_eq]
    exact accounts.mode
  show (checkNesting cx (checkTokens d)).report.Accounts uses ∧
    (checkNesting cx (checkTokens d)).mode = modeOf uses
  unfold checkNesting
  split
  · exact ⟨checked.append ((Check.nested_calm _ _).filter _), mode⟩
  · exact ⟨checked, mode⟩

end Build

/-! ## The whole machine -/

namespace MachineFacts

open Build

variable (machine : MachineFacts) (facts : ModuleFacts)

/-- What a machine is built in, if it is declared with both its enums on a struct that can be
extended. -/
def setting? : Option Setting :=
  match machine.fields with
  | .tuple _ => none
  | _ => machine.primary?.bind fun primary =>
    (machine.enums? facts).map fun enums => ⟨machine, facts, enums.1, enums.2, primary.value⟩

/-- The uses of callbacks whose signature has no error; there are none if no callback is looked
at. -/
def uses : List Use :=
  ((machine.setting? facts).map fun cx => cx.usesIn machine.declarations).getD []

variable {machine facts}

theorem setting?_eq_some {cx : Setting} : machine.setting? facts = some cx ↔
    (∀ content, machine.fields ≠ .tuple content) ∧ ∃ primary states triggers,
      machine.primary? = some primary ∧ machine.enums? facts = some (states, triggers) ∧
        cx = ⟨machine, facts, states, triggers, primary.value⟩ := by
  unfold setting?
  split
  · next content tuple => simp [tuple]
  · next extensible =>
      simp only [Option.bind_eq_some_iff, Option.map_eq_some_iff, Prod.exists]
      constructor
      · rintro ⟨primary, declared, states, triggers, known, rfl⟩
        exact ⟨extensible, primary, states, triggers, declared, known, rfl⟩
      · rintro ⟨_, primary, states, triggers, declared, known, rfl⟩
        exact ⟨primary, declared, states, triggers, known, rfl⟩

theorem opening_calm (machine : MachineFacts) (primary : Declared MachineArguments) :
    (machine.opening primary).filter Diagnostic.ofModes = [] := by
  unfold opening
  split
  · have calm : Calm [.declaredTwice machine.name] := by simp [Finding.ofModes]
    exact calm.filter fun _ => primary.pos
  · rfl

theorem openEnums_calm (name : String) (a : MachineArguments) :
    (a.openEnums name).ofModes = false := by
  unfold MachineArguments.openEnums
  cases a.state with
  | none => rfl
  | some state => cases a.trigger <;> rfl

theorem build_unset (unset : machine.setting? facts = none) :
    (machine.build facts).1 = none ∧ (machine.build facts).2.filter Diagnostic.ofModes = [] := by
  cases declared : machine.primary? with
  | none =>
      rw [build_undeclared declared]
      exact ⟨rfl, Calm.filter (calm_singleton.mpr rfl) fun _ => machine.pos⟩
  | some primary =>
      have stopped {f : Finding} (calm : f.ofModes = false) : (machine.opening primary ++
          [Diagnostic.ofOutcome primary.pos f.outcome]).filter Diagnostic.ofModes = [] := by
        rw [List.filter_append, opening_calm, List.nil_append]
        exact Calm.filter (calm_singleton.mpr calm) fun _ => primary.pos
      by_cases tuple : ∃ content, machine.fields = .tuple content
      · obtain ⟨content, tuple⟩ := tuple
        rw [build_tuple declared tuple]
        exact ⟨rfl, stopped rfl⟩
      · have extensible : ∀ content, machine.fields ≠ .tuple content := by simpa using tuple
        cases known : machine.enums? facts with
        | none =>
            rw [build_open declared extensible known]
            exact ⟨rfl, stopped (openEnums_calm _ _)⟩
        | some enums =>
            have set := setting?_eq_some.mpr
              ⟨extensible, primary, enums.1, enums.2, declared, known, rfl⟩
            cases unset.symm.trans set

variable (machine facts)

theorem build_accounts :
    (machine.build facts).2.Accounts (machine.uses facts) ∧
      ∀ m, (machine.build facts).1 = some m →
        m.config.isAsync = startsAsync (machine.uses facts) := by
  cases set : machine.setting? facts with
  | none =>
      obtain ⟨stopped, calm⟩ := build_unset set
      have none : machine.uses facts = [] := by simp [uses, set]
      rw [none]
      exact ⟨.calm calm, by simp [stopped]⟩
  | some cx =>
      have these : machine.uses facts = cx.usesIn machine.declarations := by simp [uses, set]
      obtain ⟨extensible, primary, states, triggers, declared, known, rfl⟩ :=
        setting?_eq_some.mp set
      obtain ⟨accounts, mode⟩ := draft_accounts
        ⟨machine, facts, states, triggers, primary.value⟩ (machine.opening_calm primary)
      rw [build_known declared extensible known, these]
      refine ⟨accounts.append ((unreachable_calm _).filter _), fun m built => ?_⟩
      obtain ⟨_, same⟩ := Option.ite_none_left_eq_some.mp built
      obtain rfl := Option.some.inj same
      show MachineMode.isAsync _ = _
      rw [mode, isAsync_modeOf]

theorem expand_accounts :
    (machine.expand facts).2.Accounts (machine.uses facts) ∧
      ∀ e, (machine.expand facts).1 = some e →
        e.isAsync = startsAsync (machine.uses facts) := by
  obtain ⟨accounts, async⟩ := machine.build_accounts facts
  unfold expand
  split
  · next report stopped =>
      rw [stopped] at accounts
      exact ⟨accounts, by simp⟩
  · next model report built =>
      rw [built] at accounts async
      split
      · next e emitted =>
          obtain ⟨_, _, rfl⟩ := Model.emission_eq_ok.mp emitted
          refine ⟨accounts, ?_⟩
          rintro _ ⟨⟩
          exact async model rfl
      · next findings rejected =>
          obtain ⟨forced, _, _, rfl⟩ := emission_eq_error rejected
          exact ⟨accounts.append ((Check.forcedVariant_calm _ _).filter _), by simp⟩

end MachineFacts

section Told

open Build

variable {report : Report} {uses : List Use}

theorem conflicts_eq {first : Use} (starts : uses.head? = some first) :
    conflicts uses =
      ((rejected uses).head?.map first.mixed).toList ++ (rejected uses).map first.late := by
  rw [conflicts, starts]
  cases rejected uses <;> rfl

theorem conflicts_async (starts : ∀ first ∈ uses.head?, first.isAsync) : conflicts uses = [] := by
  cases uses with
  | nil => rfl
  | cons first rest => simp [conflicts, rejected, startsAsync, starts first rfl]

theorem conflicts_rule {d : Diagnostic} (told : d ∈ conflicts uses) :
    d.rule = .mixedModes ∨ d.rule = .asyncInSyncMachine := by
  cases starts : uses.head? with
  | none => simp [conflicts, starts] at told
  | some first =>
      rw [conflicts_eq starts] at told
      rcases List.mem_append.mp told with mixed | late
      · obtain ⟨u, _, rfl⟩ := Option.map_eq_some_iff.mp (Option.mem_toList.mp mixed)
        exact .inl rfl
      · obtain ⟨u, _, rfl⟩ := List.mem_map.mp late
        exact .inr rfl

theorem conflicts_late {first : Use} (starts : uses.head? = some first) :
    (conflicts uses).filter (·.rule = .asyncInSyncMachine) = (rejected uses).map first.late := by
  have late : ((rejected uses).map first.late).filter (·.rule = .asyncInSyncMachine) =
      (rejected uses).map first.late := by
    refine List.filter_eq_self.mpr fun d told => ?_
    obtain ⟨u, _, rfl⟩ := List.mem_map.mp told
    rfl
  rw [conflicts_eq starts, List.filter_append, late]
  cases (rejected uses).head? <;> rfl

theorem conflicts_mixed {first : Use} (starts : uses.head? = some first) :
    (conflicts uses).filter (·.rule = .mixedModes) =
      ((rejected uses).head?.map first.mixed).toList := by
  have late : ((rejected uses).map first.late).filter (·.rule = .mixedModes) = [] := by
    refine List.filter_eq_nil_iff.mpr fun d told => ?_
    obtain ⟨u, _, rfl⟩ := List.mem_map.mp told
    exact Bool.false_ne_true
  rw [conflicts_eq starts, List.filter_append, late, List.append_nil]
  cases (rejected uses).head? <;> rfl

theorem tokenReport_rule {d : Diagnostic} (told : d ∈ tokenReport uses) :
    d.rule = .invalidMethodSignature := by
  unfold tokenReport at told
  split at told
  · cases told
  · obtain ⟨u, _, rfl⟩ := List.mem_map.mp told
    rfl

namespace Report.Accounts

variable (accounts : report.Accounts uses)
include accounts

theorem filter {p : Diagnostic → Bool} (ofModes : ∀ d, p d → d.ofModes) :
    report.filter p = (conflicts uses).filter p ++ (tokenReport uses).filter p := by
  rw [← List.filter_append, ← accounts.ofModes, List.filter_filter]
  refine List.filter_congr fun d _ => ?_
  cases told : p d with
  | false => rfl
  | true => simp [ofModes d told]

theorem filter_rule {r : Rule} (ofModes : r = .mixedModes ∨ r = .asyncInSyncMachine) :
    report.filter (·.rule = r) = (conflicts uses).filter (·.rule = r) := by
  have silent : (tokenReport uses).filter (·.rule = r) = [] := by
    refine List.filter_eq_nil_iff.mpr fun d told => ?_
    rcases ofModes with rfl | rfl <;> simp [tokenReport_rule told]
  rw [accounts.filter fun d filed => ?_, silent, List.append_nil]
  rcases ofModes with rfl | rfl <;> simp [Diagnostic.ofModes, of_decide_eq_true filed]

theorem blamesToken : report.filter Diagnostic.blamesToken = tokenReport uses := by
  have others : (conflicts uses).filter Diagnostic.blamesToken = [] := by
    refine List.filter_eq_nil_iff.mpr fun d told => ?_
    rcases conflicts_rule told with filed | filed <;> simp [Diagnostic.blamesToken, filed]
  have tokens : (tokenReport uses).filter Diagnostic.blamesToken = tokenReport uses := by
    rw [List.filter_eq_self]
    intro d told
    have ofModes := List.filter_eq_self.mp (tokenReport_ofModes uses) d told
    simpa [Diagnostic.ofModes, tokenReport_rule told] using ofModes
  rw [accounts.filter fun d blames => by simp [Diagnostic.ofModes, blames], others, tokens,
    List.nil_append]

theorem rejected_nil (clean : report.hasErrors = false) : rejected uses = [] := by
  cases turned : rejected uses with
  | nil => rfl
  | cons u others =>
      cases starts : uses.head? with
      | none => simp [List.head?_eq_none_iff.mp starts, rejected] at turned
      | some first =>
          obtain ⟨front, back, split, _⟩ := accounts.adjacent first starts u (by simp [turned])
          have error : (first.late u).isError := rfl
          simp [split, hasErrors, error] at clean

end Report.Accounts

end Told

namespace MachineFacts

open Build

/-- If the first use of a callback is synchronous, every asynchronous one is told of, and the first
of them in a word on the whole machine just before; if it is asynchronous, none is. An accepted
machine is asynchronous just if some use is, and tokens are told of where no use that the mode lets
pass is. -/
theorem modes_told (machine : MachineFacts) (facts : ModuleFacts) :
    let uses := machine.uses facts
    let report := (machine.expand facts).2
    (∀ first rest, uses = first :: rest → first.isAsync = false →
      let turned := rest.filter Use.isAsync
      report.filter (·.rule = .asyncInSyncMachine) = turned.map first.late ∧
        report.filter (·.rule = .mixedModes) = (turned.head?.map first.mixed).toList ∧
        ∀ u ∈ turned.head?, ∃ front back,
          report = front ++ first.mixed u :: first.late u :: back ∧
            ∀ d ∈ front, d.rule ≠ .asyncInSyncMachine) ∧
      ((∀ first ∈ uses.head?, first.isAsync) →
        ∀ d ∈ report, d.rule ≠ .mixedModes ∧ d.rule ≠ .asyncInSyncMachine) ∧
      (∀ e, (machine.expand facts).1 = some e → (e.isAsync ↔ ∃ u ∈ uses, u.isAsync)) ∧
      report.filter Diagnostic.blamesToken =
        if (admitted uses).any Use.isAsync then []
        else ((admitted uses).filter fun u => u.callback.token ≠ .none).map Use.idleToken := by
  intro uses report
  obtain ⟨accounts, async⟩ := machine.expand_accounts facts
  change report.Accounts uses at accounts
  refine ⟨fun first rest starts sync => ?_, fun starts => ?_, fun e emitted => ?_, ?_⟩
  · intro turned
    have head : uses.head? = some first := congrArg List.head? starts
    have away : rejected uses = turned := by simp [rejected, startsAsync, starts, sync, turned]
    refine ⟨?_, ?_, fun u here => ?_⟩
    · rw [accounts.filter_rule (.inr rfl), conflicts_late head, away]
    · rw [accounts.filter_rule (.inl rfl), conflicts_mixed head, away]
    · obtain ⟨front, back, split, quiet⟩ := accounts.adjacent first head u (away ▸ here)
      refine ⟨front, back, split, fun d before filed => ?_⟩
      have loud := List.filter_eq_nil_iff.mp quiet d before
      simp [Diagnostic.ofModes, filed] at loud
  · have mixed := accounts.filter_rule (.inl rfl)
    have late := accounts.filter_rule (.inr rfl)
    rw [conflicts_async starts] at mixed late
    intro d told
    exact ⟨by simpa using List.filter_eq_nil_iff.mp mixed d told,
      by simpa using List.filter_eq_nil_iff.mp late d told⟩
  · rw [async e emitted]
    constructor
    · intro starts
      obtain ⟨first, head, on⟩ := (Option.any_eq_true _ _).mp starts
      exact ⟨first, List.mem_of_mem_head? head, on⟩
    · rintro ⟨u, member, on⟩
      have clean : report.hasErrors = false :=
        ((machine.expand_isSome facts).mp (by simp [emitted])).1
      by_contra sync
      have none := accounts.rejected_nil clean
      rw [rejected, if_neg sync] at none
      exact List.filter_eq_nil_iff.mp none u member on
  · exact accounts.blamesToken

end MachineFacts

section Fading

open Build

def fadingModule : ModuleFacts where
  name := "fading"
  enums := [porchStates, porchTriggers]
  methods :=
    [⟨"Porch", "dark", .shared, [], some (.path (.word "bool")), false, []⟩,
     ⟨"Porch", "fade", .exclusive, [], none, true, []⟩]

def fadingFacts : MachineFacts :=
  { porchFacts (.machine {}) with
    declarations :=
      [⟨.machine { state := some (.word "State"), trigger := some (.word "Trigger") }, ⟨1, 0⟩⟩,
       ⟨.transition ⟨porchReference "Off", porchReference "Power", porchReference "On",
          some "dark", some "fade"⟩, ⟨2, 0⟩⟩,
       ⟨.transition ⟨porchReference "On", porchReference "Power", porchReference "Off", none,
          some "fade"⟩, ⟨3, 0⟩⟩] }

def fadingUse (name : String) (role : Role) (isAsync : Bool) (line : Nat) : Use :=
  ⟨{ name, role, isAsync }, ⟨line, 0⟩⟩

theorem fading_mixes :
    let dark := fadingUse "dark" .guard false 2
    let fade (line : Nat) := fadingUse "fade" .action true line
    let report := (fadingFacts.expand fadingModule).2
    fadingFacts.uses fadingModule = [dark, fade 2, fade 3] ∧
      report.filter (·.rule = .asyncInSyncMachine) = [dark.late (fade 2), dark.late (fade 3)] ∧
      report.filter (·.rule = .mixedModes) = [dark.mixed (fade 2)] := by
  intro dark fade report
  have uses : fadingFacts.uses fadingModule = [dark, fade 2, fade 3] := rfl
  obtain ⟨sync, _⟩ := fadingFacts.modes_told fadingModule
  obtain ⟨late, mixed, _⟩ := sync dark [fade 2, fade 3] uses rfl
  exact ⟨uses, late, mixed⟩

end Fading

end Statewright
