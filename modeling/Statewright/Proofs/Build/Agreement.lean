import Statewright.Proofs.Build.Rearranged

/-!
# Drafts in agreement

Where no declaration repeats another and all callbacks agree in their mode, rearranged declarations
make drafts that agree in all but the order of what they hold: in what they report, in the states,
in the transitions and in the payload types.
-/

namespace Statewright

open Grammar Declaration

namespace Build

namespace Setting

variable (cx : Setting)

def callbacks : List Callback := cx.machine.declarations.flatMap cx.callbacksOf

/-- No state, no transition and no scope of a payload type is declared twice, and all callbacks
have the same mode. -/
structure Unambiguous : Prop where
  states : (cx.machine.declarations.filterMap fun e => cx.stateOf? e.value).Nodup
  transitions : (linksOf cx.stateEnum cx.triggerEnum cx.machine.declarations).Pairwise
    fun l other => ¬other.meets l
  payloads : cx.scopes.Nodup
  modes : ∀ c ∈ cx.callbacks, ∀ other ∈ cx.callbacks, c.isAsync = other.isAsync

end Setting

theorem uses_callbacks (cx : Setting) (declarations : List (Declared MachineDeclaration)) :
    ((declarations.flatMap cx.namings).filterMap cx.use?).map Use.callback =
      declarations.flatMap cx.callbacksOf := by
  rw [List.map_filterMap, List.filterMap_flatMap]
  refine List.flatMap_congr fun e _ => List.filterMap_congr fun n _ => ?_
  simp [Setting.use?, Function.comp_def]

theorem stateOf?_placeless {cx : Setting} (declaration : MachineDeclaration) :
    cx.stateOf? declaration.placeless = cx.stateOf? declaration := by
  cases declaration <;> rfl

theorem link?_placeless (states triggers : EnumFacts) (declaration : MachineDeclaration) :
    declaration.placeless.link? states triggers = declaration.link? states triggers := by
  cases declaration <;> rfl

theorem orphan?_placeless (states : EnumFacts) (declaration : MachineDeclaration) :
    declaration.placeless.orphan? states = declaration.orphan? states := by
  cases declaration with
  | state a =>
      obtain ⟨state, entry, exit, parent, initial, history⟩ := a
      cases parent <;> rfl
  | _ => rfl

section Settings

variable {cx other : Setting}

theorem Setting.Unambiguous.plain (unambiguous : cx.Unambiguous) :
    cx.Plain cx.machine.declarations := by
  refine ⟨unambiguous.transitions, fun u left v right => ?_⟩
  have listed {u : Use}
      (used : u ∈ (cx.machine.declarations.flatMap cx.namings).filterMap cx.use?) :
      u.callback ∈ cx.callbacks := by
    rw [callbacks, ← uses_callbacks]
    exact List.mem_map_of_mem used
  exact unambiguous.modes _ (listed left) _ (listed right)

/-- The draft behind all declarations, before the checks on the whole machine. -/
def Setting.declared (cx : Setting) : Draft :=
  cx.machine.declarations.foldl (addDeclaration cx) (cx.start [])

theorem draft_eq (cx : Setting) : draft cx [] = checkNesting cx (checkTokens cx.declared) := rfl

theorem Setting.Unambiguous.sums (unambiguous : cx.Unambiguous) :
    (cx.start []).Sums cx.declared cx cx.machine.declarations := by
  have bare : (cx.start []).transitions = [] := (declarePayloads_kept cx _).transitions
  exact foldl_sums bare (start_follows cx rfl) _ unambiguous.plain

theorem declared_orphans (cx : Setting) :
    cx.declared.orphans = cx.machine.orphanTexts cx.stateEnum := by
  rw [← draft_orphans cx []]
  exact (checks_told cx _).orphans.symm

section Rearranged

variable (rearranges : other.Rearranges cx) (alike : cx.Alike other)
include rearranges alike

theorem callbacks_rearranged : cx.callbacks.Perm other.callbacks := by
  rw [Setting.callbacks, Setting.callbacks, Setting.callbacksOf_alike alike]
  exact flatMap_moved rearranges.machine.declarations Setting.callbacksOf_placeless

theorem Setting.Unambiguous.rearranged (unambiguous : cx.Unambiguous) : other.Unambiguous := by
  have moved := rearranges.machine.declarations
  have callbacks := callbacks_rearranged rearranges alike
  constructor
  · have same : other.stateOf? = cx.stateOf? := by
      funext declaration
      cases declaration <;> simp only [stateOf?, alike.stateEnum]
    rw [same]
    exact (filterMap_moved moved fun e => stateOf?_placeless e.value).nodup_iff.mp
      unambiguous.states
  · rw [alike.stateEnum, alike.triggerEnum]
    refine (filterMap_moved moved fun e => link?_placeless _ _ e.value).pairwise
      unambiguous.transitions ?_
    intro l next apart met
    simp only [Link.meets, Bool.and_eq_true, beq_iff_eq] at apart met
    exact apart ⟨met.1.symm, met.2.symm⟩
  · exact (scopes_rearranged rearranges).nodup_iff.mp unambiguous.payloads
  · intro c left next right
    exact unambiguous.modes c (callbacks.mem_iff.mpr left) next (callbacks.mem_iff.mpr right)

end Rearranged

end Settings

theorem updateState_comm {name other : String} (apart : name ≠ other)
    {change update : StateModel → StateModel} (keeps : ∀ s, (change s).name = s.name)
    (retains : ∀ s, (update s).name = s.name) (states : List StateModel) :
    updateState other update (updateState name change states) =
      updateState name change (updateState other update states) := by
  induction states with
  | nil => rfl
  | cons s rest ih =>
      by_cases first : s.name = name
      · simp [updateState, first, keeps, apart]
      · by_cases second : s.name = other
        · simp [updateState, second, retains, apart.symm]
        · simp [updateState, first, second, ih]

theorem change_comm {cx : Setting} {first second : MachineDeclaration}
    (apart : ∀ name ∈ cx.stateOf? first, name ∉ cx.stateOf? second) (states : List StateModel) :
    cx.change (cx.change states first) second = cx.change (cx.change states second) first := by
  have keeps (declaration : MachineDeclaration) (s : StateModel) :
      (cx.extend declaration s).name = s.name := by
    cases declaration <;> rfl
  rw [Setting.change, Setting.change, Setting.change, Setting.change]
  cases one : cx.stateOf? first with
  | none => rfl
  | some name =>
      cases two : cx.stateOf? second with
      | none => rfl
      | some other =>
          have distinct : name ≠ other := by
            rintro rfl
            exact apart name one two
          exact updateState_comm distinct (keeps first) (keeps second) states

theorem changes_comm {cx : Setting} {declarations : List (Declared MachineDeclaration)}
    (distinct : (declarations.filterMap fun e => cx.stateOf? e.value).Nodup) :
    ∀ e ∈ declarations, ∀ next ∈ declarations, ∀ states,
      cx.change (cx.change states e.value) next.value =
        cx.change (cx.change states next.value) e.value := by
  let commute (e next : Declared MachineDeclaration) : Prop := ∀ states,
    cx.change (cx.change states e.value) next.value =
      cx.change (cx.change states next.value) e.value
  have symmetric : Std.Symm commute := ⟨fun e next both states => (both states).symm⟩
  -- every declaration commutes with itself, so only those of different states are left
  refine List.Pairwise.forall_of_forall (R := commute) (fun e _ states => rfl) ?_
  refine (List.pairwise_filterMap.mp distinct).imp fun {e next} apart states => ?_
  exact change_comm (fun name one two => apart name one name two rfl) states

/-! ## Drafts -/

structure Draft.Agrees (d other : Draft) : Prop where
  report : d.report.shown.Perm other.report.shown
  states : other.states = d.states
  transitions : d.transitions.Perm other.transitions
  orphans : d.orphans.Perm other.orphans
  pays : d.PaysLike other
  hasEntryExit : other.hasEntryExit = d.hasEntryExit
  isAsync : other.mode.isAsync = d.mode.isAsync

theorem Uniform.startsAsync_eq {uses : List Use} (uniform : Uniform uses) :
    startsAsync uses = (uses.map Use.callback).any Callback.isAsync := by
  rw [List.any_map]
  cases uses with
  | nil => rfl
  | cons u rest =>
      cases async : u.isAsync with
      | true =>
          have on : u.callback.isAsync = true := async
          simp [startsAsync, async, on]
      | false =>
          have off : (u :: rest).any Use.isAsync = false :=
            List.any_eq_false.mpr fun v member => by
              rw [uniform v member u List.mem_cons_self, async]
              exact Bool.false_ne_true
          exact async.trans off.symm

theorem Uniform.admitted_eq {uses : List Use} (uniform : Uniform uses) : admitted uses = uses := by
  cases starts : startsAsync uses with
  | true => rw [admitted, if_pos starts]
  | false =>
      have sync := uniform.startsAsync_eq
      rw [starts, List.any_map, eq_comm, List.any_eq_false] at sync
      rw [admitted, if_neg (by simp [starts])]
      exact List.filter_eq_self.mpr fun u member => by
        rw [Bool.not_eq_true', ← Bool.not_eq_true]
        exact sync u member

def tokenFindings (callbacks : List Callback) : List Finding :=
  if callbacks.any Callback.isAsync then []
  else (callbacks.filter (·.token ≠ .none)).map fun c => .tokenInSyncMachine c.name c.role

theorem Uniform.tokenReport_shown {uses : List Use} (uniform : Uniform uses) :
    (tokenReport uses).shown = (tokenFindings (uses.map Use.callback)).map Finding.shown := by
  rw [tokenReport, admitted_async, uniform.startsAsync_eq, uniform.admitted_eq, tokenFindings]
  split
  · rfl
  · rw [List.filter_map, List.map_map, List.map_map, Report.shown, List.map_map]
    rfl

section Declarations

variable {cx other : Setting} (rearranges : other.Rearranges cx) (alike : cx.Alike other)
  (unambiguous : cx.Unambiguous)
include rearranges alike unambiguous

theorem declared_agree : cx.declared.Agrees other.declared := by
  have moved := rearranges.machine.declarations
  have again := unambiguous.rearranged rearranges alike
  obtain ⟨follows, report, transitions, states, entry⟩ := unambiguous.sums
  obtain ⟨otherFollows, otherReport, otherTransitions, otherStates, otherEntry⟩ := again.sums
  have start : other.start [] =
      declarePayloads other { states := cx.stateEnum.members.map fun m => { name := m.name } } := by
    rw [Setting.start, alike.stateEnum]
  constructor
  · rw [report, otherReport, Setting.findingsOf_alike alike, start]
    refine (declarePayloads_rearranged rearranges unambiguous.payloads rfl).2.append ?_
    refine flatMap_moved moved fun e => ?_
    rw [Setting.findingsOf_placeless]
  · have same (cx : Setting) : (cx.start []).states =
        cx.stateEnum.members.map fun m => { name := m.name } := (declarePayloads_kept cx _).states
    rw [states, otherStates, same, same, alike.stateEnum, Setting.change_alike alike]
    refine (foldl_moved moved ?_ (changes_comm unambiguous.states) _).symm
    exact fun states e => Setting.change_placeless states e.value
  · rw [transitions, otherTransitions, Setting.transition?_alike alike]
    exact filterMap_moved moved fun e => Setting.transition?_placeless e.value
  · rw [declared_orphans, declared_orphans, alike.stateEnum]
    exact filterMap_moved moved fun e => orphan?_placeless _ e.value
  · have pays := alike.pays
    constructor
    · rw [follows.pays.defaultPayload, otherFollows.pays.defaultPayload, pays.defaultPayload]
    · rw [follows.pays.triggerPayloads, otherFollows.pays.triggerPayloads]
      exact pays.triggerPayloads
    · rw [follows.pays.triggerPayloads]
      exact pays.owners
  · have silent {cx : Setting} (distinct : cx.scopes.Nodup) : (cx.start []).hasEntryExit = false :=
      (declarePayloads_takes distinct rfl).hasEntryExit
    rw [entry, otherEntry, Setting.entersOrLeaves_alike alike, silent unambiguous.payloads,
      silent again.payloads, any_moved moved fun e => Setting.entersOrLeaves_placeless e.value]
  · rw [follows.accounts.mode, otherFollows.accounts.mode, isAsync_modeOf, isAsync_modeOf,
      Uniform.startsAsync_eq unambiguous.plain.uniform, Uniform.startsAsync_eq again.plain.uniform,
      uses_callbacks, uses_callbacks]
    exact (callbacks_rearranged rearranges alike).any_eq.symm

end Declarations

theorem tokenFindings_perm {callbacks other : List Callback} (same : callbacks.Perm other) :
    (tokenFindings callbacks).Perm (tokenFindings other) := by
  rw [tokenFindings, tokenFindings, same.any_eq]
  split
  · rfl
  · exact (same.filter _).map _

theorem Report.shown_located (locate : String → Option Position) (fallback : Position)
    (findings : List Finding) :
    Report.shown (located locate fallback findings) = findings.map Finding.shown :=
  Report.shown_findings findings fun f => (f.subject.bind locate).getD fallback

section Agreement

variable {d next : Draft} (agrees : d.Agrees next)
include agrees

theorem Draft.Agrees.told {more rest : Report} (same : more.shown.Perm rest.shown) :
    Draft.Agrees { d with report := d.report ++ more }
      { next with report := next.report ++ rest } := by
  refine { agrees with report := ?_, pays := ⟨agrees.pays.1, agrees.pays.2, agrees.pays.3⟩ }
  rw [Report.shown_append, Report.shown_append]
  exact agrees.report.append same

theorem nestedStates_agree (distinct : (d.orphans.map Prod.fst).Nodup) :
    nestedStates next = nestedStates d := by
  rw [nestedStates, nestedStates, agrees.states]
  simp only [lookup_perm agrees.orphans distinct]

theorem nestingFindings_agree (distinct : (d.orphans.map Prod.fst).Nodup) :
    (nestingFindings d).Perm (nestingFindings next) := by
  rw [nestingFindings, nestingFindings, nestedStates_agree agrees distinct]
  refine List.Perm.append_left _ ?_
  exact ((agrees.transitions.filter _).map _).filterMap _

theorem isNested_agree {cx other : Setting} (rearranges : other.Rearranges cx) :
    isNested other next = isNested cx d := by
  rw [isNested, isNested, rearranges.primary, agrees.states, agrees.orphans.isEmpty_eq]

end Agreement

theorem orphans_distinct {cx : Setting} (unambiguous : cx.Unambiguous) :
    ((cx.machine.orphanTexts cx.stateEnum).map Prod.fst).Nodup := by
  have about {e : Declared MachineDeclaration} {entry : String × String}
      (orphan : e.value.orphan? cx.stateEnum = some entry) :
      cx.stateOf? e.value = some entry.1 := by
    obtain ⟨value, pos⟩ := e
    cases value with
    | state a =>
        obtain ⟨state, known, orphan⟩ := Option.bind_eq_some_iff.mp orphan
        obtain ⟨r, _, orphan⟩ := Option.bind_eq_some_iff.mp orphan
        obtain ⟨_, same⟩ := Option.ite_none_right_eq_some.mp orphan
        obtain rfl := Option.some.inj same
        simp [Setting.stateOf?, known]
    | _ => cases orphan
  refine List.pairwise_map.mpr (List.pairwise_filterMap.mpr ?_)
  refine (List.pairwise_filterMap.mp unambiguous.states).imp ?_
  intro e next apart entry orphan other follows
  exact apart _ (about orphan) _ (about follows)

section Draft

variable {cx other : Setting} (rearranges : other.Rearranges cx) (unambiguous : cx.Unambiguous)
include rearranges unambiguous

theorem tokens_agree : (checkTokens cx.declared).Agrees (checkTokens other.declared) := by
  have alike := alike_of_rearranged rearranges unambiguous.payloads
  have again := unambiguous.rearranged rearranges alike
  have checked {d : Draft} {uses : List Use} (accounts : d.Accounts uses) :
      checkTokens d = { d with report := d.report ++ tokenReport uses } := by
    rw [← accounts.tokens, checkTokens_eq]
  rw [checked unambiguous.sums.follows.accounts, checked again.sums.follows.accounts]
  refine (declared_agree rearranges alike unambiguous).told ?_
  rw [unambiguous.plain.uniform.tokenReport_shown, again.plain.uniform.tokenReport_shown,
    uses_callbacks, uses_callbacks]
  exact (tokenFindings_perm (callbacks_rearranged rearranges alike)).map _

theorem draft_agrees : (draft cx []).Agrees (draft other []) := by
  have agrees := tokens_agree rearranges unambiguous
  have distinct : ((checkTokens cx.declared).orphans.map Prod.fst).Nodup := by
    rw [checkTokens_eq]
    show (cx.declared.orphans.map Prod.fst).Nodup
    rw [declared_orphans]
    exact orphans_distinct unambiguous
  rw [draft_eq, draft_eq, checkNesting, checkNesting, isNested_agree agrees rearranges]
  split
  · refine agrees.told ?_
    rw [Report.shown_located, Report.shown_located]
    exact (nestingFindings_agree agrees distinct).map _
  · exact agrees

end Draft

end Build

end Statewright
