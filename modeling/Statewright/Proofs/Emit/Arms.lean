import Statewright.Proofs.Emit.Balance
import Statewright.Proofs.Emit.Calls

/-!
# Arms of queries

How the arms of a query read, where the body of an arm that begins with a block ends with that
block. Alternatives are joined without parentheses, so all but the first are left out if the first
one is such a block.
-/

namespace Statewright

open Grammar

def Token.opensBlock : Token → Bool
  | .ident text => ["match", "if", "loop", "while", "for", "unsafe"].contains text
  | .opening .brace => true
  | _ => false

def atArrow (depth : Nat) (t : Token) : Bool := depth == 0 && t.isMark '='

def atComma (depth : Nat) (t : Token) : Bool := depth == 0 && t.isMark ','

def atBlockEnd (depth : Nat) (t : Token) : Bool := depth == 1 && t == .closing .brace

def skipComma : Code → Code
  | .mark ',' _ :: rest => rest
  | rest => rest

/-- The body of an arm, and what stands behind the arm. -/
def readBody (source : Code) : Code × Code :=
  if source.head?.any Token.opensBlock then
    let (taken, left) := splitWhere atBlockEnd 0 source
    (taken ++ left.take 1, skipComma (left.drop 1))
  else
    let (taken, left) := splitWhere atComma 0 source
    (taken, skipComma left)

def readArm (source : Code) : Code × Code × Code :=
  let (pattern, left) := splitWhere atArrow 0 source
  (pattern, readBody (left.drop 2))

inductive Arms : Code → List (Code × Code) → Prop
  | nil : Arms [] []
  | cons {source rest pattern body : Code} {arms : List (Code × Code)} :
      source ≠ [] → readArm source = (pattern, body, rest) → Arms rest arms →
        Arms source ((pattern, body) :: arms)

/-- A reader that stops at commas between groups, or at the end of a block. -/
structure Lenient (stop : Nat → Token → Bool) : Prop where
  outside {t : Token} : stop 0 t → t.isMark ','
  inside {depth : Nat} {t : Token} : stop (depth + 1) t → depth = 0 ∧ t = .closing .brace

theorem atComma_lenient : Lenient atComma := ⟨by simp [atComma], by simp [atComma]⟩

theorem atBlockEnd_lenient : Lenient atBlockEnd := ⟨by simp [atBlockEnd], by simp [atBlockEnd]⟩

namespace Lenient

variable {stop : Nat → Token → Bool} (lenient : Lenient stop)
include lenient

theorem tokens {c : Code} (each : ∀ t ∈ c, t.isPlain ∧ t.isMark ',' = false) : Passes stop 0 c := by
  induction c with
  | nil => exact .nil
  | cons t rest ih =>
      obtain ⟨⟨plain, noComma⟩, others⟩ := List.forall_mem_cons.mp each
      refine .cons plain (Bool.eq_false_iff.mpr fun stops => ?_) (ih others)
      simp [lenient.outside stops] at noComma

theorem content {c : Code} (balanced : Balanced c) : Passes stop 1 c := by
  refine balanced.passes fun depth t deep stops => ?_
  obtain ⟨depth, rfl⟩ := Nat.exists_eq_succ_of_ne_zero (Nat.ne_of_gt deep)
  obtain ⟨rfl, rfl⟩ := lenient.inside stops
  exact ⟨rfl, _, rfl⟩

theorem opening (d : Delimiter) : stop 0 (.opening d) = false :=
  Bool.eq_false_iff.mpr fun stops => by cases lenient.outside stops

theorem parens {c : Code} (balanced : Balanced c) : Passes stop 0 (parens c) := by
  refine .group (lenient.opening .paren) (lenient.content balanced) ?_
  refine Bool.eq_false_iff.mpr fun stops => ?_
  cases (lenient.inside stops).2

end Lenient

structure Seamless (c : Code) : Prop where
  balanced : Balanced c
  passes {stop : Nat → Token → Bool} : Lenient stop → Passes stop 0 c

namespace Seamless

theorem words {c : Code} (each : ∀ t ∈ c, t.isPlain ∧ t.isMark ',' = false) : Seamless c :=
  ⟨.plain fun t member => (each t member).1, fun lenient => lenient.tokens each⟩

theorem parens {c : Code} (balanced : Balanced c) : Seamless (parens c) :=
  ⟨balanced.delimited .paren, fun lenient => lenient.parens balanced⟩

theorem code {pieces : List Code} (each : pieces.Forall Seamless) : Seamless (code pieces) :=
  ⟨.code (each.imp fun _ => Seamless.balanced),
    fun lenient => .code (each.imp fun _ seamless => seamless.passes lenient)⟩

end Seamless

def block (head content : Code) : Code := code [["match"], head, braces content]

section Block

variable {head content : Code} (seamless : Seamless head) (balanced : Balanced content)
include seamless balanced

theorem block_balanced : Balanced (block head content) :=
  .code ⟨.token rfl .nil, seamless.balanced, balanced.delimited .brace⟩

theorem block_passes : Passes atComma 0 (block head content) :=
  .code ⟨.cons rfl rfl .nil, seamless.passes atComma_lenient,
    .group rfl (atComma_lenient.content balanced) rfl⟩

theorem readBody_block (rest : Code) :
    readBody (block head content ++ rest) = (block head content, skipComma rest) := by
  have front : Passes atBlockEnd 0 (word "match" ++ head) :=
    .append (.cons rfl rfl .nil) (seamless.passes atBlockEnd_lenient)
  have whole : block head content ++ rest =
      (word "match" ++ head) ++ .opening .brace :: (content ++ .closing .brace :: rest) := by
    simp [block, code, braces, delimited, word]
  have cut : splitWhere atBlockEnd 0 (block head content ++ rest) =
      (word "match" ++ head ++ .opening .brace :: content, .closing .brace :: rest) := by
    rw [whole, front, splitWhere, if_neg (by decide), Token.level,
      atBlockEnd_lenient.content balanced, splitWhere, if_pos (by decide), List.append_nil]
  have opens : (block head content ++ rest).head?.any Token.opensBlock = true := rfl
  rw [readBody, if_pos opens, cut]
  simp [block, code, braces, delimited, word]

end Block

theorem readBody_plain {body : Code} {first : Token} (starts : body.head? = some first)
    (plain : first.opensBlock = false) (passes : Passes atComma 0 body) (rest : Code) :
    readBody (body ++ symbol ',' ++ rest) = (body, rest) := by
  have front : ((body ++ symbol ',' ++ rest).head?.any Token.opensBlock) = false := by
    simp [List.head?_append, starts, plain]
  rw [readBody, front, List.append_assoc, passes]
  simp [symbol, splitWhere, atComma, Token.isMark, skipComma]

def PayloadPass.isPresent : PayloadPass → Bool
  | present _ => true
  | _ => false

theorem PayloadPass.isPresent_iff {pass : PayloadPass} :
    pass.isPresent ↔ ∃ ty, pass = .present ty := by
  cases pass <;> simp [isPresent]

namespace Emission

open Emit Execution

/-! ## Guards -/

/-- The type of the payload that is passed closes what it opens. -/
def Whole (c : Callback) : Prop :=
  ∀ ty, c.payloadPass = .present ty ∨ c.payloadPass = .maybe ty → Balanced ty.code

/-- A guard is asked inside a block if it may fail or needs a payload. -/
def asksInBlock (c : Callback) : Bool := c.fallible || c.payloadPass.isPresent

theorem payloadAs_seamless {ty : Ty} (balanced : Balanced ty.code) : Seamless (payloadAs ty) :=
  .code
    ⟨.words (by decide),
      .parens (.code
        ⟨.plain (by decide), .plain (by decide), .plain (by decide), balanced, .plain (by decide),
          .delimited .paren .nil⟩)⟩

variable (e : Emission) {c : Callback}

theorem guardBody_cases :
    (c.fallible ∧ ∃ content, e.guardBody c = block (e.call c) content ∧ Balanced content) ∨
      c.fallible = false ∧ e.guardBody c = e.call c := by
  cases fallible : c.fallible with
  | false => exact .inr ⟨rfl, by simp [guardBody, fallible]⟩
  | true =>
      refine .inl ⟨rfl, _, by rw [guardBody, if_pos fallible]; rfl, ?_⟩
      have message : Balanced (e.logFailure c "guard failed") :=
        .code ⟨.absolutePath _, .plain (by decide),
          .delimited .paren (.plain (by simp [code, textLiteral, Token.isPlain])),
          .plain (by decide)⟩
      exact .code
        ⟨.absolutePath _, .delimited .paren (.plain (by decide)), .plain (by decide),
          .plain (by decide), .absolutePath _, .delimited .paren (.plain (by decide)),
          .plain (by decide), .delimited .brace (message.append (.plain (by decide)))⟩

section Whole

variable (whole : Whole c)
include whole

theorem argument_balanced {a : Code} (member : a ∈ callArguments c) : Balanced a := by
  rw [callArguments_eq, List.mem_append] at member
  rcases member with payload | token
  · unfold payloadArguments at payload
    split at payload
    · obtain rfl := List.mem_singleton.mp payload
      exact .plain (by decide)
    · obtain rfl := List.mem_singleton.mp payload
      exact (payloadAs_seamless (whole _ (.inr ‹_›))).balanced
    · cases payload
  · unfold tokenArguments at token
    split at token
    · obtain rfl := List.mem_singleton.mp token
      exact (Balanced.absolutePath _).append (.delimited .paren (.plain (by decide)))
    · obtain rfl := List.mem_singleton.mp token
      exact .plain (by decide)
    · cases token

theorem call_seamless : Seamless (e.call c) := by
  refine .code ⟨.code ⟨.words (by decide), .words ?_, .parens (.commaSeparated ?_)⟩, ?_⟩
  · simp [Token.isPlain, Token.isMark]
  · exact fun a member => argument_balanced whole member
  · cases c.isAwaited e.isAsync <;> exact .words (by decide)

theorem guardBody_balanced : Balanced (e.guardBody c) := by
  have called := e.call_seamless whole
  rcases e.guardBody_cases with ⟨_, content, body, balanced⟩ | ⟨_, body⟩
  · exact body ▸ block_balanced called balanced
  · exact body ▸ called.balanced

theorem guardExpr_bound {ty : Ty} (pass : c.payloadPass = .present ty) :
    ∃ content, e.guardExpr c = block (payloadAs ty) content ∧ Balanced content := by
  have balanced : Balanced (code
      [something ["__payload"], fatArrow, e.guardBody c, [','], nothing, fatArrow,
        ["false", ',']]) := .code
    ⟨.append (.absolutePath _) (.delimited .paren (.plain (by decide))), .plain (by decide),
      e.guardBody_balanced whole, .plain (by decide), .absolutePath _, .plain (by decide),
      .plain (by decide)⟩
  exact ⟨_, by rw [guardExpr, pass]; rfl, balanced⟩

omit whole in
theorem guardExpr_unbound (unbound : ∀ ty, c.payloadPass ≠ .present ty) :
    e.guardExpr c = e.guardBody c := by
  rw [guardExpr]
  split
  · exact absurd ‹_› (unbound _)
  · rfl

theorem guardExpr_cases :
    (asksInBlock c ∧ ∃ head content, e.guardExpr c = block head content ∧ Seamless head ∧
      Balanced content) ∨
    asksInBlock c = false ∧ e.guardExpr c = e.call c := by
  cases bound : c.payloadPass.isPresent with
  | true =>
      obtain ⟨ty, pass⟩ := PayloadPass.isPresent_iff.mp bound
      obtain ⟨content, asked, balanced⟩ := e.guardExpr_bound whole pass
      exact .inl ⟨by simp [asksInBlock, bound], payloadAs ty, content, asked,
        payloadAs_seamless (whole ty (.inl pass)), balanced⟩
  | false =>
      have asked : e.guardExpr c = e.guardBody c := e.guardExpr_unbound fun ty pass => by
        simp [pass, PayloadPass.isPresent] at bound
      rcases e.guardBody_cases with ⟨fallible, content, body, balanced⟩ | ⟨certain, body⟩
      · exact .inl ⟨by simp [asksInBlock, fallible], e.call c, content, asked.trans body,
          e.call_seamless whole, balanced⟩
      · exact .inr ⟨by simp [asksInBlock, certain, bound], asked.trans body⟩

end Whole

def beginsBlock (t : Transition) : Bool := t.guard.any asksInBlock

/-- Whether a block comes first and there are alternatives behind it. -/
def cutShort (candidates : List Transition) : Bool :=
  match consulted candidates with
  | first :: _ :: _ => beginsBlock first
  | _ => false

theorem consulted_subset (candidates : List Transition) : consulted candidates ⊆ candidates := by
  induction candidates with
  | nil => exact List.Subset.refl _
  | cons t rest ih =>
      rw [consulted]
      split
      · exact List.cons_subset_cons t (List.nil_subset rest)
      · exact List.cons_subset_cons t ih

section Alternatives

variable (e : Emission) {t : Transition} {candidates : List Transition}

theorem allowedBy_cases (whole : ∀ g ∈ t.guard, Whole g) :
    (beginsBlock t ∧ ∃ head content, e.allowedBy t = block head content ∧ Seamless head ∧
      Balanced content) ∨
    beginsBlock t = false ∧ Seamless (e.allowedBy t) ∧
      ∃ first, (e.allowedBy t).head? = some first ∧ first.opensBlock = false := by
  cases guard : t.guard with
  | none =>
      have unguarded : e.allowedBy t = word "true" := by rw [allowedBy, guard]
      rw [unguarded, beginsBlock, guard]
      exact .inr ⟨rfl, .words (by decide), _, rfl, by decide⟩
  | some g =>
      have guarded : e.allowedBy t = e.guardExpr g := by rw [allowedBy, guard]
      rw [guarded, beginsBlock, guard, Option.any_some]
      refine (e.guardExpr_cases (whole g guard)).imp_right fun ⟨plain, call⟩ => ?_
      rw [call]
      exact ⟨plain, e.call_seamless (whole g guard), _, rfl, by decide⟩

theorem allowedBy_passes (whole : ∀ g ∈ t.guard, Whole g) : Passes atComma 0 (e.allowedBy t) := by
  rcases e.allowedBy_cases whole with
    ⟨_, head, content, asks, seamless, balanced⟩ | ⟨_, seamless, _⟩
  · exact asks ▸ block_passes seamless balanced
  · exact seamless.passes atComma_lenient

theorem disjunction_passes {alternatives : List Code}
    (each : ∀ c ∈ alternatives, Passes atComma 0 c) :
    Passes atComma 0 (disjunction alternatives) := by
  match alternatives with
  | [] => exact .cons rfl rfl .nil
  | [c] => exact each c List.mem_cons_self
  | c :: next :: rest =>
      obtain ⟨first, others⟩ := List.forall_mem_cons.mp each
      exact .code ⟨first, .cons rfl rfl (.cons rfl rfl .nil), disjunction_passes others⟩

theorem disjunction_head? {c : Code} {first : Token} (starts : c.head? = some first)
    (rest : List Code) : (disjunction (c :: rest)).head? = some first := by
  cases rest with
  | nil => exact starts
  | cons next rest => simp [disjunction, code, List.head?_append, starts]

variable (whole : ∀ t ∈ candidates, ∀ g ∈ t.guard, Whole g)
include whole

theorem anyAllowed_passes : Passes atComma 0 (e.anyAllowed candidates) := by
  refine disjunction_passes fun c alternative => ?_
  obtain ⟨t, asked, rfl⟩ := List.mem_map.mp alternative
  exact e.allowedBy_passes (whole t (consulted_subset candidates asked))

theorem anyAllowed_whole (uncut : cutShort candidates = false) (rest : Code) :
    readBody (e.anyAllowed candidates ++ symbol ',' ++ rest) = (e.anyAllowed candidates, rest) := by
  have passes := e.anyAllowed_passes whole
  have asked := consulted_subset candidates
  rw [anyAllowed] at passes ⊢
  rw [cutShort] at uncut
  match parts : consulted candidates with
  | [] =>
      rw [parts] at passes
      exact readBody_plain rfl rfl passes rest
  | t :: others =>
      rw [parts] at passes uncut asked
      rcases e.allowedBy_cases (whole t (asked List.mem_cons_self)) with
        ⟨begins, head, content, asks, seamless, balanced⟩ | ⟨_, _, first, starts, plain⟩
      -- what is not cut short and begins with a block is that block alone
      · cases others with
        | nil =>
            rw [List.map_singleton, disjunction, asks, List.append_assoc,
              readBody_block seamless balanced]
            rfl
        | cons next others => simp [begins] at uncut
      · exact readBody_plain (disjunction_head? starts _) plain passes rest

theorem anyAllowed_cut (cut : cutShort candidates) :
    ∃ first others, consulted candidates = first :: others ∧ others ≠ [] ∧ ∀ rest,
      readBody (e.anyAllowed candidates ++ symbol ',' ++ rest) =
        (e.allowedBy first,
          symbol '|' ++ symbol '|' ++ disjunction (others.map e.allowedBy) ++ symbol ',' ++
            rest) := by
  have asked := consulted_subset candidates
  rw [cutShort] at cut
  match parts : consulted candidates with
  | [] => simp [parts] at cut
  | [_] => simp [parts] at cut
  | t :: next :: others =>
      rw [parts] at cut asked
      refine ⟨t, next :: others, rfl, List.cons_ne_nil _ _, fun rest => ?_⟩
      rcases e.allowedBy_cases (whole t (asked List.mem_cons_self)) with
        ⟨_, head, content, asks, seamless, balanced⟩ | ⟨plain, _⟩
      · have split : e.anyAllowed candidates ++ symbol ',' ++ rest =
            block head content ++ (symbol '|' ++ symbol '|' ++
              disjunction ((next :: others).map e.allowedBy) ++ symbol ',' ++ rest) := by
          rw [← asks, anyAllowed, parts]
          simp [disjunction, code, symbol]
        rw [split, readBody_block seamless balanced, asks]
        rfl
      · simp [plain] at cut

end Alternatives

/-! ## Arms -/

variable (e : Emission)

def queryArm (trigger : String) (candidates : List Transition) : Code :=
  code [e.triggerPath trigger, fatArrow, e.anyAllowed candidates ++ symbol ',']

def queryArms (state : String) : Code :=
  code
    [(e.model.candidates state).flatMap fun (trigger, candidates) => e.queryArm trigger candidates,
     ["_"], fatArrow, ["false", ',']]

variable {e}

theorem infix_code {c : Code} {pieces : List Code} (piece : c ∈ pieces) : c <:+: code pieces :=
  List.infix_of_mem_flatten piece

theorem infix_flatMap {α : Type} {a : α} {l : List α} (member : a ∈ l) (f : α → Code) :
    f a <:+: l.flatMap f := by
  rw [List.flatMap_def]
  exact List.infix_of_mem_flatten (List.mem_map_of_mem member)

theorem infix_braces (c : Code) : c <:+: braces c := List.infix_append [_] c [_]

theorem queryArms_emitted {s : StateModel} (state : s ∈ e.model.states)
    (handles : e.model.candidates s.name ≠ []) : braces (e.queryArms s.name) <:+: e.query := by
  let arms := e.stateArms fun _ candidates => e.anyAllowed candidates ++ symbol ','
  have here : braces (e.queryArms s.name) <:+: arms := by
    simp only [arms, stateArms]
    refine .trans ?_ (infix_flatMap state _)
    obtain ⟨group, groups, listed⟩ := List.exists_cons_of_ne_nil handles
    simp only [listed]
    rw [← listed]
    exact infix_code (by simp [queryArms, queryArm])
  have inside : arms <:+: braces (code [arms, ["_"], fatArrow, ["false", ',']]) :=
    .trans (infix_code List.mem_cons_self) (infix_braces _)
  have answered : arms <:+: e.matchState arms := inside.trans (infix_code (by simp))
  have body : e.matchState arms <:+: e.query :=
    .trans (infix_braces _) (infix_code (by simp [arms]))
  exact here.trans (answered.trans body)

theorem readArm_queryArm (trigger : String) (candidates : List Transition) (rest : Code) :
    readArm (e.queryArm trigger candidates ++ rest) =
      (e.triggerPath trigger, readBody (e.anyAllowed candidates ++ symbol ',' ++ rest)) := by
  have arm : e.queryArm trigger candidates ++ rest =
      e.triggerPath trigger ++ .mark '=' :: .mark '>' ::
        (e.anyAllowed candidates ++ symbol ',' ++ rest) := by
    simp [queryArm, code, fatArrow]
  have passes : Passes atArrow 0 (e.triggerPath trigger) :=
    .cons rfl rfl (.cons rfl rfl (.cons rfl rfl (.cons rfl rfl .nil)))
  rw [readArm, arm, passes, splitWhere, if_pos (by decide), List.append_nil]
  rfl

theorem arms_read {groups : List (String × List Transition)}
    (each : ∀ group ∈ groups, ∀ rest, readArm (e.queryArm group.1 group.2 ++ rest) =
      (e.triggerPath group.1, e.anyAllowed group.2, rest)) :
    Arms
      (code
        [groups.flatMap fun (trigger, candidates) => e.queryArm trigger candidates,
         ["_"], fatArrow, ["false", ',']])
      (groups.map (fun (trigger, candidates) =>
        (e.triggerPath trigger, e.anyAllowed candidates)) ++ [(word "_", word "false")]) := by
  induction groups with
  | nil => exact .cons (List.cons_ne_nil _ _) (by rfl) .nil
  | cons group groups ih =>
      obtain ⟨here, later⟩ := List.forall_mem_cons.mp each
      refine .cons ?_ ?_ (ih later)
      · simp [code]
      · rw [← here]
        simp [code]

section Accepted

variable (accepted : e.Accepted)
include accepted

theorem flat_uncut (flat : e.isHierarchical = false) (state trigger : String) :
    cutShort (e.model.candidatesOn state trigger) = false := by
  have alone : (e.model.candidatesOn state trigger).length ≤ 1 := by
    rw [candidatesOn_eq accepted, levels, flat]
    exact List.length_filterMap_le _ _
  rcases candidates : e.model.candidatesOn state trigger with _ | ⟨t, _ | ⟨second, others⟩⟩
  · rfl
  · cases guard : t.guard <;> simp [cutShort, consulted, guard]
  · simp [candidates] at alone

theorem guards_whole (whole : ∀ c ∈ e.model.callbacks, Whole c) (state trigger : String) :
    ∀ t ∈ e.model.candidatesOn state trigger, ∀ g ∈ t.guard, Whole g := by
  intro t candidate g guard
  have registered := (candidate_registered accepted candidate).1
  refine whole g (List.mem_append_left _ (List.mem_flatMap.mpr ⟨t, registered, ?_⟩))
  exact List.mem_append_left _ (Option.mem_toList.mpr guard)

/-- Where no alternatives are cut short, the arms of a state are read as they are meant. -/
theorem queryArms_read (whole : ∀ c ∈ e.model.callbacks, Whole c) (state : String)
    (uncut : ∀ group ∈ e.model.candidates state, cutShort group.2 = false) :
    Arms (e.queryArms state)
      ((e.model.candidates state).map (fun (trigger, candidates) =>
        (e.triggerPath trigger, e.anyAllowed candidates)) ++ [(word "_", word "false")]) := by
  refine arms_read fun group listed rest => ?_
  have meant := uncut group listed
  obtain ⟨trigger, _, rfl⟩ := List.mem_map.mp listed
  rw [readArm_queryArm, e.anyAllowed_whole (guards_whole accepted whole state trigger) meant]

/-- An arm is read with all its alternatives, unless a guard that is asked inside a block comes
first; then the first alternative is all that is read. States that are not nested have no more. -/
theorem query_arm_read (whole : ∀ c ∈ e.model.callbacks, Whole c) {s : StateModel}
    (state : s ∈ e.model.states) {trigger : String} {candidates : List Transition}
    (handled : (trigger, candidates) ∈ e.model.candidates s.name) :
    braces (e.queryArms s.name) <:+: e.query ∧
      e.queryArm trigger candidates <:+: e.queryArms s.name ∧
      (e.isHierarchical = false → cutShort candidates = false) ∧
      (cutShort candidates = false → ∀ rest,
        readArm (e.queryArm trigger candidates ++ rest) =
          (e.triggerPath trigger, e.anyAllowed candidates, rest)) ∧
      (cutShort candidates → ∃ first others, consulted candidates = first :: others ∧
        others ≠ [] ∧ ∀ rest,
          readArm (e.queryArm trigger candidates ++ rest) =
            (e.triggerPath trigger, e.allowedBy first,
              symbol '|' ++ symbol '|' ++ disjunction (others.map e.allowedBy) ++ symbol ',' ++
                rest)) := by
  have listed : e.model.candidatesOn s.name trigger = candidates := by
    obtain ⟨_, _, same⟩ := List.mem_map.mp handled
    cases same
    rfl
  have guards := guards_whole accepted whole s.name trigger
  rw [listed] at guards
  simp only [readArm_queryArm]
  refine ⟨queryArms_emitted state (List.ne_nil_of_mem handled), ?_, ?_, ?_, ?_⟩
  · exact .trans (infix_flatMap handled fun (trigger, candidates) => e.queryArm trigger candidates)
      (infix_code List.mem_cons_self)
  · exact fun flat => listed ▸ flat_uncut accepted flat s.name trigger
  · exact fun uncut rest => by rw [e.anyAllowed_whole guards uncut]
  · intro cut
    obtain ⟨first, others, asked, more, reads⟩ := e.anyAllowed_cut guards cut
    exact ⟨first, others, asked, more, fun rest => by rw [reads]⟩

end Accepted

theorem heatLamp_arms_read :
    readArm (heatLamp.queryArm "Power" (heatLamp.model.candidatesOn "Off" "Power")) =
        (heatLamp.triggerPath "Power", word "true", []) ∧
      readArm (heatLamp.queryArm "Power" (heatLamp.model.candidatesOn "High" "Power")) =
        (heatLamp.triggerPath "Power", heatLamp.guardExpr heatGuard,
          code [['|', '|'], ["true", ',']]) := by
  have whole : ∀ c ∈ heatLamp.model.callbacks, Whole c := by
    have known : Balanced heat.code := .token rfl .nil
    simp [Model.callbacks, heatLamp, heatGuard, lamp, lampOn, Whole, Callback.payloadPass, known]
  have state (i : Fin 4) : heatLamp.model.states[i] ∈ heatLamp.model.states := List.getElem_mem _
  have off : ("Power", heatLamp.model.candidatesOn "Off" "Power") ∈
      heatLamp.model.candidates "Off" := List.mem_cons_self
  have high : ("Power", heatLamp.model.candidatesOn "High" "Power") ∈
      heatLamp.model.candidates "High" := List.mem_cons_self
  obtain ⟨_, _, _, reads, _⟩ := query_arm_read heatLamp_accepted whole (state 0) off
  obtain ⟨_, _, _, _, cut⟩ := query_arm_read heatLamp_accepted whole (state 3) high
  obtain ⟨first, others, asked, _, left⟩ := cut rfl
  obtain ⟨rfl, rfl⟩ := List.cons.inj asked
  exact ⟨reads rfl [], left []⟩

def waryModule : ModuleFacts where
  name := "lamp"
  enums := lampModule.enums
  methods :=
    [⟨"Lamp", "cool", .exclusive, [], none, false, []⟩,
     ⟨"Lamp", "hot", .shared, [],
       some (.path (.mk false [.mk "Result"
         (.angle false [.type (.path (.word "bool")), .type (.path (.word "String"))] false)])),
       false, []⟩]

/-- The wary lamp is accepted, but the question for a high level is read without what the lamp does
on any level. -/
theorem wary_arm_cut :
    ∃ model e, (lampFacts.build waryModule).1 = some model ∧ model.emission = .ok e ∧
      (readArm (e.queryArms "High")).1 = e.triggerPath "Power" ∧
      (readArm (e.queryArms "High")).2.1 ≠ e.anyAllowed (e.model.candidatesOn "High" "Power") := by
  refine ⟨_, _, rfl, rfl, rfl, ?_⟩
  decide

end Emission

end Statewright
