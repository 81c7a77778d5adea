import Mathlib.Data.List.Chain
import Statewright.Grammar.Type
import Statewright.Text.Identifier

/-!
# Sameness of types

What two types that count as written alike have in common. Their text without blanks does not show
where a word ends, so `dyn Foo` passes for a type called `dynFoo`; where no two neighbours run
together, the text determines the tokens. Of two paths only the last segments are compared, and
what a path is projected from is not looked at.
-/

namespace Statewright

open Text

namespace Token

inductive Kind
  | name
  | lifetime
  | number
  | delimiter
  | mark
  deriving DecidableEq, Repr

def kind : Token → Kind
  | ident _ => .name
  | lifetime _ => .lifetime
  | literal _ => .number
  | opening _ | closing _ => .delimiter
  | mark _ _ => .mark

def Kind.startingWith (c : Char) : Kind :=
  if isIdentStart c then .name
  else if c == '\'' then .lifetime
  else if c.isDigit then .number
  else if "()[]\x7b\x7d".toList.contains c then .delimiter
  else .mark

def Kind.continuesWith : Kind → Char → Bool
  | .name, c | .lifetime, c => isIdentContinue c || c == '#'
  | .number, c => isIdentContinue c || c == '.'
  | .delimiter, _ | .mark, _ => false

/-- A token of one piece: its first letter tells its kind, and the others go on with it. Texts in
quotes are not of this form, nor is a mark that is joined to the next one. -/
def solid (t : Token) : Bool :=
  match t.text.toList with
  | [] => false
  | c :: rest =>
    Kind.startingWith c == t.kind && c != ' ' && rest.all t.kind.continuesWith &&
      match t with
      | mark _ joint => !joint
      | _ => true

/-- Without a blank between them, the start of `next` could belong to `t`. -/
def runsInto (t next : Token) : Bool := next.text.toList.head?.any t.kind.continuesWith

/-- Every token is of one piece, and no two neighbours run together when the blanks are gone. -/
def Legible (tokens : List Token) : Prop :=
  (∀ t ∈ tokens, t.solid) ∧ tokens.IsChain fun t next => t.runsInto next = false

instance (tokens : List Token) : Decidable (Legible tokens) :=
  inferInstanceAs (Decidable (_ ∧ _))

def visible (t : Token) : List Char := t.text.toList.filter (· != ' ')

variable {x y t next : Token} {xs ys tokens : List Token} {c : Char}

theorem toList_compact (tokens : List Token) :
    (compact tokens).toList = tokens.flatMap visible := by
  unfold compact flat
  rw [String.toList_ofList, String.toList_intercalate, List.map_map]
  induction tokens with
  | nil => rfl
  | cons t rest ih =>
      cases rest with
      | nil => simp [visible]
      | cons next rest =>
          rw [List.map_cons, List.map_cons, List.intercalate_cons_cons, ← List.map_cons,
            List.filter_append, ih, List.filter_append, List.flatMap_cons]
          simp [visible]

theorem continuesWith_blank (k : Kind) : k.continuesWith ' ' = false := by cases k <;> decide

theorem solid_cases (solid : t.solid) :
    ∃ c rest, t.text.toList = c :: rest ∧ t.visible = c :: rest ∧
      Kind.startingWith c = t.kind ∧ ∀ d ∈ rest, t.kind.continuesWith d := by
  unfold Token.solid at solid
  split at solid
  next => cases solid
  next c rest letters =>
      simp only [Bool.and_eq_true, beq_iff_eq, List.all_eq_true] at solid
      obtain ⟨⟨⟨starts, shown⟩, continued⟩, -⟩ := solid
      refine ⟨c, rest, letters, ?_, starts, continued⟩
      rw [visible, letters, List.filter_eq_self]
      refine List.forall_mem_cons.mpr ⟨shown, fun d member => bne_iff_ne.mpr ?_⟩
      rintro rfl
      simpa [continuesWith_blank] using continued ' ' member

theorem visible_eq (solid : t.solid) : t.visible = t.text.toList := by
  obtain ⟨c, rest, letters, shown, -⟩ := solid_cases solid
  rw [letters, shown]

theorem kind_eq (solidX : x.solid) (solidY : y.solid)
    (start : x.visible.head? = y.visible.head?) : x.kind = y.kind := by
  obtain ⟨c, _, -, shownX, startX, -⟩ := solid_cases solidX
  obtain ⟨d, _, -, shownY, startY, -⟩ := solid_cases solidY
  rw [shownX, shownY] at start
  cases start
  rw [← startX, ← startY]

theorem solid_mark {joint : Bool} (solid : (mark c joint).solid) : joint = false := by
  unfold Token.solid at solid
  split at solid
  next => cases solid
  next => simpa using (Bool.and_eq_true_iff.mp solid).2

theorem eq_of_visible (solidX : x.solid) (solidY : y.solid) (same : x.visible = y.visible) :
    x = y := by
  have kinds := kind_eq solidX solidY (congrArg List.head? same)
  rw [visible_eq solidX, visible_eq solidY, String.toList_inj] at same
  cases x <;> cases y <;> cases kinds
  case ident.ident => exact congrArg ident same
  case lifetime.lifetime => exact congrArg lifetime same
  case literal.literal => exact congrArg literal same
  case mark.mark c joint d joined =>
      obtain rfl : c = d := by simpa [text] using same
      rw [solid_mark solidX, solid_mark solidY]
  -- the six delimiters are written differently
  all_goals
    rename_i d e
    revert same
    cases d <;> cases e <;> simp [text, Delimiter.opening, Delimiter.closing]

theorem continuesWith_of_longer (solidX : x.solid) (solidY : y.solid) {d : List Char}
    (longer : y.visible = x.visible ++ c :: d) : x.kind.continuesWith c := by
  obtain ⟨a, rest, -, shownX, -⟩ := solid_cases solidX
  have kinds : x.kind = y.kind := kind_eq solidX solidY (by rw [longer, shownX]; rfl)
  obtain ⟨b, tail, -, shownY, -, continued⟩ := solid_cases solidY
  rw [shownX, shownY, List.cons_append, List.cons.injEq] at longer
  rw [kinds]
  exact continued c (by simp [longer.2])

theorem Legible.head (legible : Legible (t :: xs)) : t.solid := legible.1 t List.mem_cons_self

theorem Legible.tail (legible : Legible (t :: xs)) : Legible xs :=
  ⟨fun _ member => legible.1 _ (List.mem_cons_of_mem _ member), legible.2.tail⟩

theorem Legible.stops (legible : Legible (t :: xs)) {d : List Char}
    (behind : xs.flatMap visible = c :: d) : t.kind.continuesWith c = false := by
  cases xs with
  | nil => cases behind
  | cons next rest =>
      obtain ⟨a, tail, letters, shown, -⟩ := solid_cases legible.tail.head
      have apart := (List.isChain_cons_cons.mp legible.2).1
      rw [List.flatMap_cons, shown, List.cons_append, List.cons.injEq] at behind
      simpa [runsInto, letters, behind.1] using apart

theorem Legible.visible_ne_nil (legible : Legible (t :: xs)) : (t :: xs).flatMap visible ≠ [] := by
  obtain ⟨c, rest, -, shown, -⟩ := solid_cases legible.head
  simp [List.flatMap_cons, shown]

theorem Legible.visible_head_eq (legibleX : Legible (x :: xs)) (legibleY : Legible (y :: ys))
    (same : (x :: xs).flatMap visible = (y :: ys).flatMap visible) : x.visible = y.visible := by
  rw [List.flatMap_cons, List.flatMap_cons] at same
  rcases List.append_eq_append_iff.mp same with ⟨d, longer, behind⟩ | ⟨d, longer, behind⟩
  all_goals
    cases d with
    | nil => simp [longer]
    | cons c d => ?_
  · exact absurd (continuesWith_of_longer legibleX.head legibleY.head longer)
      (by simp [legibleX.stops behind])
  · exact absurd (continuesWith_of_longer legibleY.head legibleX.head longer)
      (by simp [legibleY.stops behind])

theorem Legible.eq_of_compact (legibleX : Legible xs) (legibleY : Legible ys)
    (same : compact xs = compact ys) : xs = ys := by
  rw [← String.toList_inj, toList_compact, toList_compact] at same
  induction xs generalizing ys with
  | nil =>
      cases ys with
      | nil => rfl
      | cons y ys => exact absurd same.symm legibleY.visible_ne_nil
  | cons x xs ih =>
      cases ys with
      | nil => exact absurd same legibleX.visible_ne_nil
      | cons y ys =>
          have heads := legibleX.visible_head_eq legibleY same
          obtain rfl := eq_of_visible legibleX.head legibleY.head heads
          exact congrArg (x :: ·) (ih legibleX.tail legibleY.tail (List.append_cancel_left same))

end Token

namespace Grammar

/-! ## Sameness -/

inductive Ty.Names : Ty → Path → Prop
  | path (p : Path) : Names (.path p) p
  | projection (owner : Ty) (depth : Nat) (p : Path) : Names (.projection owner depth p) p

def Path.SameEnd (p q : Path) : Prop :=
  ∃ s t, p.last? = some s ∧ q.last? = some t ∧ s.code = t.code

variable {a b : Ty}

theorem Ty.lastWritten?_eq_some_iff {s : Segment} :
    Ty.same.lastWritten? a = some s ↔ ∃ p, a.Names p ∧ p.last? = some s := by
  constructor
  · intro written
    cases a with
    | path p => exact ⟨p, .path p, written⟩
    | projection owner depth p => exact ⟨p, .projection owner depth p, written⟩
    | _ => cases written
  · rintro ⟨p, ⟨⟩ | ⟨⟩, last⟩ <;> exact last

theorem Segment.code_eq_iff (s t : Segment) :
    s.code = t.code ↔ s.ident = t.ident ∧ s.arguments.code = t.arguments.code := by
  cases s
  cases t
  simp [Segment.code, Segment.ident, Segment.arguments]

theorem Ty.same_cases :
    a.same b = true ↔
      a.text = b.text ∨ ∃ p q, a.Names p ∧ b.Names q ∧ p.SameEnd q := by
  unfold Ty.same
  rw [Bool.or_eq_true, beq_iff_eq]
  refine or_congr_right ?_
  constructor
  · intro ends
    split at ends
    next s t written other =>
        obtain ⟨p, names, last⟩ := lastWritten?_eq_some_iff.mp written
        obtain ⟨q, others, lastOther⟩ := lastWritten?_eq_some_iff.mp other
        rw [Bool.and_eq_true, beq_iff_eq, beq_iff_eq] at ends
        exact ⟨p, q, names, others, s, t, last, lastOther, (Segment.code_eq_iff s t).mpr ends⟩
    next => cases ends
  · rintro ⟨p, q, names, others, s, t, last, lastOther, alike⟩
    rw [lastWritten?_eq_some_iff.mpr ⟨p, names, last⟩,
      lastWritten?_eq_some_iff.mpr ⟨q, others, lastOther⟩]
    simpa using (Segment.code_eq_iff s t).mp alike

/-- Two types count as the same if they have the same tokens, or if both are paths, whatever they
are projected from, with the same tokens in their last segments, or if only blanks tell their texts
apart. For the last there must be a token in one of them that its neighbour runs into when the
blanks are gone, or one that is not of one piece: a quoted text, which may hold blanks of its own,
or a mark joined to the next. -/
theorem Ty.same_iff :
    a.same b = true ↔
      a.code = b.code ∨ (∃ p q, a.Names p ∧ b.Names q ∧ p.SameEnd q) ∨
        (a.text = b.text ∧ a.code ≠ b.code ∧
          ¬(Token.Legible a.code ∧ Token.Legible b.code)) := by
  rw [Ty.same_cases]
  constructor
  · rintro (texts | ends)
    · by_cases tokens : a.code = b.code
      · exact .inl tokens
      · refine .inr (.inr ⟨texts, tokens, fun legible => tokens ?_⟩)
        exact legible.1.eq_of_compact legible.2 texts
    · exact .inr (.inl ends)
  · rintro (tokens | ends | ⟨texts, -⟩)
    · exact .inl (congrArg Token.compact tokens)
    · exact .inr ends
    · exact .inl texts

/-- `Vec<crate::Coin>` is read back from its text, `&mut Coin` is not. -/
example :
    Token.Legible (Ty.path (.mk false [.mk "Vec" (.angle false
        [.type (.path (.mk false [.mk "crate" .none, .mk "Coin" .none]))] false)])).code ∧
      ¬Token.Legible (Ty.reference none true (.named "Coin")).code := by
  decide

def outputOf (owner : String) : Ty :=
  .projection (.named owner) 1 (.mk false [.mk "Tr" .none, .mk "Out" .none])

def objectOf (name : String) : Ty := .object true [.trait false [] (.word name)] false

theorem differing_types_same :
    ((outputOf "A").same (outputOf "B") = true ∧ (outputOf "A").code ≠ (outputOf "B").code) ∧
      ((objectOf "Foo").same (.named "dynFoo") = true ∧
        (objectOf "Foo").code ≠ (Ty.named "dynFoo").code) ∧
      ¬∀ a b : Ty, a.same b = true →
        a.code = b.code ∨ ∃ p q, a = .path p ∧ b = .path q ∧ p.SameEnd q := by
  have projected : (outputOf "A").same (outputOf "B") = true := by decide
  have apart : (outputOf "A").code ≠ (outputOf "B").code := by decide
  refine ⟨⟨projected, apart⟩, ⟨by decide, by decide⟩, fun claimed => ?_⟩
  rcases claimed _ _ projected with tokens | ⟨p, q, isPath, -⟩
  · exact apart tokens
  · cases isPath

end Grammar

end Statewright
