import Statewright.Proofs.Grammar.Sameness

/-!
# Types without hidden groups

A hidden group holds a type together and leaves no mark of its own. Opening all groups of a type
changes neither its code nor what stands in its last segment.
-/

namespace Statewright.Grammar

mutual

def Ty.opened : Ty → Ty
  | .path p => .path p.opened
  | .projection owner depth p => .projection owner.opened depth p.opened
  | .reference lifetime mutable target => .reference lifetime mutable target.opened
  | .pointer mutable target => .pointer mutable target.opened
  | .tuple elements trailing => .tuple (Ty.allOpened elements) trailing
  | .paren inner => .paren inner.opened
  | .group inner => inner.opened
  | .slice element => .slice element.opened
  | .array element length => .array element.opened length
  | .implBound bounds trailing => .implBound (Bound.allOpened bounds) trailing
  | .object keyword bounds trailing => .object keyword (Bound.allOpened bounds) trailing
  | .never => .never
  | .infer => .infer
  | .other content => .other content

def Ty.allOpened : List Ty → List Ty
  | [] => []
  | t :: rest => t.opened :: Ty.allOpened rest

def Path.opened : Path → Path
  | .mk absolute segments => .mk absolute (Segment.allOpened segments)

def Segment.opened : Segment → Segment
  | .mk ident arguments => .mk ident arguments.opened

def Segment.allOpened : List Segment → List Segment
  | [] => []
  | s :: rest => s.opened :: Segment.allOpened rest

def Arguments.opened : Arguments → Arguments
  | .none => .none
  | .angle turbofish arguments trailing =>
    .angle turbofish (Argument.allOpened arguments) trailing
  | .call inputs trailing output =>
    .call (Ty.allOpened inputs) trailing
      (match output with
        | some t => some t.opened
        | none => none)

def Argument.opened : Argument → Argument
  | .lifetime text => .lifetime text
  | .type ty => .type ty.opened
  | .value content => .value content
  | .binding name arguments ty => .binding name arguments.opened ty.opened
  | .bindingValue name arguments content => .bindingValue name arguments.opened content
  | .constraint name arguments bounds trailing =>
    .constraint name arguments.opened (Bound.allOpened bounds) trailing

def Argument.allOpened : List Argument → List Argument
  | [] => []
  | a :: rest => a.opened :: Argument.allOpened rest

def Bound.opened : Bound → Bound
  | .lifetime text => .lifetime text
  | .trait parenthesized modifiers p => .trait parenthesized modifiers p.opened
  | .capture content => .capture content
  | .other content => .other content

def Bound.allOpened : List Bound → List Bound
  | [] => []
  | b :: rest => b.opened :: Bound.allOpened rest

end

theorem Argument.isLifetime_opened (a : Argument) : a.opened.isLifetime = a.isLifetime := by
  cases a <;> rfl

mutual

theorem Ty.code_opened : ∀ t : Ty, t.opened.code = t.code
  | .path p => p.code_opened
  | .projection owner depth (.mk absolute segments) => by
    simp only [Ty.opened, Path.opened, Ty.code, owner.code_opened, Segment.codes_opened segments]
  | .reference lifetime mutable target => by
    simp only [Ty.opened, Ty.code, target.code_opened]
  | .pointer mutable target => by simp only [Ty.opened, Ty.code, target.code_opened]
  | .tuple elements trailing => by simp only [Ty.opened, Ty.code, Ty.codes_opened elements]
  | .paren inner => by simp only [Ty.opened, Ty.code, inner.code_opened]
  | .group inner => inner.code_opened
  | .slice element => by simp only [Ty.opened, Ty.code, element.code_opened]
  | .array element length => by simp only [Ty.opened, Ty.code, element.code_opened]
  | .implBound bounds trailing => by simp only [Ty.opened, Ty.code, Bound.codes_opened bounds]
  | .object keyword bounds trailing => by
    simp only [Ty.opened, Ty.code, Bound.codes_opened bounds]
  | .never | .infer | .other _ => rfl

theorem Ty.codes_opened : ∀ ts : List Ty, Ty.codes (Ty.allOpened ts) = Ty.codes ts
  | [] => rfl
  | t :: rest => by simp only [Ty.allOpened, Ty.codes, t.code_opened, Ty.codes_opened rest]

theorem Path.code_opened : ∀ p : Path, p.opened.code = p.code
  | .mk absolute segments => by simp only [Path.opened, Path.code, Segment.codes_opened segments]

theorem Segment.code_opened : ∀ s : Segment, s.opened.code = s.code
  | .mk ident arguments => by simp only [Segment.opened, Segment.code, arguments.code_opened]

theorem Segment.codes_opened :
    ∀ segments, Segment.codes (Segment.allOpened segments) = Segment.codes segments
  | [] => rfl
  | s :: rest => by
    simp only [Segment.allOpened, Segment.codes, s.code_opened, Segment.codes_opened rest]

theorem Arguments.code_opened : ∀ a : Arguments, a.opened.code = a.code
  | .none => rfl
  | .angle turbofish arguments trailing => by
    simp only [Arguments.opened, Arguments.code, Argument.codes_opened arguments]
  | .call inputs trailing none => by
    simp only [Arguments.opened, Arguments.code, Ty.codes_opened inputs]
  | .call inputs trailing (some output) => by
    simp only [Arguments.opened, Arguments.code, Ty.codes_opened inputs, output.code_opened]

theorem Argument.code_opened : ∀ a : Argument, a.opened.code = a.code
  | .lifetime _ | .value _ => rfl
  | .type ty => ty.code_opened
  | .binding name arguments ty => by
    simp only [Argument.opened, Argument.code, arguments.code_opened, ty.code_opened]
  | .bindingValue name arguments content => by
    simp only [Argument.opened, Argument.code, arguments.code_opened]
  | .constraint name arguments bounds trailing => by
    simp only [Argument.opened, Argument.code, arguments.code_opened, Bound.codes_opened bounds]

theorem Argument.codes_opened :
    ∀ as, Argument.codes (Argument.allOpened as) = Argument.codes as
  | [] => rfl
  | a :: rest => by
    simp only [Argument.allOpened, Argument.codes, a.isLifetime_opened, a.code_opened,
      Argument.codes_opened rest]

theorem Bound.code_opened : ∀ b : Bound, b.opened.code = b.code
  | .lifetime _ | .capture _ | .other _ => rfl
  | .trait parenthesized modifiers p => by simp only [Bound.opened, Bound.code, p.code_opened]

theorem Bound.codes_opened : ∀ bs, Bound.codes (Bound.allOpened bs) = Bound.codes bs
  | [] => rfl
  | b :: rest => by simp only [Bound.allOpened, Bound.codes, b.code_opened, Bound.codes_opened rest]

end

theorem Ty.text_opened (t : Ty) : t.opened.text = t.text := by
  rw [Ty.text, t.code_opened, Ty.text]

theorem Segment.allOpened_eq_map (segments : List Segment) :
    Segment.allOpened segments = segments.map Segment.opened := by
  induction segments with
  | nil => rfl
  | cons s rest ih => exact congrArg (s.opened :: ·) ih

theorem Argument.allOpened_eq_map (arguments : List Argument) :
    Argument.allOpened arguments = arguments.map Argument.opened := by
  induction arguments with
  | nil => rfl
  | cons a rest ih => exact congrArg (a.opened :: ·) ih

theorem Bound.allOpened_eq_map (bounds : List Bound) :
    Bound.allOpened bounds = bounds.map Bound.opened := by
  induction bounds with
  | nil => rfl
  | cons b rest ih => exact congrArg (b.opened :: ·) ih

theorem Segment.ident_opened (s : Segment) : s.opened.ident = s.ident := by
  cases s
  rfl

theorem Path.last?_opened (p : Path) : p.opened.last? = p.last?.map Segment.opened := by
  cases p with
  | mk absolute segments =>
      simp [Path.opened, Path.last?, Path.segments, Segment.allOpened_eq_map, List.getLast?_map]

theorem Path.word?_opened (p : Path) : p.opened.word? = p.word? := by
  obtain ⟨absolute, segments⟩ := p
  match absolute, segments with
  | true, [] | true, _ :: _ | false, [] => rfl
  | false, .mk name arguments :: rest => cases arguments <;> cases rest <;> rfl

theorem Ty.lastSegment?_opened : ∀ t : Ty, t.opened.lastSegment? = t.lastSegment?.map Segment.opened
  | .path p => p.last?_opened
  | .group inner => inner.lastSegment?_opened
  | .projection .. | .reference .. | .pointer .. | .tuple .. | .paren .. | .slice .. | .array ..
  | .implBound .. | .object .. | .never | .infer | .other .. => rfl

theorem Segment.typeArguments_opened (s : Segment) :
    s.opened.typeArguments = s.typeArguments.map Ty.opened := by
  obtain ⟨ident, arguments⟩ := s
  cases arguments with
  | angle turbofish arguments trailing =>
      simp only [Segment.opened, Arguments.opened, Segment.typeArguments, Segment.arguments,
        Argument.allOpened_eq_map, List.filterMap_map, List.map_filterMap]
      congr 1
      funext a
      cases a <;> rfl
  | _ => rfl

variable {t other : Ty} {p q : Path}

def Ty.Alike (t other : Ty) : Prop := t.opened = other.opened

theorem Ty.Alike.text (alike : t.Alike other) : t.text = other.text := by
  rw [← t.text_opened, ← other.text_opened, show t.opened = other.opened from alike]

theorem Path.sameEnd_opened : p.SameEnd q.opened ↔ p.SameEnd q := by
  unfold Path.SameEnd
  rw [q.last?_opened]
  constructor
  · rintro ⟨s, _, last, opened, tokens⟩
    obtain ⟨end_, found, rfl⟩ := Option.map_eq_some_iff.mp opened
    exact ⟨s, end_, last, found, tokens.trans end_.code_opened⟩
  · rintro ⟨s, end_, last, found, tokens⟩
    exact ⟨s, _, last, by rw [found]; rfl, tokens.trans end_.code_opened.symm⟩

theorem Ty.Alike.paths (alike : t.Alike other) (names : t.Names p) (others : other.Names q) :
    p.opened = q.opened := by
  unfold Ty.Alike at alike
  cases names <;> cases others <;> simp only [Ty.opened, reduceCtorEq] at alike
  · exact Ty.path.inj alike
  · exact (Ty.projection.inj alike).2.2

theorem Ty.Alike.same_eq (alike : t.Alike other) (named : (∃ p, t.Names p) ↔ ∃ q, other.Names q)
    (ty : Ty) : ty.same t = ty.same other := by
  rw [Bool.eq_iff_iff, Ty.same_cases, Ty.same_cases, alike.text]
  refine or_congr_right (exists_congr fun end_ => ?_)
  constructor
  · rintro ⟨p, names, found, ends⟩
    obtain ⟨q, others⟩ := named.mp ⟨p, found⟩
    rw [← Path.sameEnd_opened, alike.paths found others, Path.sameEnd_opened] at ends
    exact ⟨q, names, others, ends⟩
  · rintro ⟨q, names, others, ends⟩
    obtain ⟨p, found⟩ := named.mpr ⟨q, others⟩
    rw [← Path.sameEnd_opened, ← alike.paths found others, Path.sameEnd_opened] at ends
    exact ⟨p, names, found, ends⟩

end Statewright.Grammar
