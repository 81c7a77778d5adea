import Mathlib.Data.List.Basic
import Statewright.Token

/-!
# Balanced code

Code that closes what it opens, and how far a reader gets in it that keeps count of the groups it is
in: it passes through balanced code unless it has reason to stop there.
-/

namespace Statewright

namespace Token

def isPlain : Token → Bool
  | opening _ | closing _ => false
  | _ => true

def isMark (char : Char) : Token → Bool
  | mark c _ => c == char
  | _ => false

def level (depth : Nat) : Token → Nat
  | opening _ => depth + 1
  | closing _ => depth - 1
  | _ => depth

theorem level_plain {t : Token} (plain : t.isPlain) (depth : Nat) : t.level depth = depth := by
  cases t with
  | opening d => cases plain
  | closing d => cases plain
  | _ => rfl

end Token

inductive Balanced : Code → Prop
  | nil : Balanced []
  | token {t : Token} {rest : Code} : t.isPlain → Balanced rest → Balanced (t :: rest)
  | group {d : Delimiter} {content rest : Code} :
      Balanced content → Balanced rest → Balanced (delimited d content ++ rest)

namespace Balanced

theorem append {first rest : Code} (balanced : Balanced first) (also : Balanced rest) :
    Balanced (first ++ rest) := by
  induction balanced with
  | nil => exact also
  | token plain _ ih => exact .token plain ih
  | group content _ _ ih =>
      rw [List.append_assoc]
      exact .group content ih

theorem delimited (d : Delimiter) {content : Code} (balanced : Balanced content) :
    Balanced (delimited d content) := by
  rw [← List.append_nil (Statewright.delimited d content)]
  exact .group balanced .nil

theorem plain {c : Code} (each : ∀ t ∈ c, t.isPlain) : Balanced c := by
  induction c with
  | nil => exact .nil
  | cons t rest ih =>
      obtain ⟨first, others⟩ := List.forall_mem_cons.mp each
      exact .token first (ih others)

theorem code {pieces : List Code} (each : pieces.Forall Balanced) : Balanced (code pieces) := by
  induction pieces with
  | nil => exact .nil
  | cons p rest ih =>
      obtain ⟨first, others⟩ := (List.forall_cons _ _ _).mp each
      exact first.append (ih others)

theorem pathOf (words : List String) : Balanced (pathOf words) := by
  match words with
  | [] => exact .nil
  | [w] => exact .token rfl .nil
  | w :: next :: rest => exact .token rfl (.token rfl (.token rfl (pathOf (next :: rest))))

theorem absolutePath (words : List String) : Balanced (absolutePath words) :=
  .token rfl (.token rfl (pathOf words))

theorem commaSeparated {entries : List Code} (each : ∀ c ∈ entries, Balanced c) :
    Balanced (commaSeparated entries) := by
  match entries with
  | [] => exact .nil
  | [c] => exact each c List.mem_cons_self
  | c :: next :: rest =>
      obtain ⟨first, others⟩ := List.forall_mem_cons.mp each
      exact (first.append (.token rfl .nil)).append (commaSeparated others)

end Balanced

/-- Splits code in front of the first token that the reader stops at, given how deep it is. -/
def splitWhere (stop : Nat → Token → Bool) : Nat → Code → Code × Code
  | _, [] => ([], [])
  | depth, t :: rest =>
    if stop depth t then ([], t :: rest)
    else
      let (taken, left) := splitWhere stop (t.level depth) rest
      (t :: taken, left)

def Passes (stop : Nat → Token → Bool) (depth : Nat) (c : Code) : Prop :=
  ∀ rest, splitWhere stop depth (c ++ rest) =
    (c ++ (splitWhere stop depth rest).1, (splitWhere stop depth rest).2)

namespace Passes

variable {stop : Nat → Token → Bool} {depth : Nat}

theorem nil : Passes stop depth [] := fun _ => rfl

theorem append {first rest : Code} (one : Passes stop depth first) (two : Passes stop depth rest) :
    Passes stop depth (first ++ rest) := by
  intro after
  rw [List.append_assoc, one, two, List.append_assoc]

theorem cons {t : Token} {rest : Code} (plain : t.isPlain) (goes : stop depth t = false)
    (passes : Passes stop depth rest) : Passes stop depth (t :: rest) := by
  intro after
  rw [List.cons_append, splitWhere, goes, t.level_plain plain, passes]
  rfl

theorem group {d : Delimiter} {content : Code} (opens : stop depth (.opening d) = false)
    (inside : Passes stop (depth + 1) content) (closes : stop (depth + 1) (.closing d) = false) :
    Passes stop depth (delimited d content) := by
  intro rest
  rw [delimited, List.append_assoc, List.cons_append, splitWhere, opens]
  simp only [Bool.false_eq_true, if_false, Token.level]
  rw [inside, List.singleton_append, splitWhere, closes]
  simp [Token.level]

theorem code {pieces : List Code} (each : pieces.Forall (Passes stop depth)) :
    Passes stop depth (code pieces) := by
  induction pieces with
  | nil => exact .nil
  | cons p rest ih =>
      obtain ⟨first, others⟩ := (List.forall_cons _ _ _).mp each
      exact first.append (ih others)

end Passes

theorem Balanced.passes {stop : Nat → Token → Bool} {c : Code} (balanced : Balanced c) {depth : Nat}
    (calm : ∀ d t, depth ≤ d → stop d t → d = depth ∧ ∃ k, t = .closing k) :
    Passes stop depth c := by
  induction balanced generalizing depth with
  | nil => exact .nil
  | @token t rest plain _ ih =>
      refine .cons plain (Bool.eq_false_iff.mpr fun stops => ?_) (ih calm)
      obtain ⟨_, k, rfl⟩ := calm depth t (Nat.le_refl depth) stops
      cases plain
  | @group d content rest _ _ inside after =>
      -- inside the group the reader is deeper than where it may stop
      have deeper : ∀ k t, depth + 1 ≤ k → stop k t = false := by
        intro k t deep
        refine Bool.eq_false_iff.mpr fun stops => ?_
        have here := (calm k t (Nat.le_of_succ_le deep) stops).1
        omega
      refine Passes.append (.group ?_ (inside ?_) (deeper _ _ (Nat.le_refl _))) (after calm)
      · refine Bool.eq_false_iff.mpr fun stops => ?_
        obtain ⟨_, k, same⟩ := calm depth _ (Nat.le_refl depth) stops
        cases same
      · exact fun k t deep stops => by simp [deeper k t deep] at stops

end Statewright
