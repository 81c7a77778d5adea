import Mathlib.Data.Nat.Digits.Defs
import Statewright.Grammar.Expr

/-!
# Integers in expressions

What an integer denotes is given by its digits in one of four radices. Reading it yields just that,
through signs, parentheses and groups, as long as its magnitude fits; no sign on the way leads
beyond the range.
-/

namespace Statewright.Grammar

open Token

/-- Digits of a base with their values, in small or capital letters and with separators anywhere. -/
inductive Digits (base : Nat) : List Char → List Nat → Prop
  | nil : Digits base [] []
  | separator {chars : List Char} {values : List Nat} :
      Digits base chars values → Digits base ('_' :: chars) values
  | digit {c : Char} {v : Nat} {chars : List Char} {values : List Nat} :
      v < base → c = v.digitChar ∨ c = v.digitChar.toUpper → Digits base chars values →
        Digits base (c :: chars) (v :: values)

theorem digitChar_read : ∀ v < 16,
    (v.digitChar ≠ '_' ∧ digitValue? v.digitChar = some v ∧ (v < 10 → v.digitChar.isDigit)) ∧
      v.digitChar.toUpper ≠ '_' ∧ digitValue? v.digitChar.toUpper = some v ∧
        (v < 10 → v.digitChar.toUpper.isDigit) := by
  decide

theorem written_digit {c : Char} {v : Nat} (small : v < 16)
    (written : c = v.digitChar ∨ c = v.digitChar.toUpper) :
    c ≠ '_' ∧ digitValue? c = some v ∧ (v < 10 → c.isDigit) := by
  obtain ⟨plain, capital⟩ := digitChar_read v small
  rcases written with rfl | rfl
  · exact plain
  · exact capital

theorem digitValue?_read {c : Char} {v : Nat} (read : digitValue? c = some v) :
    c = v.digitChar ∨ c = v.digitChar.toUpper := by
  have ascii : c.toNat ≤ 'f'.toNat := by
    unfold digitValue? at read
    split at read
    · rename_i digit
      exact (Char.isDigit_iff_toNat.mp digit).2.trans (by decide)
    · split at read
      · rename_i small
        exact UInt32.le_iff_toNat_le.mp small.2
      · split at read
        · rename_i capital
          exact (UInt32.le_iff_toNat_le.mp capital.2).trans (by decide)
        · cases read
  have each : ∀ n ≤ 'f'.toNat, ∀ v ∈ digitValue? (Char.ofNat n),
      Char.ofNat n = v.digitChar ∨ Char.ofNat n = v.digitChar.toUpper := by
    decide
  have at_code := each c.toNat ascii v
  rw [Char.ofNat_toNat] at at_code
  exact at_code read

theorem digitsValue_digit {base v : Nat} {c : Char} (bounded : base ≤ 16) (small : v < base)
    (written : c = v.digitChar ∨ c = v.digitChar.toUpper) (value : Option Nat)
    (rest : List Char) :
    digitsValue base value (c :: rest) =
      digitsValue base (some (value.getD 0 * base + v)) rest := by
  obtain ⟨plain, read, _⟩ := written_digit (by omega) written
  rw [digitsValue, read]
  · simp [small]
  · exact plain

theorem digitsValue_digits {base : Nat} {chars : List Char} {values : List Nat}
    (bounded : base ≤ 16) (digits : Digits base chars values) (value : Option Nat) (suffix : List Char) :
    digitsValue base value (chars ++ suffix) =
      digitsValue base (values.foldl (fun value v => some (value.getD 0 * base + v)) value)
        suffix := by
  induction digits generalizing value with
  | nil => rfl
  | separator _ ih => exact ih value
  | digit small written _ ih =>
      rw [List.cons_append, digitsValue_digit bounded small written]
      exact ih _

theorem foldl_ofDigits (base : Nat) {values : List Nat} (nonempty : values ≠ []) :
    values.foldl (fun value v => some (value.getD 0 * base + v)) none =
      some (Nat.ofDigits base values.reverse) := by
  have running (n : Nat) (values : List Nat) :
      values.foldl (fun value v => some (value.getD 0 * base + v)) (some n) =
        some (values.foldl (fun n v => v + base * n) n) := by
    induction values generalizing n with
    | nil => rfl
    | cons v values ih =>
        rw [List.foldl_cons, List.foldl_cons, ih]
        simp [Nat.add_comm, Nat.mul_comm]
  cases values with
  | nil => exact absurd rfl nonempty
  | cons v values =>
      rw [List.foldl_cons, running, Nat.ofDigits_eq_foldr, List.foldr_reverse, List.foldl_cons]
      simp

/-! ## Numerals -/

inductive Radix
  | binary
  | octal
  | decimal
  | hexadecimal
  deriving DecidableEq

namespace Radix

def base : Radix → Nat
  | binary => 2
  | octal => 8
  | decimal => 10
  | hexadecimal => 16

def sign : Radix → List Char
  | binary => ['0', 'b']
  | octal => ['0', 'o']
  | decimal => []
  | hexadecimal => ['0', 'x']

/-- What may stand behind digits: nothing that goes on with them, nor a point or an exponent behind
decimal ones. -/
def Closes (r : Radix) : List Char → Prop
  | [] => True
  | c :: _ =>
    c ≠ '_' ∧ c ≠ '.' ∧ c.isDigit = false ∧
      (∀ v < r.base, c ≠ v.digitChar ∧ c ≠ v.digitChar.toUpper) ∧
        (r = decimal → c ≠ 'e' ∧ c ≠ 'E')

instance (r : Radix) : (suffix : List Char) → Decidable (r.Closes suffix)
  | [] => inferInstanceAs (Decidable True)
  | _ :: _ => inferInstanceAs (Decidable (_ ∧ _))

theorem eq_decimal {r : Radix} (ten : r.base = 10) : r = decimal := by
  cases r with
  | decimal => rfl
  | binary | octal | hexadecimal => cases ten

end Radix

/-- An integer of the language: digits behind the sign of their radix, and maybe a suffix behind
them. Decimal ones stand without a sign, with a digit first. -/
inductive Numeral (text : String) : Nat → Prop
  | intro {r : Radix} {digits suffix : List Char} {values : List Nat} :
      text.toList = r.sign ++ digits ++ suffix → Digits r.base digits values → values ≠ [] →
        r.Closes suffix →
          (r = .decimal → digits.head? ≠ some '_' ∧
            ∀ other : Radix, other ≠ .decimal → ¬other.sign <+: text.toList) →
              Numeral text (Nat.ofDigits r.base values.reverse)

theorem digitsValue_suffix {r : Radix} {suffix : List Char} (closes : r.Closes suffix) (n : Nat) :
    digitsValue r.base (some n) suffix = some (n, suffix) := by
  cases suffix with
  | nil => rfl
  | cons c rest =>
      obtain ⟨separate, pointless, letter, ends, whole⟩ := closes
      rw [digitsValue]
      · cases read : digitValue? c with
        | none => simp [pointless]
        | some v =>
            have beyond : ¬v < r.base := fun small =>
              (digitValue?_read read).elim (ends v small).1 (ends v small).2
            have unscaled : (r.base == 10 && (c == 'e' || c == 'E')) = false := by
              cases ten : r.base == 10 with
              | false => rfl
              | true => simp [whole (Radix.eq_decimal (by simpa using ten))]
            simp [beyond, letter, unscaled]
      · exact separate

theorem radix_decimal {chars : List Char}
    (unsigned : ∀ other : Radix, other ≠ .decimal → ¬other.sign <+: chars) :
    radix chars = (10, 0) := by
  unfold radix
  split
  · exact absurd ⟨_, rfl⟩ (unsigned .hexadecimal nofun)
  · exact absurd ⟨_, rfl⟩ (unsigned .octal nofun)
  · exact absurd ⟨_, rfl⟩ (unsigned .binary nofun)
  · rfl

theorem Digits.first_digit {digits : List Char} {values : List Nat}
    (spelled : Digits 10 digits values) (nonempty : values ≠ [])
    (first : digits.head? ≠ some '_') : ∃ c rest, digits = c :: rest ∧ c.isDigit := by
  cases spelled with
  | nil => exact absurd rfl nonempty
  | separator _ => exact absurd rfl first
  | @digit c v rest _ small written _ =>
      exact ⟨c, rest, rfl, (written_digit (by omega) written).2.2 small⟩

theorem Numeral.read {text : String} {n : Nat} (numeral : Numeral text n) :
    ∃ c rest suffix, text.toList = c :: rest ∧ c.isDigit ∧
      digitsValue (radix text.toList).1 none (text.toList.drop (radix text.toList).2) =
        some (n, suffix) := by
  obtain ⟨written, spelled, nonempty, closes, plain⟩ := numeral
  rename_i r digits suffix values
  obtain ⟨c, rest, starts, digit, signed⟩ : ∃ c rest, text.toList = c :: rest ∧ c.isDigit ∧
      radix text.toList = (r.base, r.sign.length) := by
    cases r with
    | decimal =>
        obtain ⟨first, unsigned⟩ := plain rfl
        obtain ⟨c, rest, rfl, digit⟩ := spelled.first_digit nonempty first
        exact ⟨c, rest ++ suffix, written, digit, radix_decimal unsigned⟩
    | binary | octal | hexadecimal =>
        rw [written]
        exact ⟨'0', _, rfl, rfl, rfl⟩
  have bounded : r.base ≤ 16 := by cases r <;> decide
  refine ⟨c, rest, suffix, starts, digit, ?_⟩
  rw [signed, written, List.append_assoc, List.drop_left, digitsValue_digits bounded spelled,
    foldl_ofDigits r.base nonempty, digitsValue_suffix closes]

theorem integer?_numeral {text : String} {n : Nat} (numeral : Numeral text n) :
    ∃ suffix, integer? text = some ((n : Int), suffix) ∧
      integer? ("-" ++ text) = some (-(n : Int), suffix) := by
  obtain ⟨c, rest, suffix, starts, digit, read⟩ := numeral.read
  have unsigned : c ≠ '-' := by
    rintro rfl
    exact absurd digit (by decide)
  rw [starts] at read
  refine ⟨String.ofList suffix, ?_, ?_⟩
  · simp [integer?, starts, unsigned, digit, read]
  · simp [integer?, starts, digit, read]

theorem leastValue_eq : leastValue = -greatestValue - 1 := by decide

theorem greatestValue_pos : 0 < greatestValue := by decide

theorem integerValue?_numeral {text : String} {n : Nat} (numeral : Numeral text n) :
    integerValue? text = if (n : Int) ≤ greatestValue then some (n : Int) else none := by
  obtain ⟨suffix, read, _⟩ := integer?_numeral numeral
  have := leastValue_eq
  have := greatestValue_pos
  rw [integerValue?, read, Option.bind_some]
  refine if_congr ?_ rfl rfl
  omega

theorem integerValue?_signed {text : String} {n : Nat} (numeral : Numeral text n)
    (fits : (n : Int) ≤ greatestValue) : integerValue? ("-" ++ text) = some (-(n : Int)) := by
  obtain ⟨suffix, _, read⟩ := integer?_numeral numeral
  have := leastValue_eq
  have := greatestValue_pos
  rw [integerValue?, read, Option.bind_some]
  exact if_pos (by omega)

/-! ## Expressions -/

namespace Expr

/-- The integer that an expression writes out: a numeral in any nesting of signs, parentheses and
groups. The token of a numeral may have a sign of its own, and then its magnitude fits. -/
inductive Denotes : Expr → Int → Prop
  | numeral {text : String} {n : Nat} : Numeral text n → Denotes (literal (.int text)) n
  | signed {text : String} {n : Nat} :
      Numeral text n → (n : Int) ≤ greatestValue → Denotes (literal (.int ("-" ++ text))) (-n)
  | negated {operand : Expr} {v : Int} : Denotes operand v → Denotes (negated operand) (-v)
  | paren {inner : Expr} {v : Int} : Denotes inner v → Denotes (paren inner) v
  | group {inner : Expr} {v : Int} : Denotes inner v → Denotes (group inner) v
  | attributed {attributes : Code} {inner : Expr} {v : Int} :
      Denotes inner v → Denotes (attributed attributes inner) v

def isInteger : Expr → Bool
  | literal (.int _) => true
  | negated inner | paren inner | group inner | attributed _ inner => inner.isInteger
  | _ => false

/-- In reading the expression a sign meets the least value, which has no opposite. -/
inductive Overflows : Expr → Prop
  | here {operand : Expr} : operand.integer? = some leastValue → Overflows (negated operand)
  | negated {operand : Expr} : Overflows operand → Overflows (negated operand)
  | paren {inner : Expr} : Overflows inner → Overflows (paren inner)
  | group {inner : Expr} : Overflows inner → Overflows (group inner)
  | attributed {attributes : Code} {inner : Expr} :
      Overflows inner → Overflows (attributed attributes inner)

theorem integer?_computed {e : Expr} (computed : e.isInteger = false) : e.integer? = none := by
  induction e using integer?.induct <;> simp_all [isInteger, integer?]

namespace Denotes

variable {e : Expr} {v : Int}

theorem isInteger (denotes : e.Denotes v) : e.isInteger := by
  induction denotes with
  | numeral | signed => rfl
  | negated _ ih | paren _ ih | group _ ih | attributed _ ih => exact ih

theorem integer? (denotes : e.Denotes v) :
    e.integer? = if (v.natAbs : Int) ≤ greatestValue then some v else none := by
  induction denotes with
  | numeral numeral => simpa [Expr.integer?] using integerValue?_numeral numeral
  | signed numeral fits => simpa [Expr.integer?, fits] using integerValue?_signed numeral fits
  | negated _ ih => rw [Expr.integer?, ih, Int.natAbs_neg]; split <;> rfl
  | paren _ ih | group _ ih | attributed _ ih => exact ih

theorem integer?_eq_some_iff {w : Int} (denotes : e.Denotes v) :
    e.integer? = some w ↔ v = w ∧ (v.natAbs : Int) ≤ greatestValue := by
  rw [denotes.integer?, Option.ite_none_right_eq_some, Option.some_inj, and_comm]

theorem bare (denotes : e.Denotes v) : e.bare.Denotes v := by
  induction denotes with
  | numeral numeral => exact .numeral numeral
  | signed numeral fits => exact .signed numeral fits
  | negated inner => exact .negated inner
  | paren inner => exact .paren inner
  | group inner => exact .group inner
  | attributed _ ih => exact ih

theorem not_overflows (denotes : e.Denotes v) : ¬e.Overflows := by
  induction denotes with
  | numeral | signed => intro overflow; cases overflow
  | @negated operand v operand_denotes ih =>
      intro overflow
      cases overflow with
      | here least =>
          obtain ⟨rfl, fits⟩ := operand_denotes.integer?_eq_some_iff.mp least
          -- the least value is one further from zero than the greatest, so it does not fit
          have := leastValue_eq
          have := greatestValue_pos
          omega
      | negated overflow => exact ih overflow
  | paren _ ih | group _ ih | attributed _ ih =>
      intro overflow
      cases overflow
      exact ih ‹_›

end Denotes

theorem not_overflows_computed {e : Expr} (computed : e.isInteger = false) : ¬e.Overflows := by
  intro overflow
  induction overflow with
  | here least => exact Option.some_ne_none _ (least.symm.trans (integer?_computed computed))
  | negated _ ih | paren _ ih | group _ ih | attributed _ ih => exact ih computed

end Expr

end Statewright.Grammar
