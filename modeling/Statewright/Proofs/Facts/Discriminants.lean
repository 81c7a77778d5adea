import Statewright.Facts
import Statewright.Proofs.Grammar.Integer

/-!
# Discriminants

The value read for a member of an enum is its discriminant or nothing: a computed discriminant
leaves the members behind it without values, up to the next one that is written out. So an integer
reference finds the member that it denotes.
-/

namespace Statewright

open Grammar Declaration

def Grammar.Expr.Fits (e : Expr) : Prop :=
  ∃ v : Int, e.Denotes v ∧ (v.natAbs : Int) ≤ greatestValue

namespace EnumFacts

/-- The discriminants of members, from the one of a first member that states none: what a member
states, and one more than the last otherwise. A computed expression may have any value. -/
inductive Assigned : Int → List Member → List Int → Prop
  | nil {next : Int} : Assigned next [] []
  | follows {next : Int} {m : Member} {rest : List Member} {ds : List Int} :
      m.discriminant = none → Assigned (next + 1) rest ds → Assigned next (m :: rest) (next :: ds)
  | stated {next v : Int} {m : Member} {e : Expr} {rest : List Member} {ds : List Int} :
      m.discriminant = some e → (e.isInteger → e.Denotes v) → Assigned (v + 1) rest ds →
        Assigned next (m :: rest) (v :: ds)

def lastStated? (members : List Member) (i : Nat) : Option Expr :=
  ((members.take (i + 1)).filterMap Member.discriminant).getLast?

/-- A value never goes wrong about a discriminant, and it is there if `known`, unless the
discriminant is out of range. -/
structure Tracks (value : Option Int) (d : Int) (known : Prop) : Prop where
  sound : ∀ v, value = some v → v = d ∧ leastValue ≤ v ∧ v ≤ greatestValue
  complete : known → d ≤ greatestValue → value = some d

variable {next : Int} {members : List Member} {ds : List Int}

theorem Assigned.length (assigned : Assigned next members ds) : ds.length = members.length := by
  induction assigned with
  | nil => rfl
  | follows _ _ ih | stated _ _ _ ih => exact congrArg (· + 1) ih

theorem valued_names (seed : Option Int) (members : List Member) :
    (valued seed members).map EnumMember.name = members.map Member.name := by
  induction members generalizing seed with
  | nil => rfl
  | cons m rest ih => exact congrArg (m.name :: ·) (ih _)

theorem lastStated?_zero (m : Member) (rest : List Member) :
    lastStated? (m :: rest) 0 = m.discriminant := by
  cases stated : m.discriminant <;> simp [lastStated?, stated]

theorem lastStated?_succ (m : Member) (rest : List Member) (i : Nat) :
    lastStated? (m :: rest) (i + 1) = (lastStated? rest i).or m.discriminant := by
  cases stated : m.discriminant <;> simp [lastStated?, stated, List.getLast?_cons]

theorem Tracks.successor {value : Option Int} {d : Int} {known : Prop}
    (tracks : Tracks value d known) : Tracks (successor value) (d + 1) known := by
  constructor
  · intro v counted
    obtain ⟨n, read, counted⟩ := Option.bind_eq_some_iff.mp counted
    obtain ⟨rfl, least, _⟩ := tracks.sound n read
    split at counted
    · cases counted
      exact ⟨rfl, by omega, by omega⟩
    · cases counted
  · intro sure fits
    rw [EnumFacts.successor, tracks.complete sure (by omega), Option.bind_some]
    exact if_pos (by omega)

theorem tracks_stated {e : Expr} {v : Int} (value : e.isInteger → e.Denotes v) :
    Tracks e.integer? v e.Fits := by
  constructor
  · intro w read
    cases written : e.isInteger with
    | false => exact absurd read (by simp [Expr.integer?_computed written])
    | true =>
        obtain ⟨rfl, fits⟩ := (value written).integer?_eq_some_iff.mp read
        have := leastValue_eq
        exact ⟨rfl, by omega, by omega⟩
  · rintro ⟨w, denotes, fits⟩ -
    have read := denotes.integer?_eq_some_iff.mpr ⟨rfl, fits⟩
    rw [read, ((value denotes.isInteger).integer?_eq_some_iff.mp read).1]

theorem Assigned.tracks {seed : Option Int} {known : Prop} (assigned : Assigned next members ds)
    (start : Tracks seed next known) {i : Nat} {m : EnumMember} {d : Int}
    (entry : (valued seed members)[i]? = some m) (discriminant : ds[i]? = some d) :
    Tracks m.value d ((lastStated? members i).elim known Expr.Fits) := by
  induction assigned generalizing seed known i with
  | nil => cases discriminant
  | follows unstated _ ih =>
      rw [valued, unstated] at entry
      cases i with
      | zero =>
          cases entry
          cases discriminant
          rwa [lastStated?_zero, unstated]
      | succ i =>
          rw [lastStated?_succ, unstated, Option.or_none]
          exact ih start.successor entry discriminant
  | stated stated value _ ih =>
      rw [valued, stated] at entry
      cases i with
      | zero =>
          cases entry
          cases discriminant
          rw [lastStated?_zero, stated]
          exact tracks_stated value
      | succ i =>
          -- from here on only this discriminant counts, not what was known before it
          have rest := ih (tracks_stated value).successor entry discriminant
          rw [lastStated?_succ, stated]
          cases last : lastStated? _ i <;> rw [last] at rest <;> exact rest

theorem Assigned.not_overflows (assigned : Assigned next members ds) :
    ∀ m ∈ members, ∀ e, m.discriminant = some e → ¬e.Overflows := by
  induction assigned with
  | nil => exact nofun
  | follows unstated _ ih => exact List.forall_mem_cons.mpr ⟨by simp [unstated], ih⟩
  | @stated _ _ _ e _ _ stated value _ ih =>
      refine List.forall_mem_cons.mpr ⟨fun other same => ?_, ih⟩
      obtain rfl : e = other := Option.some.inj (stated.symm.trans same)
      cases written : e.isInteger with
      | false => exact Expr.not_overflows_computed written
      | true => exact (value written).not_overflows

/-! ## Integer references -/

section References

variable {e : Enum} {i : Nat} {m : EnumMember} {v : Int}

theorem tracks_start : Tracks (some 0) 0 True :=
  ⟨fun _ read => by cases read; decide, fun _ _ => rfl⟩

theorem value_eq_discriminant (assigned : Assigned 0 e.members ds)
    (entry : (ofItem e).members[i]? = some m) (known : m.value = some v) : ds[i]? = some v := by
  have lengths : (ofItem e).members.length = e.members.length := by
    simpa [ofItem] using congrArg List.length (valued_names (some 0) e.members)
  have inside : i < ds.length := by
    have := (List.getElem?_eq_some_iff.mp entry).1
    have := assigned.length
    omega
  have discriminant := List.getElem?_eq_getElem inside
  rw [discriminant, ((assigned.tracks tracks_start entry discriminant).sound v known).1]

theorem resolve?_integer {r : Reference} (denotes : r.expr.Denotes v)
    (fits : (v.natAbs : Int) ≤ greatestValue) (facts : EnumFacts) :
    facts.resolve? r = facts.members.find? fun m => m.value == some v := by
  have read : r.expr.bare.integer? = some v :=
    denotes.bare.integer?_eq_some_iff.mpr ⟨rfl, fits⟩
  unfold resolve?
  split
  · rename_i shape
    rw [shape] at read
    cases read
  · rename_i shape
    rw [shape] at read
    cases read
  · rw [read, Option.bind_some]

theorem found_by_value (assigned : Assigned 0 e.members ds)
    (found : (ofItem e).members.find? (fun m => m.value == some v) = some m) :
    ∃ i : Nat, (ofItem e).members[i]? = some m ∧ ds[i]? = some v := by
  obtain ⟨i, entry⟩ := List.getElem?_of_mem (List.mem_of_find?_eq_some found)
  have known : m.value = some v := by simpa using List.find?_some found
  exact ⟨i, entry, value_eq_discriminant assigned entry known⟩

theorem find_by_value (assigned : Assigned 0 e.members ds) (distinct : ds.Nodup)
    (entry : (ofItem e).members[i]? = some m) (discriminant : ds[i]? = some v)
    (known : m.value.isSome) :
    (ofItem e).members.find? (fun m => m.value == some v) = some m := by
  obtain ⟨w, known⟩ := Option.isSome_iff_exists.mp known
  obtain rfl : w = v := by
    have := value_eq_discriminant assigned entry known
    exact Option.some.inj (this.symm.trans discriminant)
  have some_found : ((ofItem e).members.find? fun m => m.value == some w).isSome :=
    List.find?_isSome.mpr ⟨m, List.mem_of_getElem? entry, by simp [known]⟩
  obtain ⟨other, found⟩ := Option.isSome_iff_exists.mp some_found
  obtain ⟨j, there, same⟩ := found_by_value assigned found
  -- the value found first is a discriminant as well, and no two members share one
  obtain rfl : i = j := by
    have inside := (List.getElem?_eq_some_iff.mp discriminant).1
    exact (List.getElem?_inj inside distinct).mp (discriminant.trans same.symm)
  exact found.trans (there.symm.trans entry)

end References

/-- The values of an enum and the references to them: a value that is read is the discriminant and
in range, it is read wherever the last stated discriminant is a written integer that fits, and a
written integer resolves to just the member whose discriminant it denotes. -/
theorem discriminants_exact (e : Enum) {ds : List Int} (assigned : Assigned 0 e.members ds) :
    ((ofItem e).members.map EnumMember.name = e.members.map Member.name ∧
      ds.length = e.members.length) ∧
    (∀ (i : Nat) m d, (ofItem e).members[i]? = some m → ds[i]? = some d →
      Tracks m.value d (∀ stated, lastStated? e.members i = some stated → stated.Fits)) ∧
    (∀ m ∈ e.members, ∀ stated, m.discriminant = some stated → ¬stated.Overflows) ∧
    ∀ (r : Reference) v, r.expr.Denotes v → (v.natAbs : Int) ≤ greatestValue →
      ¬r.expr.Overflows ∧
      (∀ m, (ofItem e).resolve? r = some m →
        ∃ i : Nat, (ofItem e).members[i]? = some m ∧ ds[i]? = some v) ∧
      (ds.Nodup → ∀ (i : Nat) m, (ofItem e).members[i]? = some m → ds[i]? = some v →
        m.value.isSome → (ofItem e).resolve? r = some m) := by
  refine ⟨⟨valued_names _ _, assigned.length⟩, ?_, assigned.not_overflows, ?_⟩
  · intro i m d entry discriminant
    have tracks := assigned.tracks tracks_start entry discriminant
    refine ⟨tracks.sound, fun fits => tracks.complete ?_⟩
    cases last : lastStated? e.members i with
    | none => trivial
    | some stated => exact fits stated last
  · intro r v denotes fits
    simp only [resolve?_integer denotes fits]
    exact ⟨denotes.not_overflows, fun m => found_by_value assigned,
      fun distinct i m => find_by_value assigned distinct⟩

/-- `Level { Low = 1 << 2, High, Lost = -0b1_1i8, Off }`. -/
def level : Enum where
  name := "Level"
  members := [⟨"Low", .none, some (.other .binary [])⟩, ⟨"High", .none, none⟩,
    ⟨"Lost", .none, some (.negated (.literal (.int "0b1_1i8")))⟩, ⟨"Off", .none, none⟩]
  code := []

theorem level_assigned : Assigned 0 level.members [4, 5, -3, -2] := by
  have three : Numeral "0b1_1i8" 3 :=
    .intro (r := .binary) rfl
      (.digit (v := 1) (by decide) (.inl rfl) (.separator
        (.digit (v := 1) (by decide) (.inl rfl) .nil))) (by decide) (by decide) nofun
  apply Assigned.stated rfl fun written => absurd written (by decide)
  apply Assigned.follows rfl
  apply Assigned.stated rfl fun _ => .negated (.numeral three)
  exact .follows rfl .nil

theorem level_off_found :
    (ofItem level).members[3]? = some ⟨"Off", .none, some (-2)⟩ ∧
      (ofItem level).resolve? ⟨.negated (.paren (.literal (.int "0x2"))), .none⟩ =
        some ⟨"Off", .none, some (-2)⟩ := by
  have two : Numeral "0x2" 2 :=
    .intro (r := .hexadecimal) rfl (.digit (v := 2) (by decide) (.inl rfl) .nil) (by decide)
      (by decide) nofun
  have off : (ofItem level).members[3]? = some ⟨"Off", .none, some (-2)⟩ := rfl
  obtain ⟨_, _, _, references⟩ := discriminants_exact level level_assigned
  obtain ⟨_, _, resolves⟩ :=
    references ⟨.negated (.paren (.literal (.int "0x2"))), .none⟩ (-2)
      (.negated (.paren (.numeral two))) (by decide)
  exact ⟨off, resolves (by decide) 3 _ off rfl rfl⟩

end EnumFacts

end Statewright
