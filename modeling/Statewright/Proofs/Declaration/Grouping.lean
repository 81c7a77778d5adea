import Mathlib
import Statewright.Declaration

/-!
# Hidden groups around the values of arguments

A value in hidden groups, as a macro leaves it behind, is read as the value itself: references,
types, payload types, names of methods and truth values are looked at behind the groups. The two
names from a closed list are not, the variant of a machine and the history of a state: in a group
they are refused, whatever they are. A literal that ends an attribute is not among the values in
groups, as the parser takes it out of them.
-/

namespace Statewright

open Grammar Declaration

def Grammar.Expr.inGroups : Nat → Expr → Expr
  | 0, e => e
  | n + 1, e => .group (e.inGroups n)

/-- The attribute has a list of arguments, and it can be parsed into these. -/
def Grammar.Attribute.Lists (a : Attribute) (entries : List Entry) : Prop :=
  ∃ content, a.input = .list content ∧ parseEntries content = some entries

namespace Declaration

variable {σ α : Type} {slots : List (Slot σ)} {start : σ} {entries front back : List Entry}
  {name : String} {e : Expr} {pos : Position} {n : Nat}

def Slot.SeesThrough (slot : Slot σ) : Prop :=
  ∀ e pos s, slot.set (.value (.group e) pos) s = slot.set (.value e pos) s

def Slot.RefusesGroups (slot : Slot σ) : Prop :=
  ∀ e pos s, slot.set (.value (.group e) pos) s = .error (.wrongType "group")

theorem Slot.SeesThrough.inGroups {slot : Slot σ} (sees : slot.SeesThrough) (s : σ) :
    slot.set (.value (e.inGroups n) pos) s = slot.set (.value e pos) s := by
  induction n with
  | zero => rfl
  | succ n ih => exact (sees _ _ _).trans ih

theorem Slot.ofReader_seesThrough {read : Reader α} {put : σ → α → σ} {required : Bool}
    (sees : ∀ e pos, read ⟨.group e, pos⟩ = read ⟨e, pos⟩) :
    (Slot.ofReader name read put required).SeesThrough :=
  fun e pos s => congrArg (·.map (put s)) (sees e pos)

theorem Slot.ofTruth_seesThrough {put : σ → Bool → σ} : (Slot.ofTruth name put).SeesThrough :=
  fun _ _ _ => rfl

theorem Slot.choice_refusesGroups {ofText? : String → Option α} {put : σ → α → σ} :
    (Slot.ofReader name (choice ofText?) put).RefusesGroups :=
  fun _ _ _ => rfl

/-- All slots see through groups, but for the one of a name from a closed list, if there is one. -/
structure SeeThrough (choice? : Option String) (slots : List (Slot σ)) : Prop where
  each : ∀ slot ∈ slots,
    (choice? ≠ some slot.name ∧ slot.SeesThrough) ∨ (choice? = some slot.name ∧ slot.RefusesGroups)
  listed : ∀ name ∈ choice?, ∃ slot ∈ slots, slot.name = name

theorem SeeThrough.sees {choice? : Option String} (through : SeeThrough choice? slots)
    {slot : Slot σ} (member : slot ∈ slots) (other : choice? ≠ some slot.name) :
    slot.SeesThrough :=
  (through.each slot member).elim And.right fun own => absurd own.1 other

theorem SeeThrough.refuses {choice? : Option String} (through : SeeThrough choice? slots)
    {slot : Slot σ} (member : slot ∈ slots) (own : choice? = some slot.name) :
    slot.RefusesGroups :=
  (through.each slot member).elim (fun other => absurd own other.1) And.right

/-- The argument is the first one of its name, and its value is a name from a closed list. -/
def Chosen (choice? : Option String) (front : List Entry) (name : String) : Prop :=
  choice? = some name ∧ ∀ input, Entry.named name input ∉ front

/-- How a result changes when a value is put into groups: not at all, or, if `refused`, to a failure
that names the argument. -/
def Regrouped (refused : Prop) (name : String) (plain wrapped : Except (List ArgumentError) α) :
    Prop :=
  (¬refused → wrapped = plain) ∧
    (refused → ∃ errors, wrapped = .error errors ∧ ⟨.wrongType "group", some name⟩ ∈ errors)

theorem Regrouped.bind {refused : Prop} {β : Type} {plain wrapped : Except (List ArgumentError) α}
    (regrouped : Regrouped refused name plain wrapped)
    (f : α → Except (List ArgumentError) β) :
    Regrouped refused name (plain >>= f) (wrapped >>= f) := by
  refine ⟨fun taken => by rw [regrouped.1 taken], fun told => ?_⟩
  obtain ⟨errors, rfl, named⟩ := regrouped.2 told
  exact ⟨errors, rfl, named⟩

theorem Regrouped.map {refused : Prop} {β : Type} {plain wrapped : Except (List ArgumentError) α}
    (regrouped : Regrouped refused name plain wrapped) (f : α → β) :
    Regrouped refused name (f <$> plain) (f <$> wrapped) := by
  simpa only [map_eq_pure_bind] using regrouped.bind fun a => pure (f a)

theorem Progress.errors_subset_step (p : Progress σ) (entry : Entry) :
    p.errors ⊆ (p.step slots entry).errors := by
  cases entry with
  | literal => exact List.subset_append_left _ _
  | named other input =>
      simp only [Progress.step]
      split
      · exact List.subset_append_left _ _
      · split
        · exact List.subset_append_left _ _
        · split
          · exact List.Subset.refl _
          · exact List.subset_append_left _ _

theorem Progress.errors_subset_foldl (entries : List Entry) (p : Progress σ) :
    p.errors ⊆ (entries.foldl (Progress.step slots) p).errors := by
  induction entries generalizing p with
  | nil => exact List.Subset.refl _
  | cons entry rest ih => exact List.Subset.trans (p.errors_subset_step entry) (ih _)

theorem Progress.mem_met_step (listed : ∃ slot ∈ slots, slot.name = name) (p : Progress σ)
    (entry : Entry) :
    name ∈ (p.step slots entry).met ↔ name ∈ p.met ∨ ∃ input, entry = .named name input := by
  cases entry with
  | literal => simp [Progress.step]
  | named other input =>
      simp only [Progress.step]
      split
      next absent =>
          have : other ≠ name := by
            rintro rfl
            obtain ⟨slot, member, named⟩ := listed
            exact absurd named (by simpa using List.find?_eq_none.mp absent slot member)
          simp [this]
      next slot _ =>
          split
          next met =>
              have : other = name → name ∈ p.met := by
                rintro rfl
                simpa using met
              simpa using this
          next => split <;> simp [eq_comm, or_comm]

theorem Progress.mem_met_foldl (listed : ∃ slot ∈ slots, slot.name = name)
    (entries : List Entry) (p : Progress σ) :
    name ∈ (entries.foldl (Progress.step slots) p).met ↔
      name ∈ p.met ∨ ∃ input, Entry.named name input ∈ entries := by
  induction entries generalizing p with
  | nil => simp
  | cons entry rest ih =>
      rw [List.foldl_cons, ih, mem_met_step listed, or_assoc]
      refine or_congr_right ?_
      simp only [List.mem_cons, exists_or, eq_comm]

theorem Progress.step_grouped {choice? : Option String} (through : SeeThrough choice? slots)
    (p : Progress σ) (same : choice? = some name → name ∈ p.met) :
    p.step slots (.named name (.value (e.inGroups n) pos)) =
      p.step slots (.named name (.value e pos)) := by
  simp only [Progress.step]
  split
  next => rfl
  next slot found =>
      have named : slot.name = name := by simpa using List.find?_some found
      split
      next => rfl
      next fresh =>
          have sees : slot.SeesThrough := by
            refine through.sees (List.mem_of_find?_eq_some found) fun chosen => fresh ?_
            simpa using same (named ▸ chosen)
          rw [sees.inGroups]

theorem Progress.step_refused {choice? : Option String} (through : SeeThrough choice? slots)
    (p : Progress σ) (chosen : choice? = some name) (fresh : name ∉ p.met) :
    ⟨.wrongType "group", some name⟩ ∈
      (p.step slots (.named name (.value (e.inGroups (n + 1)) pos))).errors := by
  simp only [Progress.step]
  split
  next absent =>
      obtain ⟨slot, member, named⟩ := through.listed name chosen
      exact absurd named (by simpa using List.find?_eq_none.mp absent slot member)
  next slot found =>
      have named : slot.name = name := by simpa using List.find?_some found
      have refuses := through.refuses (List.mem_of_find?_eq_some found) (named ▸ chosen)
      rw [if_neg (by simpa using fresh), Expr.inGroups, refuses]
      simp

theorem readEntries_grouped {choice? : Option String} (through : SeeThrough choice? slots) :
    Regrouped (Chosen choice? front name) name
      (readEntries slots start (front ++ .named name (.value e pos) :: back))
      (readEntries slots start
        (front ++ .named name (.value (e.inGroups (n + 1)) pos) :: back)) := by
  unfold readEntries
  rw [List.foldl_append, List.foldl_append, List.foldl_cons, List.foldl_cons]
  generalize reached : front.foldl (Progress.step slots) { values := start } = p
  have met (chosen : choice? = some name) : name ∈ p.met ↔ ∃ input, .named name input ∈ front := by
    rw [← reached, Progress.mem_met_foldl (through.listed name chosen)]
    simp
  constructor
  · intro unchosen
    rw [Progress.step_grouped through p]
    intro chosen
    rw [met chosen]
    by_contra first
    exact unchosen ⟨chosen, not_exists.mp first⟩
  · rintro ⟨chosen, first⟩
    have refused : ⟨.wrongType "group", some name⟩ ∈
        (p.step slots (.named name (.value (e.inGroups (n + 1)) pos))).errors :=
      Progress.step_refused through p chosen (by rw [met chosen]; exact not_exists.mpr first)
    have told : _ ∈ (back.foldl (Progress.step slots) _).errors :=
      Progress.errors_subset_foldl back _ refused
    refine ⟨_, if_neg fun empty => ?_, List.mem_append_left _ told⟩
    exact List.ne_nil_of_mem (List.mem_append_left _ told) (List.isEmpty_iff.mp empty)

theorem readAttribute_listed {a : Attribute} (lists : a.Lists entries) :
    readAttribute slots start a = readEntries slots start entries := by
  obtain ⟨_, list, parsed⟩ := lists
  simp only [readAttribute, list, parsed]

theorem readAttribute_grouped {choice? : Option String} {a b : Attribute}
    (through : SeeThrough choice? slots)
    (plain : a.Lists (front ++ .named name (.value e pos) :: back))
    (wrapped : b.Lists (front ++ .named name (.value (e.inGroups (n + 1)) pos) :: back)) :
    Regrouped (Chosen choice? front name) name (readAttribute slots start a)
      (readAttribute slots start b) := by
  rw [readAttribute_listed plain, readAttribute_listed wrapped]
  exact readEntries_grouped through

end Declaration

/-! ## The five declarations -/

def DeclarationKind.choice? : DeclarationKind → Option String
  | machine => some "variant"
  | state => some "history"
  | transition | internal | payload => none

theorem MachineArguments.slots_seeThrough : SeeThrough (some "variant") slots where
  each := by
    simp only [slots, List.forall_mem_cons]
    refine ⟨?_, ?_, ?_, .inr ⟨rfl, Slot.choice_refusesGroups⟩, ?_, ?_, ?_, ?_, nofun⟩
    · exact .inl ⟨by decide, Slot.ofReader_seesThrough fun _ _ => rfl⟩
    · exact .inl ⟨by decide, Slot.ofReader_seesThrough fun _ _ => rfl⟩
    · exact .inl ⟨by decide, Slot.ofReader_seesThrough fun _ _ => rfl⟩
    all_goals exact .inl ⟨by decide, Slot.ofTruth_seesThrough⟩
  listed := by simp [slots, Slot.ofReader]

theorem TransitionArguments.slots_seeThrough : SeeThrough none slots where
  each := by
    simp only [slots, List.forall_mem_cons]
    refine ⟨?_, ?_, ?_, ?_, ?_, nofun⟩ <;>
      exact .inl ⟨nofun, Slot.ofReader_seesThrough fun _ _ => rfl⟩
  listed := nofun

theorem InternalArguments.slots_seeThrough : SeeThrough none slots where
  each := by
    simp only [slots, List.forall_mem_cons]
    refine ⟨?_, ?_, ?_, ?_, nofun⟩ <;>
      exact .inl ⟨nofun, Slot.ofReader_seesThrough fun _ _ => rfl⟩
  listed := nofun

theorem StateArguments.slots_seeThrough : SeeThrough (some "history") slots where
  each := by
    simp only [slots, List.forall_mem_cons]
    refine ⟨?_, ?_, ?_, ?_, .inl ⟨by decide, Slot.ofTruth_seesThrough⟩,
      .inr ⟨rfl, Slot.choice_refusesGroups⟩, nofun⟩ <;>
      exact .inl ⟨by decide, Slot.ofReader_seesThrough fun _ _ => rfl⟩
  listed := by simp [slots, Slot.ofReader]

theorem PayloadArguments.slots_seeThrough : SeeThrough none slots where
  each := by
    simp only [slots, List.forall_mem_cons]
    refine ⟨?_, ?_, nofun⟩ <;> exact .inl ⟨nofun, Slot.ofReader_seesThrough fun _ _ => rfl⟩
  listed := nofun

/-- A declaration is read alike with and without hidden groups around a value: the same arguments or
the same errors. The exception is the first `variant` of a machine and the first `history` of a
state, for which a group is an error. -/
theorem MachineDeclaration.read_grouped {kind : DeclarationKind} {a b : Attribute}
    {front back : List Entry} {name : String} {e : Expr} {pos : Position} {n : Nat}
    (plain : a.Lists (front ++ .named name (.value e pos) :: back))
    (wrapped : b.Lists (front ++ .named name (.value (e.inGroups (n + 1)) pos) :: back)) :
    Regrouped (Chosen kind.choice? front name) name (MachineDeclaration.read kind a)
      (MachineDeclaration.read kind b) := by
  cases kind with
  | machine =>
      exact (readAttribute_grouped MachineArguments.slots_seeThrough plain wrapped).map _
  | transition =>
      have through := TransitionArguments.slots_seeThrough
      exact ((readAttribute_grouped through plain wrapped).bind _).map _
  | internal =>
      have through := InternalArguments.slots_seeThrough
      exact ((readAttribute_grouped through plain wrapped).bind _).map _
  | state =>
      have through := StateArguments.slots_seeThrough
      exact ((readAttribute_grouped through plain wrapped).bind _).map _
  | payload =>
      have through := PayloadArguments.slots_seeThrough
      exact ((readAttribute_grouped through plain wrapped).bind _).map _

def shelfPlace : Position := ⟨1, 0⟩

def Tree.inGroups : Nat → Tree → Tree
  | 0, t => t
  | n + 1, t => .hidden shelfPlace [t.inGroups n]

/-- `#[state(state = On, history = Deep)]`, with so many hidden groups around the two values. -/
def shelf (state history : Nat) : Attribute where
  pos := shelfPlace
  path := .word "state"
  input := .list
    [.ident "state" shelfPlace, .mark '=' false shelfPlace,
     (Tree.ident "On" shelfPlace).inGroups state, .mark ',' false shelfPlace,
     .ident "history" shelfPlace, .mark '=' false shelfPlace,
     (Tree.ident "Deep" shelfPlace).inGroups history]
  code := []

def shelfEntry (name value : String) (groups : Nat) : Entry :=
  .named name (.value ((Expr.path (.word value)).inGroups groups) shelfPlace)

theorem shelf_lists :
    (shelf 0 0).Lists [shelfEntry "state" "On" 0, shelfEntry "history" "Deep" 0] :=
  ⟨_, rfl, by cbv⟩

theorem shelf_lists_grouped_state :
    (shelf 1 0).Lists [shelfEntry "state" "On" 1, shelfEntry "history" "Deep" 0] :=
  ⟨_, rfl, by cbv⟩

theorem shelf_lists_grouped_history :
    (shelf 0 1).Lists [shelfEntry "state" "On" 0, shelfEntry "history" "Deep" 1] :=
  ⟨_, rfl, by cbv⟩

theorem shelf_regrouped :
    MachineDeclaration.read .state (shelf 1 0) = MachineDeclaration.read .state (shelf 0 0) ∧
      ∃ errors, MachineDeclaration.read .state (shelf 0 1) = .error errors ∧
        ⟨.wrongType "group", some "history"⟩ ∈ errors := by
  constructor
  · exact (@MachineDeclaration.read_grouped .state _ _ [] _ _ _ _ _ shelf_lists
      shelf_lists_grouped_state).1 fun chosen => absurd chosen.1 (by decide)
  · exact (@MachineDeclaration.read_grouped .state _ _ [shelfEntry "state" "On" 0] [] _ _ _ _
      shelf_lists shelf_lists_grouped_history).2 ⟨rfl, by simp [shelfEntry]⟩

theorem shelf_history_refused :
    MachineDeclaration.read .state (shelf 0 0) =
        .ok (.state { state := ⟨.path (.word "On"), shelfPlace⟩, history := .deep }) ∧
      MachineDeclaration.read .state (shelf 0 1) =
        .error [⟨.wrongType "group", some "history"⟩] ∧
      ¬∀ (kind : DeclarationKind) (a b : Attribute) (front back : List Entry) (name : String)
          (e : Expr) (pos : Position) (n : Nat),
        a.Lists (front ++ .named name (.value e pos) :: back) →
          b.Lists (front ++ .named name (.value (e.inGroups (n + 1)) pos) :: back) →
            MachineDeclaration.read kind b = MachineDeclaration.read kind a := by
  have accepted : MachineDeclaration.read .state (shelf 0 0) =
      .ok (.state { state := ⟨.path (.word "On"), shelfPlace⟩, history := .deep }) := by
    rw [MachineDeclaration.read, StateArguments.read, readAttribute_listed shelf_lists]
    rfl
  have refused : MachineDeclaration.read .state (shelf 0 1) =
      .error [⟨.wrongType "group", some "history"⟩] := by
    rw [MachineDeclaration.read, StateArguments.read,
      readAttribute_listed shelf_lists_grouped_history]
    rfl
  refine ⟨accepted, refused, fun claimed => ?_⟩
  have same := claimed .state _ _ [shelfEntry "state" "On" 0] [] "history" _ _ 0 shelf_lists
    shelf_lists_grouped_history
  rw [accepted, refused] at same
  cases same

end Statewright
