import Statewright.Proofs.Callback.Signature

/-!
# Spellings of futures

A future of a type can be written as a bound, as an object behind a box, and by the name of an
alias. A method that returns any of them has the shape of the asynchronous method that returns the
type itself, in every role and with any parameters.
-/

namespace Statewright.Shape

open Grammar

def Ends (p : Path) (name : String) (arguments : List Argument) : Prop :=
  ∃ turbofish trailing, p.last? = some (.mk name (.angle turbofish arguments trailing))

def namesFuture : Bound → Bool
  | .trait _ _ p => p.last?.map Segment.ident == some "Future"
  | _ => false

/-- One of the bounds is a future with the output; the others, other traits and lifetimes, stand in
any order. -/
def Promises (output : Ty) (bounds : List Bound) : Prop :=
  ∃ before parenthesized modifiers p after,
    bounds = before ++ .trait parenthesized modifiers p :: after ∧
      Ends p "Future" [.binding "Output" .none output] ∧ ∀ b ∈ before, ¬namesFuture b

/-- The ways to write a future of a type. A box holds a way of its own; an alias may name lifetimes
first. -/
inductive FutureOf (output : Ty) : Ty → Prop
  | implBound {bounds : List Bound} {trailing : Bool} :
      Promises output bounds → FutureOf output (.implBound bounds trailing)
  | object {keyword : Bool} {bounds : List Bound} {trailing : Bool} :
      Promises output bounds → FutureOf output (.object keyword bounds trailing)
  | held {p : Path} {name : String} {inner : Ty} :
      name = "Pin" ∨ name = "Box" → Ends p name [.type inner] → FutureOf output inner →
        FutureOf output (.path p)
  | shorthand {p : Path} {name : String} {lifetimes : List String} :
      name = "BoxFuture" ∨ name = "LocalBoxFuture" →
        Ends p name (lifetimes.map .lifetime ++ [.type output]) → FutureOf output (.path p)
  | paren {inner : Ty} : FutureOf output inner → FutureOf output (.paren inner)
  | group {inner : Ty} : FutureOf output inner → FutureOf output (.group inner)

theorem boundOutput?_cons {b : Bound} (other : ¬namesFuture b) (rest : List Bound) :
    boundOutput? (b :: rest) = boundOutput? rest := by
  cases b with
  | trait parenthesized modifiers p =>
      rw [boundOutput?]
      split
      · next found => simp [namesFuture, found, Segment.ident] at other
      · rfl
  | lifetime | capture | other => rfl

theorem boundOutput?_promised {output : Ty} {bounds : List Bound}
    (promised : Promises output bounds) : boundOutput? bounds = some (some output) := by
  obtain ⟨before, _, _, p, after, rfl, ⟨_, _, last⟩, others⟩ := promised
  induction before with
  | nil => simp [boundOutput?, last, boundOutput?.declaredOutput]
  | cons b before ih =>
      obtain ⟨other, others⟩ := List.forall_mem_cons.mp others
      rw [List.cons_append, boundOutput?_cons other, ih others]

theorem pathOutput?_eq (p : Path) : pathOutput? p = p.last?.bind segmentOutput? := by
  cases p with
  | mk absolute segments => rw [pathOutput?, lastOutput?_eq, Path.last?, Path.segments]

theorem futureOutput?_of {output t : Ty} (future : FutureOf output t) :
    futureOutput? t = some (some output) := by
  induction future with
  | implBound promised => exact boundOutput?_promised promised
  | object promised => exact boundOutput?_promised promised
  | held boxed ends _ ih =>
      obtain ⟨_, _, last⟩ := ends
      rcases boxed with rfl | rfl <;>
        simp [futureOutput?, pathOutput?_eq, last, segmentOutput?, heldOutput?, firstTypeOutput?,
          ih]
  | shorthand named ends =>
      obtain ⟨_, _, last⟩ := ends
      rcases named with rfl | rfl <;>
        simp [futureOutput?, pathOutput?_eq, last, segmentOutput?, Segment.typeArguments,
          Segment.arguments]
  | paren _ ih => exact ih
  | group _ ih => exact ih

theorem future_not_handle {output t : Ty} (future : FutureOf output t) :
    isNamed t "JoinHandle" = false := by
  induction future with
  | implBound | object | paren => rfl
  | held boxed ends =>
      obtain ⟨_, _, last⟩ := ends
      rcases boxed with rfl | rfl <;> simp [isNamed, Ty.lastSegment?, last, Segment.ident]
  | shorthand named ends =>
      obtain ⟨_, _, last⟩ := ends
      rcases named with rfl | rfl <;> simp [isNamed, Ty.lastSegment?, last, Segment.ident]
  | group _ ih => exact ih

theorem returned_future {output t : Ty} (future : FutureOf output t) (isGuard : Bool) :
    returned false (some t) isGuard = returned true (some output) isGuard := by
  simp [returned, future_not_handle future, futureOutput?_of future]

/-- Whatever a callback yields, it has one and the same shape however it is written that the call is
to be awaited: by the keyword, or by any future of the type. No type stands for the unit type. -/
theorem spellings_alike (receiver : Receiver) (parameters : List Ty) (role : Role) :
    (∀ output t, FutureOf output t → ofSignature receiver parameters (some t) false role =
      ofSignature receiver parameters (some output) true role) ∧
      ofSignature receiver parameters none true role =
        ofSignature receiver parameters (some .unit) true role := by
  constructor
  · intro output t future
    simp only [ofSignature, returned_future future]
  · rfl

section Pinned

def applied (front : List String) (name : String) (arguments : List Argument) : Path :=
  .mk false (front.map (.mk · .none) ++ [.mk name (.angle false arguments false)])

def verdict : Ty := .path (applied [] "Result" [.type (.named "bool"), .type (.named "String")])

/-- `std::pin::Pin<Box<dyn Send + std::future::Future<Output = Result<bool, String>> + '_>>` -/
def pinnedVerdict : Ty :=
  .path (applied ["std", "pin"] "Pin" [.type (.path (applied [] "Box" [.type (.object true
    [.trait false [] (.word "Send"),
     .trait false [] (applied ["std", "future"] "Future" [.binding "Output" .none verdict]),
     .lifetime "'_"] false)]))])

theorem pinned_verdict_alike :
    FutureOf verdict pinnedVerdict ∧
      ofSignature .shared [.reference none false (.named "Order")] (some pinnedVerdict) false
          .guard =
        ⟨.asyncBool, true, .shared, .required (.named "Order"), .none, 0⟩ := by
  have future : FutureOf verdict pinnedVerdict := by
    refine .held (.inl rfl) ⟨false, false, rfl⟩ (.held (.inr rfl) ⟨false, false, rfl⟩ ?_)
    refine .object ⟨[.trait false [] (.word "Send")], _, _, _, _, rfl, ⟨false, false, rfl⟩, ?_⟩
    simp [namesFuture, Path.word, Path.last?, Path.segments, Segment.ident]
  have alike := (spellings_alike .shared [.reference none false (.named "Order")] .guard).1
  exact ⟨future, alike verdict pinnedVerdict future⟩

end Pinned

end Statewright.Shape
