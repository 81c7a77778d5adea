/-!
# Problems with arguments

What can be wrong with the arguments of a declaration, by cause, and the wording of each cause.
-/

namespace Statewright.Declaration

inductive Problem
  | unreadable
  | noArgumentList
  | unknownField (name : String) (closest : Option String)
  | duplicateField (name : String)
  | missingField (name : String)
  | wrongForm (form : String)
  | wrongType (kind : String)
  | unknownValue (value : String)
  | noMethodName
  deriving DecidableEq, Repr

def Problem.message : Problem → String
  | unreadable => "syntax"
  | noArgumentList => "expected a parenthesized argument list"
  | unknownField name none => "Unknown field: `" ++ name ++ "`"
  | unknownField name (some other) =>
    "Unknown field: `" ++ name ++ "`. Did you mean `" ++ other ++ "`?"
  | duplicateField name => "Duplicate field `" ++ name ++ "`"
  | missingField name => "Missing field `" ++ name ++ "`"
  | wrongForm form => "Unexpected meta-item format `" ++ form ++ "`"
  | wrongType kind => "Unexpected type `" ++ kind ++ "`"
  | unknownValue value => "Unknown literal value `" ++ value ++ "`"
  | noMethodName => "expected a method name"

structure ArgumentError where
  problem : Problem
  field : Option String := none
  deriving DecidableEq, Repr

namespace ArgumentError

def message (e : ArgumentError) : String := e.problem.message

def text (e : ArgumentError) : String :=
  match e.field with
  | some field => e.message ++ " at " ++ field
  | none => e.message

end ArgumentError

end Statewright.Declaration
