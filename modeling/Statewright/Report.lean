import Statewright.Rule
import Statewright.Token.Tree

/-!
# Reports

The findings on one machine in the order they were made, each with its place. In code an error
stops the compiler, a warning is the use of a deprecated marker, and the rest leaves no trace.
-/

namespace Statewright

structure Diagnostic where
  rule : Rule
  severity : Severity
  message : String
  pos : Position

namespace Diagnostic

def ofOutcome (pos : Position) (o : Outcome) : Diagnostic := ⟨o.rule, o.severity, o.message, pos⟩

def text (d : Diagnostic) : String := d.rule.id ++ ": " ++ d.message

def isError (d : Diagnostic) : Bool := d.severity = .error

def stop (message : String) : Code :=
  code [absolutePath ["core", "compile_error"], symbol '!', braces [textLiteral message]]

def warn (marker message : String) : Code :=
  let note := code [word "note", symbol '=', [textLiteral message]]
  let body := code
    [symbol '#', brackets (code [word "deprecated", parens note]),
     symbol '#', brackets (code [word "allow",
       parens (commaSeparated [word "non_camel_case_types", word "dead_code"])]),
     word "struct", word marker, symbol ';',
     word "let", word "_", symbol '=', word marker, symbol ';']
  code [word "const", word "_", symbol ':', parens [], symbol '=', braces body, symbol ';']

def code (d : Diagnostic) : Code :=
  match d.severity with
  | .error => stop d.text
  | .warning => warn d.rule.id d.text
  | .info => []

end Diagnostic

abbrev Report := List Diagnostic

namespace Report

def hasErrors (r : Report) : Bool := r.any Diagnostic.isError

def count (r : Report) (rule : Rule) : Nat := (r.filter fun d => d.rule = rule).length

def code (r : Report) : Code := r.flatMap Diagnostic.code

end Report

end Statewright
