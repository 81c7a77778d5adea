import Statewright.Build
import Statewright.Callback
import Statewright.Callback.Shape
import Statewright.Callback.Use
import Statewright.Check.Declaration
import Statewright.Check.Nesting
import Statewright.Check.Reachability
import Statewright.Check.Signature
import Statewright.Declaration
import Statewright.Declaration.Arguments
import Statewright.Declaration.Problem
import Statewright.Declaration.Value
import Statewright.Emit
import Statewright.Emit.Basic
import Statewright.Emit.Call
import Statewright.Emit.Firing
import Statewright.Emit.Nesting
import Statewright.Emit.Questions
import Statewright.Emit.WithPayload
import Statewright.Execution
import Statewright.Execution.Basic
import Statewright.Execution.Transfer
import Statewright.Expansion
import Statewright.Extension
import Statewright.Facts
import Statewright.Finding
import Statewright.Grammar.Expr
import Statewright.Grammar.Generics
import Statewright.Grammar.Item
import Statewright.Grammar.Literal
import Statewright.Grammar.Parser
import Statewright.Grammar.Parser.Attribute
import Statewright.Grammar.Parser.Expr
import Statewright.Grammar.Parser.Function
import Statewright.Grammar.Parser.Generics
import Statewright.Grammar.Parser.Inner
import Statewright.Grammar.Parser.Item
import Statewright.Grammar.Parser.Path
import Statewright.Grammar.Parser.Pattern
import Statewright.Grammar.Parser.Statement
import Statewright.Grammar.Parser.Type
import Statewright.Grammar.Reading
import Statewright.Grammar.Type
import Statewright.Hierarchy
import Statewright.Model
import Statewright.Report
import Statewright.Rule
import Statewright.Simulation.Recorder
import Statewright.Simulation.Sample
import Statewright.Simulation.Sample.Basic
import Statewright.Simulation.Sample.Nested
import Statewright.Simulation.Sample.Observed
import Statewright.Simulation.Sample.Payload
import Statewright.Simulation.Sample.Plain
import Statewright.Simulation.Trial
import Statewright.Text.CodePoint
import Statewright.Text.Identifier
import Statewright.Text.Quoted
import Statewright.Text.Similarity
import Statewright.Token
import Statewright.Token.Lexer
import Statewright.Token.Number
import Statewright.Token.Tree
import Statewright.Variant
import Statewright.Proofs.Hierarchy.Ancestors
import Statewright.Proofs.Hierarchy.Resumption
import Statewright.Proofs.Hierarchy.Descent
import Statewright.Proofs.Hierarchy.Move
import Statewright.Proofs.Build.Acceptance
import Statewright.Proofs.Build.Tables
import Statewright.Proofs.Build.Growth
import Statewright.Proofs.Build.Nesting
import Statewright.Proofs.Build.References
import Statewright.Proofs.Build.Transitions
import Statewright.Proofs.Build.Duplicates
import Statewright.Proofs.Build.Payloads
import Statewright.Proofs.Build.Uses
import Statewright.Proofs.Build.Accounts
import Statewright.Proofs.Build.Modes
import Statewright.Proofs.Build.Parts
import Statewright.Proofs.Build.Scopes
import Statewright.Proofs.Callback.Signature
import Statewright.Proofs.Execution.Trace
import Statewright.Proofs.Execution.Course
import Statewright.Proofs.Execution.Closure
import Statewright.Proofs.Execution.Transfer
import Statewright.Proofs.Execution.Candidates
import Statewright.Proofs.Execution.Settled
import Statewright.Proofs.Execution.Dispatch
import Statewright.Proofs.Execution.Firing
import Statewright.Proofs.Execution.Session
import Statewright.Proofs.Execution.Selection
import Statewright.Proofs.Execution.Paths
import Statewright.Proofs.Execution.Resuming
import Statewright.Proofs.Execution.Narration
import Statewright.Proofs.Execution.Flat
import Statewright.Proofs.Execution.Failure
import Statewright.Proofs.Execution.Foresight
import Statewright.Proofs.Emit.Tables
import Statewright.Proofs.Emit.Calls
import Statewright.Proofs.Emit.Balance
import Statewright.Proofs.Emit.Arms
import Statewright.Proofs.Check.Reachability
import Statewright.Proofs.Execution.Confinement
import Statewright.Proofs.Execution.Isolation
import Statewright.Proofs.Execution.Filter
import Statewright.Proofs.Execution.Delivery
import Statewright.Proofs.Execution.Permission
import Statewright.Proofs.Execution.Reordering
import Statewright.Proofs.Declaration.Arguments
import Statewright.Proofs.Facts.Machines
import Statewright.Proofs.Expansion.Emitted
import Statewright.Proofs.Build.Rearranged
import Statewright.Proofs.Build.Agreement
import Statewright.Proofs.Expansion.Order
import Statewright.Proofs.Check.CycleReports
import Statewright.Proofs.Build.Redeclarations
import Statewright.Proofs.Expansion.Unreadable
import Statewright.Proofs.Expansion.Frame
import Statewright.Proofs.Hierarchy.Scope
import Statewright.Proofs.Callback.Future
import Statewright.Proofs.Grammar.Integer
import Statewright.Proofs.Facts.Discriminants
import Statewright.Proofs.Grammar.Sameness
import Statewright.Proofs.Grammar.Opened
import Statewright.Proofs.Declaration.Grouping
import Statewright.Proofs.Callback.Grouping
import Statewright.Proofs.Build.Histories
import Statewright.Proofs.Build.Ancestry
