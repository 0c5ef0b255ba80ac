import AccessPolicy.Action
import AccessPolicy.Binary64
import AccessPolicy.Binary64.Decimal
import AccessPolicy.Binary64.Shortest
import AccessPolicy.Command
import AccessPolicy.CommandLine
import AccessPolicy.Compilation
import AccessPolicy.Conditions
import AccessPolicy.Config
import AccessPolicy.Config.Format
import AccessPolicy.Config.Load
import AccessPolicy.Config.Rule
import AccessPolicy.Config.Toml
import AccessPolicy.Entity
import AccessPolicy.Error
import AccessPolicy.Evaluator
import AccessPolicy.Event
import AccessPolicy.File
import AccessPolicy.Json
import AccessPolicy.Json.Error
import AccessPolicy.Json.Printer
import AccessPolicy.Json.Reader
import AccessPolicy.Json.Scan
import AccessPolicy.Json.Skip
import AccessPolicy.KeyMap
import AccessPolicy.Main
import AccessPolicy.Predicate
import AccessPolicy.Predicate.Comparison
import AccessPolicy.Proofs.Action
import AccessPolicy.Proofs.Action.Matching
import AccessPolicy.Proofs.Action.Parts
import AccessPolicy.Proofs.Binary64
import AccessPolicy.Proofs.Binary64.Rounding
import AccessPolicy.Proofs.Binary64.Shortest
import AccessPolicy.Proofs.Command
import AccessPolicy.Proofs.Command.Keys
import AccessPolicy.Proofs.Command.Loading
import AccessPolicy.Proofs.Command.Validate
import AccessPolicy.Proofs.Compilation
import AccessPolicy.Proofs.Compilation.Consultation
import AccessPolicy.Proofs.Compilation.Explanation
import AccessPolicy.Proofs.Compilation.Message
import AccessPolicy.Proofs.Compilation.NamedConditions
import AccessPolicy.Proofs.Compilation.Registration
import AccessPolicy.Proofs.Compilation.Report
import AccessPolicy.Proofs.Compilation.RuleOrder
import AccessPolicy.Proofs.Compilation.Table
import AccessPolicy.Proofs.Compilation.Unresolved
import AccessPolicy.Proofs.Compilation.WildcardCondition
import AccessPolicy.Proofs.Conditions
import AccessPolicy.Proofs.Conditions.Anonymous
import AccessPolicy.Proofs.Conditions.Coverage
import AccessPolicy.Proofs.Conditions.Evidence
import AccessPolicy.Proofs.Conditions.Permission
import AccessPolicy.Proofs.Config.RoundTrip
import AccessPolicy.Proofs.Config.Rule
import AccessPolicy.Proofs.Config.Shape
import AccessPolicy.Proofs.Config.Toml
import AccessPolicy.Proofs.Entity
import AccessPolicy.Proofs.Evaluator.AbsentAttribute
import AccessPolicy.Proofs.Evaluator.Agreement
import AccessPolicy.Proofs.Evaluator.Alternatives
import AccessPolicy.Proofs.Evaluator.Decision
import AccessPolicy.Proofs.Evaluator.Log
import AccessPolicy.Proofs.Evaluator.StoredColon
import AccessPolicy.Proofs.Evaluator.Strict
import AccessPolicy.Proofs.Evaluator.Table
import AccessPolicy.Proofs.Except
import AccessPolicy.Proofs.File
import AccessPolicy.Proofs.Json.Agreement
import AccessPolicy.Proofs.Json.Any
import AccessPolicy.Proofs.Json.Numeral
import AccessPolicy.Proofs.Json.Printer
import AccessPolicy.Proofs.Json.Scan
import AccessPolicy.Proofs.Json.Shape
import AccessPolicy.Proofs.Json.Skip
import AccessPolicy.Proofs.KeyMap
import AccessPolicy.Proofs.Load
import AccessPolicy.Proofs.Predicate
import AccessPolicy.Proofs.Predicate.Comparison
import AccessPolicy.Proofs.Predicate.Expression
import AccessPolicy.Proofs.Registry
import AccessPolicy.Proofs.Role.Bookkeeping
import AccessPolicy.Proofs.Role.Construction
import AccessPolicy.Proofs.Role.Cycle
import AccessPolicy.Proofs.Role.FirstCycle
import AccessPolicy.Proofs.Role.Insertion
import AccessPolicy.Proofs.Role.Matcher
import AccessPolicy.Proofs.Role.Reachability
import AccessPolicy.Proofs.Text.Bytes
import AccessPolicy.Proofs.Text.Lines
import AccessPolicy.Proofs.Text.Position
import AccessPolicy.Proofs.Toml.Document
import AccessPolicy.Proofs.Toml.Item
import AccessPolicy.Proofs.Toml.Quoted
import AccessPolicy.Proofs.Toml.Table
import AccessPolicy.Recorded
import AccessPolicy.Registry
import AccessPolicy.Request
import AccessPolicy.Role.Cycle
import AccessPolicy.Role.Hierarchy
import AccessPolicy.Role.Matcher
import AccessPolicy.Text.Digit
import AccessPolicy.Text.Position
import AccessPolicy.Text.Printable
import AccessPolicy.Text.Quoted
import AccessPolicy.Text.Rest
import AccessPolicy.Toml
import AccessPolicy.Toml.Blank
import AccessPolicy.Toml.Datetime
import AccessPolicy.Toml.Document
import AccessPolicy.Toml.Item
import AccessPolicy.Toml.Key
import AccessPolicy.Toml.Numeral
import AccessPolicy.Toml.Quoted
import AccessPolicy.Toml.Table
