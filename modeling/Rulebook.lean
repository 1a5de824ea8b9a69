import Rulebook.Engine.Session
import Rulebook.Fact
import Rulebook.Plain.Inspect
import Rulebook.Proofs.Text.CharacterClass
import Rulebook.Rule.Logic
import Rulebook.Settings.Document
import Rulebook.Proofs.Token.Spelling
import Rulebook.Proofs.Grammar.Derivation
import Rulebook.Proofs.Grammar.Outcome
import Rulebook.Proofs.Grammar.Completeness
import Rulebook.Proofs.Grammar.RuleCompleteness
import Rulebook.Proofs.Number.Unpacked
import Rulebook.Proofs.Number.Literal
import Rulebook.Proofs.Expr.Walk
import Rulebook.Proofs.Expr.Written
import Rulebook.Proofs.Expr.Folding
import Rulebook.Proofs.Rule.RoundTrip
import Rulebook.Proofs.Engine.Turn
import Rulebook.Proofs.Engine.Execution
import Rulebook.Proofs.Engine.Rest
import Rulebook.Proofs.Engine.Trace
import Rulebook.Proofs.Engine.Log
import Rulebook.Proofs.Engine.Refraction
import Rulebook.Proofs.Value.WellFormed
import Rulebook.Proofs.Engine.Acyclic
import Rulebook.Proofs.Grammar.Exactness
import Rulebook.Proofs.Grammar.Recognition
import Rulebook.Proofs.Grammar.Opening
import Rulebook.Proofs.Grammar.ActionRecognition
import Rulebook.Proofs.Grammar.RuleRecognition
import Rulebook.Proofs.Grammar.RuleExactness
import Rulebook.Proofs.Engine.Firing
import Rulebook.Proofs.Engine.Chaining
import Rulebook.Proofs.Engine.Continuation
import Rulebook.Proofs.Engine.Independence
import Rulebook.Proofs.Engine.DeadRules
import Rulebook.Proofs.Engine.Settled
import Rulebook.Proofs.Engine.AtMostOnce
import Rulebook.Proofs.Token.Pieces
import Rulebook.Proofs.Token.Lenient
import Rulebook.Proofs.Token.Lines
import Rulebook.Proofs.Grammar.Blocks
import Rulebook.Proofs.Grammar.Documents
import Rulebook.Proofs.Engine.Isolation
import Rulebook.Proofs.Engine.Writes
import Rulebook.Proofs.Engine.Relevance
import Rulebook.Proofs.Engine.Outcomes
import Rulebook.Proofs.Expr.Faults
import Rulebook.Proofs.Rule.Parsed
import Rulebook.Proofs.Engine.Failures
import Rulebook.Proofs.Rule.PlainForm
import Rulebook.Proofs.RuleBase.Entries
import Rulebook.Proofs.RuleBase.Calls
import Rulebook.Proofs.Engine.Conflicts
import Rulebook.Proofs.Engine.Registration
import Rulebook.Proofs.Token.Longest
import Rulebook.Proofs.Token.Layout
import Rulebook.Proofs.Token.Recovery
import Rulebook.Proofs.Value.Paths
import Rulebook.Proofs.Expr.Assignment
import Rulebook.Proofs.Number.Equality
import Rulebook.Proofs.Value.Equality
import Rulebook.Proofs.Expr.Matching
import Rulebook.Proofs.Engine.EqualFacts
import Rulebook.Proofs.Value.Rearrangement
import Rulebook.Proofs.Grammar.Strings
import Rulebook.Proofs.Token.Insertion
import Rulebook.Proofs.Rule.Relayout
import Rulebook.Proofs.Number.ReadBack
import Rulebook.Proofs.Grammar.Progress
import Rulebook.Proofs.Grammar.FaultPlaces
import Rulebook.Proofs.Expr.LogicForm
import Rulebook.Proofs.Engine.Analyzable
import Rulebook.Proofs.Expr.Traversal
import Rulebook.Proofs.Calendar.Counting
import Rulebook.Proofs.Calendar.Written
import Rulebook.Proofs.Settings.Counts
import Rulebook.Proofs.Settings.Reading
import Rulebook.Proofs.Yaml.Cursor
import Rulebook.Proofs.Yaml.Scalars
import Rulebook.Proofs.Yaml.Tokens
import Rulebook.Proofs.Yaml.Nesting
import Rulebook.Proofs.Yaml.Node
import Rulebook.Proofs.Yaml.Document
