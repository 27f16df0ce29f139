import EventQuery.Main
import EventQuery.Query.Validity
import EventQuery.Proofs.Grammar.Derivation
import EventQuery.Proofs.Grammar.Reading
import EventQuery.Proofs.Grammar.Unfolding
import EventQuery.Proofs.Grammar.Soundness
import EventQuery.Proofs.Grammar.Completeness
import EventQuery.Proofs.Grammar.Unambiguity
import EventQuery.Proofs.Grammar.Language
import EventQuery.Proofs.Grammar.Lookahead
import EventQuery.Proofs.Grammar.Retracing
import EventQuery.Proofs.Grammar.Viability
import EventQuery.Proofs.Lexeme.MaximalMunch
import EventQuery.Proofs.Lexeme.NumberText
import EventQuery.Proofs.Lexeme.Decomposition
import EventQuery.Proofs.Lexeme.Tokenization
import EventQuery.Proofs.Lexeme.Tiling
import EventQuery.Proofs.Lexeme.Writing
import EventQuery.Proofs.Grammar.Folding
import EventQuery.Proofs.Grammar.Progress
import EventQuery.Proofs.Binding.Spelling
import EventQuery.Proofs.Binding.Summary
import EventQuery.Proofs.Grammar.Concurrence
import EventQuery.Proofs.Grammar.Conservation
import EventQuery.Proofs.Grammar.Placement
import EventQuery.Proofs.Grammar.WellFormedness
import EventQuery.Proofs.Grammar.Depth
import EventQuery.Proofs.Lexeme.Cutting
import EventQuery.Proofs.Lexeme.Respelling
import EventQuery.Proofs.Grammar.Parentheses
import EventQuery.Proofs.Query.Serialization
import EventQuery.Proofs.Grammar.PrintedForm
import EventQuery.Proofs.Analysis.Agreement
import EventQuery.Proofs.Query.Restoration
import EventQuery.Proofs.Binding.Dangling
import EventQuery.Proofs.Grammar.Grouping
import EventQuery.Proofs.Grammar.Nesting
import EventQuery.Proofs.Grammar.Associativity
import EventQuery.Proofs.Binding.Registry
import EventQuery.Proofs.Binding.Tabulation
import EventQuery.Proofs.Query.Arrangement
import EventQuery.Proofs.Lexeme.Tallying
import EventQuery.Proofs.Analysis.Outcome
import EventQuery.Proofs.Source.Line
import EventQuery.Proofs.Analysis.Excerpt
import EventQuery.Proofs.Log.Truncation
import EventQuery.Proofs.Log.Tagging
import EventQuery.Proofs.Analysis.Scope
import EventQuery.Proofs.Document.Size
