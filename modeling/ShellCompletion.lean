import ShellCompletion.CommandLine.Run
import ShellCompletion.Grammar.Signature
import ShellCompletion.Main
import ShellCompletion.Proofs.Grammar.Chain
import ShellCompletion.Proofs.Grammar.Declaration
import ShellCompletion.Proofs.Grammar.WellFormed
import ShellCompletion.Proofs.Grammar.RoundTrip
import ShellCompletion.Proofs.Grammar.Equivalence
import ShellCompletion.Proofs.Grammar.Reordering
import ShellCompletion.Proofs.Line.Reading
import ShellCompletion.Proofs.Line.Parse
import ShellCompletion.Proofs.Line.Equivalence
import ShellCompletion.Proofs.Line.Block
import ShellCompletion.Proofs.Line.Exclusion
import ShellCompletion.Proofs.Grammar.Language
import ShellCompletion.Proofs.Grammar.Compile
import ShellCompletion.Proofs.Line.Capture
import ShellCompletion.Proofs.Specification.Descent
import ShellCompletion.Proofs.Line.NewWord
import ShellCompletion.Proofs.Line.Typing
import ShellCompletion.Proofs.Line.Causality
import ShellCompletion.Proofs.Suggestion.Policy
import ShellCompletion.Proofs.Suggestion.Path
import ShellCompletion.Proofs.Dispatch.Hop
import ShellCompletion.Proofs.Dispatch.Suggestions
import ShellCompletion.Proofs.Dispatch.EmptyWord
import ShellCompletion.Proofs.Resolver.Cache
import ShellCompletion.Proofs.Resolver.Clock
import ShellCompletion.Proofs.Resolver.Memo
import ShellCompletion.Proofs.Resolver.Files
import ShellCompletion.Proofs.FileTree.Slashes
import ShellCompletion.Proofs.Resolver.Home
import ShellCompletion.Proofs.Dispatch.Bound
import ShellCompletion.Proofs.Grammar.Tables
import ShellCompletion.Proofs.Line.OwnGroup
import ShellCompletion.Proofs.Guarded
import ShellCompletion.Proofs.Line.Walk
import ShellCompletion.Proofs.Line.Slots
import ShellCompletion.Proofs.Dispatch.Guarded
import ShellCompletion.Proofs.Specification.Guarded
import ShellCompletion.Proofs.Table
import ShellCompletion.Proofs.Document.Order
import ShellCompletion.Proofs.Specification.Commands
import ShellCompletion.Proofs.Specification.Build
import ShellCompletion.Proofs.Specification.Fault
import ShellCompletion.Proofs.Specification.Inheritance
import ShellCompletion.Proofs.Specification.Growth
import ShellCompletion.Proofs.Specification.Reachable
import ShellCompletion.Proofs.Specification.Offer
import ShellCompletion.Proofs.Dispatch.Depth
import ShellCompletion.Proofs.Dispatch.Agreement
import ShellCompletion.Proofs.Dispatch.Origin
import ShellCompletion.Proofs.Line.Bundle
import ShellCompletion.Proofs.Specification.Timeless
import ShellCompletion.Proofs.Specification.Agreement
import ShellCompletion.Proofs.Specification.Lifetime
import ShellCompletion.Proofs.Specification.Supply
import ShellCompletion.Proofs.CommandLine.Lines
import ShellCompletion.Proofs.Grammar.Growth
import ShellCompletion.Proofs.Resolver.Programs
import ShellCompletion.Proofs.CommandLine.Check
import ShellCompletion.Proofs.Document.Number
import ShellCompletion.Proofs.Document.Quoted
import ShellCompletion.Proofs.Document.RoundTrip
import ShellCompletion.Proofs.Configuration.Text
import ShellCompletion.Proofs.Text.Marks
import ShellCompletion.Proofs.Report.Color
