import Scriptlet.Main
import Scriptlet.Node.Equality
import Scriptlet.Node.Surface
import Scriptlet.Proofs.Action
import Scriptlet.Proofs.Parsing.Stream
import Scriptlet.Proofs.Grammar.Rules
import Scriptlet.Proofs.Grammar.Soundness
import Scriptlet.Proofs.Grammar.StatementSoundness
import Scriptlet.Proofs.Parsing.Outcome
import Scriptlet.Proofs.Grammar.ExpressionCompleteness
import Scriptlet.Proofs.Grammar.Completeness
import Scriptlet.Proofs.Token.Spelling
import Scriptlet.Proofs.Grammar.Acceptance
import Scriptlet.Proofs.Machine.Preservation
import Scriptlet.Proofs.Console.Session
import Scriptlet.Proofs.Number.Bits
import Scriptlet.Proofs.Number.Reading
import Scriptlet.Proofs.Node.WellFormed
import Scriptlet.Proofs.Number.Exact
import Scriptlet.Proofs.Grammar.WellFormed
import Scriptlet.Proofs.Grammar.Writing
import Scriptlet.Proofs.Token.Spaced
import Scriptlet.Proofs.Grammar.Image
import Scriptlet.Proofs.Machine.Safety
import Scriptlet.Proofs.Script.Safety
import Scriptlet.Proofs.Token.Longest
import Scriptlet.Proofs.Token.Scanning
import Scriptlet.Proofs.Machine.Account
import Scriptlet.Proofs.Machine.Names
import Scriptlet.Proofs.Machine.History
import Scriptlet.Proofs.Machine.Chronicle
import Scriptlet.Proofs.Machine.Telling
import Scriptlet.Proofs.Script.Telling
import Scriptlet.Proofs.Script.Rendering
import Scriptlet.Proofs.Node.Lines
import Scriptlet.Proofs.Parsing.Fork
import Scriptlet.Proofs.Parsing.Locality
import Scriptlet.Proofs.Parsing.Joining
import Scriptlet.Proofs.Machine.Lines
import Scriptlet.Proofs.Machine.Recast
import Scriptlet.Proofs.Script.Lines
import Scriptlet.Proofs.Console.Lines
import Scriptlet.Proofs.Machine.Depth
import Scriptlet.Proofs.Script.Depth
import Scriptlet.Proofs.Script.Layout
import Scriptlet.Proofs.Node.Identifiers
import Scriptlet.Proofs.Machine.Parallel
import Scriptlet.Proofs.Scope.View
import Scriptlet.Proofs.Script.Bystander
import Scriptlet.Proofs.Scope.Reach
import Scriptlet.Proofs.Machine.Reach
import Scriptlet.Proofs.Machine.Isolation
import Scriptlet.Proofs.Machine.EmptyScope
import Scriptlet.Proofs.Machine.ForLoop
import Scriptlet.Proofs.Console.Verdict
import Scriptlet.Proofs.Grammar.CallChain
import Scriptlet.Proofs.Grammar.Resumption
import Scriptlet.Proofs.Grammar.Closings
import Scriptlet.Proofs.Grammar.SyntaxErrors
import Scriptlet.Proofs.Number.Text
import Scriptlet.Proofs.Grammar.Surface
import Scriptlet.Proofs.Grammar.SumChain
import Scriptlet.Proofs.Token.Separated
import Scriptlet.Proofs.Node.Drawing
import Scriptlet.Proofs.Node.Outline
import Scriptlet.Proofs.Json.Reading
import Scriptlet.Proofs.Console.Dump
import Scriptlet.Proofs.Scope.Laws
import Scriptlet.Proofs.Token.Requests
import Scriptlet.Proofs.Parsing.Recursion
import Scriptlet.Proofs.Parsing.Requests
import Scriptlet.Proofs.Number.Printed
import Scriptlet.Proofs.Number.Quantity
import Scriptlet.Proofs.Machine.Roster
import Scriptlet.Proofs.Value.Equality
