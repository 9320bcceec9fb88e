import TweeLint.Http.App
import TweeLint.Main
import TweeLint.Proofs.Position
import TweeLint.Proofs.Text.Blank
import TweeLint.Proofs.Balance.Grammar
import TweeLint.Proofs.Balance.Scan
import TweeLint.Proofs.MacroCall
import TweeLint.Proofs.Passage.Headers
import TweeLint.Proofs.Passage.LineReading
import TweeLint.Proofs.Composition
import TweeLint.Proofs.Passage.Findings
import TweeLint.Proofs.Places
import TweeLint.Proofs.Verdict
import TweeLint.Proofs.Text.Matches
import TweeLint.Proofs.Vocabulary.Growth
import TweeLint.Proofs.Vocabulary.Reference
import TweeLint.Proofs.Passage.Parentheses
import TweeLint.Proofs.LineEnds
import TweeLint.Proofs.Files
import TweeLint.Proofs.Passage.Respelling
import TweeLint.Proofs.Passage.ReplacedLine
import TweeLint.Proofs.Suggestion
import TweeLint.Proofs.Order
import TweeLint.Proofs.Rendering
import TweeLint.Proofs.Interchange
import TweeLint.Proofs.Checks
import TweeLint.Proofs.Batch
import TweeLint.Proofs.CommandLine
import TweeLint.Proofs.Http.BodyLimit
import TweeLint.Proofs.Json.Grammar
import TweeLint.Proofs.Json.Reading
import TweeLint.Proofs.Http.BodyText
import TweeLint.Proofs.Json.Writing
import TweeLint.Proofs.ReportText
import TweeLint.Proofs.Http.LintEndpoint
import TweeLint.Proofs.Balance.Layout
import TweeLint.Proofs.Balance.Unpaired
import TweeLint.Proofs.Balance.Repair
import TweeLint.Proofs.EditDistance.Rows
import TweeLint.Proofs.EditDistance.Scripts
import TweeLint.Proofs.EditDistance.Metric
import TweeLint.Proofs.MacroCall.Search
import TweeLint.Proofs.Vocabulary.Recognition
import TweeLint.Proofs.Vocabulary.Aliases
import TweeLint.Proofs.Vocabulary.Consistency
import TweeLint.Proofs.JsonLines
import TweeLint.Proofs.Legibility
import TweeLint.Proofs.Balance.Insertion
import TweeLint.Proofs.FileTree
import TweeLint.Proofs.FileTree.Reordered
import TweeLint.Proofs.Path
import TweeLint.Proofs.Vocabulary.Surroundings
import TweeLint.Proofs.Discovery
import TweeLint.Proofs.LineIndex
import TweeLint.Proofs.Vocabulary.Canonical
import TweeLint.Proofs.Balance.Records
