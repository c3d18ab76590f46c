import Sentential.CommandLine.Command
import Sentential.CommandLine.Message
import Sentential.CommandLine.Option
import Sentential.CommandLine.Run
import Sentential.Dictionary.Basic
import Sentential.Dictionary.Json
import Sentential.Dictionary.Yaml
import Sentential.Double
import Sentential.Entries
import Sentential.Files
import Sentential.Formula.Basic
import Sentential.Formula.Canonical
import Sentential.Formula.Json
import Sentential.Formula.Outline
import Sentential.Json.Number
import Sentential.Json.Reader
import Sentential.Json.Scanner
import Sentential.Json.Value
import Sentential.Main
import Sentential.Path
import Sentential.Proofs.Dictionary.Access
import Sentential.Proofs.Dictionary.History
import Sentential.Proofs.Dictionary.Json
import Sentential.Proofs.Formula.Acceptance
import Sentential.Proofs.Formula.Json
import Sentential.Proofs.Formula.Nodes
import Sentential.Proofs.Formula.Outline
import Sentential.Proofs.Formula.Parentheses
import Sentential.Proofs.Formula.Phrases
import Sentential.Proofs.Formula.Readable
import Sentential.Proofs.Formula.RoundTrip
import Sentential.Proofs.Json.Objects
import Sentential.Proofs.Sentence.Chain
import Sentential.Proofs.Sentence.Clauses
import Sentential.Proofs.Sentence.Conditional
import Sentential.Proofs.Sentence.Cutting
import Sentential.Proofs.Sentence.Doubled
import Sentential.Proofs.Sentence.Hearing
import Sentential.Proofs.Sentence.Items
import Sentential.Proofs.Sentence.Labelling
import Sentential.Proofs.Sentence.Learning
import Sentential.Proofs.Sentence.Learnt
import Sentential.Proofs.Sentence.Links
import Sentential.Proofs.Sentence.Marks
import Sentential.Proofs.Sentence.Normal
import Sentential.Proofs.Sentence.Reading
import Sentential.Proofs.Sentence.Recovery
import Sentential.Proofs.Sentence.Regular
import Sentential.Proofs.Sentence.Residue
import Sentential.Proofs.Sentence.Rule
import Sentential.Proofs.Sentence.Spoken
import Sentential.Proofs.Sentence.Substitution
import Sentential.Proofs.Sentence.Translation
import Sentential.Proofs.Sentence.Turns
import Sentential.Proofs.Settings.Layers
import Sentential.Proofs.Symbolic.Alphabet
import Sentential.Proofs.Symbolic.Fault
import Sentential.Proofs.Symbolic.Grammar
import Sentential.Proofs.Symbolic.Grouping
import Sentential.Proofs.Symbolic.Label
import Sentential.Proofs.Symbolic.LetterCase
import Sentential.Proofs.Symbolic.MainSpelling
import Sentential.Proofs.Symbolic.Naming
import Sentential.Proofs.Symbolic.Nesting
import Sentential.Proofs.Symbolic.Position
import Sentential.Proofs.Symbolic.Precedence
import Sentential.Proofs.Symbolic.Rendering
import Sentential.Proofs.Symbolic.Spelling
import Sentential.Proofs.Symbolic.Step
import Sentential.Proofs.Symbolic.Tiling
import Sentential.Proofs.Symbolic.Writing
import Sentential.Proofs.Symbolic.Yield
import Sentential.Proofs.Text.FirstPlaces
import Sentential.Proofs.Text.Lines
import Sentential.Proofs.Text.Lower
import Sentential.Proofs.Text.Parts
import Sentential.Proofs.Text.Rewrite
import Sentential.Proofs.Text.Runs
import Sentential.Proofs.Text.Sides
import Sentential.Proofs.Text.Tidy
import Sentential.Proofs.Text.Words
import Sentential.Sentence.Clause
import Sentential.Sentence.Normal
import Sentential.Sentence.Reading
import Sentential.Sentence.Rule
import Sentential.Sentence.Substitution
import Sentential.Sentence.Translation
import Sentential.Settings.Basic
import Sentential.Settings.Format
import Sentential.Settings.Place
import Sentential.Settings.Value
import Sentential.Symbolic.Alias
import Sentential.Symbolic.Error
import Sentential.Symbolic.Lexer
import Sentential.Symbolic.Parser
import Sentential.Symbolic.Token
import Sentential.Text.Basic
import Sentential.Text.Blank
import Sentential.Text.Decimal
import Sentential.Text.Lower
import Sentential.Text.Quoted
import Sentential.Text.Rewrite
import Sentential.Text.Scanned
import Sentential.Text.WordChar
import Sentential.Toml.Moment
import Sentential.Toml.Number
import Sentential.Toml.Quoted
import Sentential.Toml.Reader
import Sentential.Toml.Space
import Sentential.Toml.Table
import Sentential.Trace
import Sentential.Yaml.Block
import Sentential.Yaml.Lexer
import Sentential.Yaml.Place
import Sentential.Yaml.Reader
import Sentential.Yaml.Scalar
import Sentential.Yaml.Token
import Sentential.Yaml.Writer
