import Highlighter.Command.Arguments
import Highlighter.Command.Log
import Highlighter.Command.Run
import Highlighter.Coverage
import Highlighter.Data.Doc
import Highlighter.Data.Double
import Highlighter.Data.Json.Printer
import Highlighter.Data.Json.Reader
import Highlighter.Data.Toml.Reader
import Highlighter.Data.Toml.Table
import Highlighter.Data.Toml.Text
import Highlighter.Data.Yaml.Cursor
import Highlighter.Data.Yaml.Document
import Highlighter.Data.Yaml.Node
import Highlighter.Data.Yaml.Printer
import Highlighter.Data.Yaml.Scalar
import Highlighter.Data.Yaml.Text
import Highlighter.Data.Yaml.Token
import Highlighter.Data.Yaml.Token.Layout
import Highlighter.Data.Yaml.Word
import Highlighter.Files
import Highlighter.Format.Data
import Highlighter.Format.Registry
import Highlighter.Format.Tag
import Highlighter.Grammar.Basic
import Highlighter.Grammar.Bundled
import Highlighter.Grammar.Compile
import Highlighter.Grammar.Decode
import Highlighter.Grammar.Encode
import Highlighter.Grammar.Error
import Highlighter.Grammar.Fragment
import Highlighter.Grammar.Keyword
import Highlighter.Grammar.Library
import Highlighter.Grammar.Registry
import Highlighter.Grammar.Scanner
import Highlighter.Grammar.Source
import Highlighter.Grammar.Spec
import Highlighter.Highlighting
import Highlighter.Kind
import Highlighter.LogLevel
import Highlighter.Main
import Highlighter.Regex.Basic
import Highlighter.Regex.CharSet
import Highlighter.Regex.Factor
import Highlighter.Regex.Haystack
import Highlighter.Regex.Path
import Highlighter.Regex.Reader
import Highlighter.Regex.Reader.Bracket
import Highlighter.Regex.Reader.Escape
import Highlighter.Regex.Reader.State
import Highlighter.Regex.Search
import Highlighter.Regex.Sweep
import Highlighter.Scan.Emitter
import Highlighter.Scan.Progress
import Highlighter.Scan.Run
import Highlighter.Scan.State
import Highlighter.Scan.Step
import Highlighter.Scan.Words
import Highlighter.Settings.Basic
import Highlighter.Settings.Error
import Highlighter.Settings.Loader
import Highlighter.Settings.Path
import Highlighter.Settings.Tree
import Highlighter.Text.Alphabetic
import Highlighter.Text.Basic
import Highlighter.Text.Cases
import Highlighter.Text.Folding
import Highlighter.Text.Lowercase
import Highlighter.Text.Numeric
import Highlighter.Text.Printable
import Highlighter.Text.Quoted
import Highlighter.Text.Ranges
import Highlighter.Text.Recent
import Highlighter.Text.Source
import Highlighter.Token
import Highlighter.Proofs.Partition
import Highlighter.Proofs.Reached
import Highlighter.Proofs.Bounds
import Highlighter.Proofs.Draining
import Highlighter.Proofs.Termination
import Highlighter.Proofs.DepthCap
import Highlighter.Scan.Cases
import Highlighter.Proofs.Reading.Bare
import Highlighter.Proofs.Reading.Within
import Highlighter.Proofs.Reading.Choices
import Highlighter.Proofs.Reading.Alone
import Highlighter.Proofs.Reading.Joined
import Highlighter.Proofs.Search.Branches
import Highlighter.Proofs.Search.Moves
import Highlighter.Proofs.Compiled
import Highlighter.Proofs.Candidates
import Highlighter.Proofs.Granularity.Drawing
import Highlighter.Proofs.Granularity.Replay
import Highlighter.Proofs.Granularity.Story
import Highlighter.Proofs.Granularity.Tokens
import Highlighter.Proofs.Twins.Region
import Highlighter.Proofs.Twins.Text
import Highlighter.Proofs.Embedding.Absorbs
import Highlighter.Proofs.Embedding.Isolated
import Highlighter.Proofs.Reading.Nested
import Highlighter.Proofs.Extending
import Highlighter.Proofs.Twins.Recased
import Highlighter.Proofs.Dialects.Rules
import Highlighter.Proofs.Dialects.Alike
import Highlighter.Proofs.Depth
import Highlighter.Proofs.Registry.Lookups
import Highlighter.Proofs.Registry.Orders
import Highlighter.Proofs.Trail
import Highlighter.Proofs.Relevance
import Highlighter.Proofs.Steering.Flags
import Highlighter.Proofs.Steering.Rules
import Highlighter.Proofs.Steering.Sightings
import Highlighter.Proofs.Caseless.Letters
import Highlighter.Proofs.Caseless.Sets
import Highlighter.Proofs.Caseless.Reading
import Highlighter.Proofs.Caseless.Grammars
import Highlighter.Proofs.Caseless.Texts
import Highlighter.Proofs.WellFormed.Grammars
import Highlighter.Proofs.WellFormed.Patterns
import Highlighter.Proofs.Scopes.Open
import Highlighter.Proofs.Scopes.Ends
import Highlighter.Proofs.Scopes.AsOpened
import Highlighter.Proofs.Scopes.Quoted
import Highlighter.Proofs.Dialects.Quoted
import Highlighter.Proofs.Granularity.Maximal
import Highlighter.Proofs.Words.Tables
import Highlighter.Proofs.Dialects.LineComment
import Highlighter.Proofs.Unembedded.Regions
import Highlighter.Proofs.Keywords.Precedence
import Highlighter.Proofs.Expansion.Stable
import Highlighter.Proofs.Includes.InPlace
import Highlighter.Proofs.Tag.Lines
import Highlighter.Proofs.Lazy.Cuts
import Highlighter.Proofs.Expansion.Literal
import Highlighter.Proofs.Specs.Faithful
import Highlighter.Proofs.Coverage
import Highlighter.Proofs.Settings.Layered
import Highlighter.Proofs.Command.Honest
import Highlighter.Proofs.Emission
