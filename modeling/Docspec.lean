import Docspec.Main
import Docspec.Proofs.Execution
import Docspec.Proofs.Segments
import Docspec.Proofs.Quoting
import Docspec.Proofs.Aggregation
import Docspec.Proofs.Isolation
import Docspec.Proofs.Replay
import Docspec.Proofs.Documents
import Docspec.Proofs.Names
import Docspec.Proofs.ReadBack
import Docspec.Proofs.Filters
import Docspec.Proofs.PrintLine
import Docspec.Proofs.Regions
import Docspec.Proofs.Placement
import Docspec.Proofs.Attachment
import Docspec.Proofs.CodeSpans
import Docspec.Proofs.UnknownCommand
import Docspec.Proofs.NestedQuotes
import Docspec.Proofs.Reflow
import Docspec.Proofs.Spans
import Docspec.Proofs.Placeholders
import Docspec.Proofs.ErrorPlaces
import Docspec.Proofs.Chains
import Docspec.Proofs.Cuttings
import Docspec.Proofs.Arguments
import Docspec.Proofs.Openers
import Docspec.Proofs.Atomicity
import Docspec.Proofs.Assignment
import Docspec.Proofs.Merging
import Docspec.Proofs.Paths
import Docspec.Proofs.Rounding
import Docspec.Proofs.ShortestDigits
import Docspec.Proofs.Numerals
import Docspec.Proofs.LinePatterns
import Docspec.Proofs.QuotedWords
import Docspec.Proofs.ConfigLines
import Docspec.Proofs.Settings
import Docspec.Proofs.Switches
import Docspec.Proofs.Registrations
import Docspec.Proofs.Walking
import Docspec.Proofs.Descent
import Docspec.Proofs.Counts
import Docspec.Proofs.Respelling
import Docspec.Proofs.Spellings
import Docspec.Proofs.Nesting
import Docspec.Proofs.TextRuns
import Docspec.Proofs.Bracketing
import Docspec.Proofs.Conservation
import Docspec.Proofs.Fusing
import Docspec.Proofs.ShownNumbers
import Docspec.Proofs.MappingKeys
import Docspec.Proofs.PlainBlocks
import Docspec.Proofs.ShownLiterals
import Docspec.Proofs.SnakeCase
import Docspec.Proofs.ScanBounds
import Docspec.Proofs.StreamBounds
