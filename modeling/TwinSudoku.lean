import TwinSudoku.Cell
import TwinSudoku.Cell.Record
import TwinSudoku.Clauses
import TwinSudoku.Command.Error
import TwinSudoku.Command.Request
import TwinSudoku.Command.Run
import TwinSudoku.Command.Words
import TwinSudoku.Failure
import TwinSudoku.Files.Access
import TwinSudoku.Files.Error
import TwinSudoku.Files.Store
import TwinSudoku.Generation
import TwinSudoku.Generation.Audit
import TwinSudoku.Generation.Session
import TwinSudoku.InputError
import TwinSudoku.Json.Basic
import TwinSudoku.Json.Escape
import TwinSudoku.Json.Fields
import TwinSudoku.Json.Printer
import TwinSudoku.Json.Reader
import TwinSudoku.Json.Token
import TwinSudoku.Logic.Formula
import TwinSudoku.Logic.Model
import TwinSudoku.Logic.OneHot
import TwinSudoku.Main
import TwinSudoku.Misuse
import TwinSudoku.Numbering
import TwinSudoku.Oracle.Basic
import TwinSudoku.Oracle.Incremental
import TwinSudoku.Oracle.Record
import TwinSudoku.Oracle.Script
import TwinSudoku.Pair.Basic
import TwinSudoku.Pair.Csv
import TwinSudoku.Pair.Display
import TwinSudoku.Pair.Drawing
import TwinSudoku.Pair.Files
import TwinSudoku.Pair.Rules
import TwinSudoku.Pair.Table
import TwinSudoku.Placement
import TwinSudoku.Preferences
import TwinSudoku.Random.Dice
import TwinSudoku.Random.Shuffle
import TwinSudoku.Random.Stream
import TwinSudoku.Report
import TwinSudoku.Search.Backend
import TwinSudoku.Search.Completion
import TwinSudoku.Search.Index
import TwinSudoku.Search.Learning
import TwinSudoku.Search.Propagation
import TwinSudoku.Search.Trail
import TwinSudoku.Size
import TwinSudoku.Solving
import TwinSudoku.Text.Blank
import TwinSudoku.Text.Decimal
import TwinSudoku.Text.Pieces
import TwinSudoku.Text.Quoted
import TwinSudoku.Text.Shapeless
import TwinSudoku.Uuid
import TwinSudoku.Proofs.Clauses.Families
import TwinSudoku.Proofs.Rules.Houses
import TwinSudoku.Proofs.Rules.Solutions
import TwinSudoku.Proofs.Clauses.Solutions
import TwinSudoku.Proofs.Numbering.Givens
import TwinSudoku.Proofs.Oracle.Queries
import TwinSudoku.Proofs.Oracle.Exhaustive
import TwinSudoku.Proofs.Solving.Completions
import TwinSudoku.Proofs.Generation.Steps
import TwinSudoku.Proofs.Generation.Minimizing
import TwinSudoku.Proofs.Csv.RoundTrip
import TwinSudoku.Proofs.Files.Faithful
import TwinSudoku.Proofs.Files.Store
import TwinSudoku.Proofs.Command.Steps
import TwinSudoku.Proofs.Generation.Seeding
import TwinSudoku.Proofs.Command.Generating
import TwinSudoku.Proofs.Command.Solving
import TwinSudoku.Proofs.Numbering.Order
import TwinSudoku.Proofs.Oracle.Ordered
import TwinSudoku.Proofs.Solving.Least
import TwinSudoku.Proofs.Oracle.Record
import TwinSudoku.Proofs.Generation.Attempts
import TwinSudoku.Proofs.Generation.Models
import TwinSudoku.Proofs.Rules.Relabelling
import TwinSudoku.Proofs.Generation.Digits
import TwinSudoku.Proofs.Oracle.Protocol
import TwinSudoku.Proofs.FirstDefect
import TwinSudoku.Proofs.Pair.Defects
import TwinSudoku.Proofs.Csv.Format
import TwinSudoku.Proofs.Pair.Changes
import TwinSudoku.Proofs.Oracle.Incremental
import TwinSudoku.Proofs.Generation.Accounts
import TwinSudoku.Proofs.Command.Views
import TwinSudoku.Proofs.Command.Answering
import TwinSudoku.Proofs.Command.Outputs
import TwinSudoku.Proofs.Numbering.Words
import TwinSudoku.Proofs.Rules.Checking
import TwinSudoku.Proofs.Generation.Following
import TwinSudoku.Proofs.Generation.Alternatives
import TwinSudoku.Proofs.Generation.Audit
import TwinSudoku.Proofs.Numbering.Writing
import TwinSudoku.Proofs.Rules.Partners
import TwinSudoku.Proofs.Solving.Partners
import TwinSudoku.Proofs.Clauses.Counting
import TwinSudoku.Proofs.Clauses.Building
import TwinSudoku.Proofs.Pair.Layouts
import TwinSudoku.Proofs.Json.Escape
import TwinSudoku.Proofs.Json.Tokens
import TwinSudoku.Proofs.Json.RoundTrip
import TwinSudoku.Proofs.Json.Records
import TwinSudoku.Proofs.Files.Preferences
import TwinSudoku.Proofs.Uuid
import TwinSudoku.Proofs.Report
import TwinSudoku.Proofs.Clauses.Positions
import TwinSudoku.Proofs.Generation.Placing
import TwinSudoku.Proofs.Logic.Models
