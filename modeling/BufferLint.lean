import BufferLint.Check.Buffer
import BufferLint.Check.Checker
import BufferLint.Check.History
import BufferLint.Check.Stats
import BufferLint.Check.StatsJson
import BufferLint.Check.Status
import BufferLint.Command.Arguments
import BufferLint.Command.Files
import BufferLint.Command.Report
import BufferLint.Command.Run
import BufferLint.Decimal.Binary64
import BufferLint.Decimal.Shortest
import BufferLint.Diagnostic
import BufferLint.Diagnostic.Json
import BufferLint.Engine.Basic
import BufferLint.Engine.Cache
import BufferLint.FileType
import BufferLint.Json.Basic
import BufferLint.Json.Decode
import BufferLint.Json.Printer
import BufferLint.Json.Reader
import BufferLint.Json.Relaxed
import BufferLint.Main
import BufferLint.Scan.Analysis
import BufferLint.Scan.Heuristic
import BufferLint.Scan.JsonSyntax
import BufferLint.Scan.Python
import BufferLint.Scan.Reduced
import BufferLint.Scan.Script
import BufferLint.Service.Basic
import BufferLint.Service.Error
import BufferLint.Service.Gateway
import BufferLint.Service.Response
import BufferLint.Service.Status
import BufferLint.Settings.Basic
import BufferLint.Settings.Error
import BufferLint.Settings.Json
import BufferLint.Settings.Store
import BufferLint.Severity
import BufferLint.Text.Alphanumeric
import BufferLint.Text.Blank
import BufferLint.Text.Duration
import BufferLint.Text.Lines
import BufferLint.Text.Lowered
import BufferLint.Text.Quoted
import BufferLint.Text.Utf8
import BufferLint.Timed.Agenda
import BufferLint.Timed.Clock
import BufferLint.Timed.Debounce
import BufferLint.Proofs.Engine.History
import BufferLint.Proofs.Engine.Answers
import BufferLint.Proofs.Check.Moments
import BufferLint.Proofs.Engine.Alone
import BufferLint.Proofs.Service.Exchanges
import BufferLint.Proofs.Check.Lock
import BufferLint.Proofs.Check.Delivery
import BufferLint.Proofs.Check.Quiet
import BufferLint.Proofs.Check.Requests
import BufferLint.Proofs.Check.Deadlines
import BufferLint.Proofs.Check.Shutdown
import BufferLint.Proofs.Scan.Lexer
import BufferLint.Proofs.Scan.Pairing
import BufferLint.Proofs.Scan.Brackets
import BufferLint.Proofs.Scan.Inert
import BufferLint.Proofs.Scan.Stray
import BufferLint.Proofs.Check.Order
import BufferLint.Proofs.Check.Display
import BufferLint.Proofs.Check.Convergence
import BufferLint.Proofs.Check.Disabling
import BufferLint.Proofs.Check.Indicators
import BufferLint.Proofs.Check.Completion
import BufferLint.Proofs.Check.Records
import BufferLint.Proofs.Check.Sending
import BufferLint.Proofs.Engine.Spacing
import BufferLint.Proofs.Command.LocalCheck
import BufferLint.Proofs.Command.Printing
import BufferLint.Proofs.Check.Bursts
import BufferLint.Proofs.Json.Numeral
import BufferLint.Proofs.Json.Rereading
import BufferLint.Proofs.Settings.RoundTrip
import BufferLint.Proofs.Service.Ledger
import BufferLint.Proofs.Service.Availability
import BufferLint.Proofs.Service.Outcomes
import BufferLint.Proofs.Json.Range
import BufferLint.Proofs.Service.Reading
import BufferLint.Proofs.Scan.Places
import BufferLint.Proofs.Scan.Positions
import BufferLint.Proofs.Scan.Joined
import BufferLint.Proofs.Scan.LineBreaks
import BufferLint.Proofs.Scan.Labels
import BufferLint.Proofs.Scan.Rulings
import BufferLint.Proofs.Scan.Rules
import BufferLint.Proofs.Scan.Reduction
import BufferLint.Proofs.Text.Encoding
import BufferLint.Proofs.Scan.FaultColumn
import BufferLint.Proofs.Json.Strict
import BufferLint.Proofs.Diagnostic.Decoding
import BufferLint.Proofs.Command.ReportReading
import BufferLint.Proofs.Service.ShownPositions
import BufferLint.Proofs.Settings.FileRuns
import BufferLint.Proofs.Diagnostic.Display
import BufferLint.Proofs.Check.Breakdown
import BufferLint.Proofs.Scan.PythonRules
