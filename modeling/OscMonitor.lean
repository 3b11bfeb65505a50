import OscMonitor.Text.Basic
import OscMonitor.Text.Keyed
import OscMonitor.Text.Utf8
import OscMonitor.Text.Blank
import OscMonitor.Text.Printable
import OscMonitor.Text.UpperCase
import OscMonitor.Text.Quoted
import OscMonitor.Number.Double
import OscMonitor.Number.Shortest
import OscMonitor.Number.Layout
import OscMonitor.Text.DecimalDigit
import OscMonitor.Number.Numeral
import OscMonitor.Document.Value
import OscMonitor.Document.Token
import OscMonitor.Document.Reader
import OscMonitor.Document.Printer
import OscMonitor.Document.Display
import OscMonitor.Document.Plain
import OscMonitor.Failure
import OscMonitor.Reply.Document
import OscMonitor.Report.Field
import OscMonitor.Report.Accept
import OscMonitor.Report.Basic
import OscMonitor.Report.Diagnostic
import OscMonitor.Report.Phase
import OscMonitor.Report.Listing
import OscMonitor.Document.Limits
import OscMonitor.Report.Limits
import OscMonitor.Document.Arrangement
import OscMonitor.Text.Encoding
import OscMonitor.Log.Event
import OscMonitor.Log.Line
import OscMonitor.Log.System
import OscMonitor.Log.Session
import OscMonitor.Request.Action
import OscMonitor.Document.Strict
import OscMonitor.Request.Codec
import OscMonitor.Network.Basic
import OscMonitor.Network.Dialogue
import OscMonitor.Network.Run
import OscMonitor.Settings.Basic
import OscMonitor.Exchange.Fault
import OscMonitor.Exchange.Notice
import OscMonitor.Exchange.Stages
import OscMonitor.Exchange.Basic
import OscMonitor.Exchange.Client
import OscMonitor.Settings.EnvFile
import OscMonitor.Settings.Resolve
import OscMonitor.Text.Fill
import OscMonitor.Text.Wrap
import OscMonitor.CommandLine.Flag
import OscMonitor.CommandLine.Arguments
import OscMonitor.CommandLine.Template
import OscMonitor.CommandLine.Help
import OscMonitor.CommandLine.Run
import OscMonitor.Main
import OscMonitor.Proofs.Text.Utf8
import OscMonitor.Proofs.Document.Extent
import OscMonitor.Proofs.Document.Nesting
import OscMonitor.Proofs.Reply.Forms
import OscMonitor.Proofs.Reply.CutOff
import OscMonitor.Proofs.Network.Dialogue
import OscMonitor.Proofs.Exchange.Stages
import OscMonitor.Proofs.Exchange.CutOff
import OscMonitor.Proofs.Report.Reading
import OscMonitor.Proofs.Report.Canonical
import OscMonitor.Proofs.Text.Order
import OscMonitor.Proofs.Document.Distinct
import OscMonitor.Proofs.Report.Logged
import OscMonitor.Proofs.Report.Isolation
import OscMonitor.Proofs.Report.Accounting
import OscMonitor.Proofs.Exchange.Course
import OscMonitor.Proofs.Exchange.Sockets
import OscMonitor.Proofs.Exchange.Fallback
import OscMonitor.Proofs.Number.Digits
import OscMonitor.Proofs.Document.Depth
import OscMonitor.Proofs.Document.Readable
import OscMonitor.Proofs.Document.Limits
import OscMonitor.Proofs.Report.Limits
import OscMonitor.Proofs.Report.Integers
import OscMonitor.Proofs.Number.Exact
import OscMonitor.Proofs.Number.Value
import OscMonitor.Proofs.Number.Spelling
import OscMonitor.Proofs.Number.Dropping
import OscMonitor.Proofs.Number.Reading
import OscMonitor.Proofs.Document.Quotes
import OscMonitor.Proofs.Document.Scalars
import OscMonitor.Proofs.Document.Ascii
import OscMonitor.Proofs.Document.Written
import OscMonitor.Proofs.Document.Complete
import OscMonitor.Proofs.Document.Printed
import OscMonitor.Proofs.Report.Table
import OscMonitor.Proofs.Report.Raw
import OscMonitor.Proofs.Report.Plain
import OscMonitor.Proofs.Network.Scopes
import OscMonitor.Proofs.Exchange.Client
import OscMonitor.Proofs.Log.Rendered
import OscMonitor.Proofs.Log.Session
import OscMonitor.Proofs.Document.Paired
import OscMonitor.Proofs.Report.Lines
import OscMonitor.Proofs.Report.Layout
import OscMonitor.Proofs.Report.Telling
import OscMonitor.Proofs.Log.Line
import OscMonitor.Proofs.Exchange.Written
import OscMonitor.Proofs.Text.Wrap
import OscMonitor.Proofs.CommandLine.Options
import OscMonitor.Proofs.CommandLine.Help
import OscMonitor.Proofs.CommandLine.Outcome
import OscMonitor.Proofs.Number.Real
import OscMonitor.Proofs.Settings.Limits
import OscMonitor.Proofs.Settings.Resolve
import OscMonitor.Proofs.Settings.TimeLimit
import OscMonitor.Proofs.Document.Strict
import OscMonitor.Proofs.Request.Codec
