import MeterRadio.Bits
import MeterRadio.Bytes
import MeterRadio.Capture
import MeterRadio.Capture.Exit
import MeterRadio.Capture.Ledger
import MeterRadio.Capture.Run
import MeterRadio.Checksum
import MeterRadio.CommandLine
import MeterRadio.Config
import MeterRadio.Csv.Buffer
import MeterRadio.Csv.Record
import MeterRadio.Decoder
import MeterRadio.Decoder.Checked
import MeterRadio.Decoder.Scan
import MeterRadio.Envelope
import MeterRadio.Fault
import MeterRadio.Files
import MeterRadio.Filter
import MeterRadio.Json.Reader
import MeterRadio.Json.Scaled
import MeterRadio.Json.Value
import MeterRadio.Log.Entry
import MeterRadio.Log.Format
import MeterRadio.Log.Json
import MeterRadio.Log.Writer
import MeterRadio.Log.Xml
import MeterRadio.Main
import MeterRadio.Message
import MeterRadio.Message.Idm
import MeterRadio.Message.Scm
import MeterRadio.Modulation
import MeterRadio.Number.Binary64
import MeterRadio.Number.Rounding
import MeterRadio.Profile
import MeterRadio.Protocol
import MeterRadio.SampleFile
import MeterRadio.Session
import MeterRadio.Session.Deposits
import MeterRadio.Sink
import MeterRadio.Source
import MeterRadio.Source.Lookahead
import MeterRadio.Tally
import MeterRadio.Text.Alphanumeric
import MeterRadio.Text.Blank
import MeterRadio.Text.Lines
import MeterRadio.Text.Numeral
import MeterRadio.Text.Quoted
import MeterRadio.Text.Ranges
import MeterRadio.Text.Utf8
import MeterRadio.Text.Visible
import MeterRadio.Time.Calendar
import MeterRadio.Time.Limit
import MeterRadio.Time.Span
import MeterRadio.Time.Timestamp
import MeterRadio.Trace
import MeterRadio.Trace.Directive
import MeterRadio.Trace.Pattern
import MeterRadio.Tuner
import MeterRadio.Tuner.Client
import MeterRadio.Xml.Reader
import MeterRadio.Xml.Tree
import MeterRadio.Proofs.LogWriting
import MeterRadio.Proofs.BlockAccounts
import MeterRadio.Proofs.RunAccounts
import MeterRadio.Proofs.ReadBoundary
import MeterRadio.Proofs.CapturePlacement
import MeterRadio.Proofs.DecoderWindow
import MeterRadio.Proofs.BitPacking
import MeterRadio.Proofs.WindowSearch
import MeterRadio.Proofs.StreamScan
import MeterRadio.Proofs.PacketRecovery
import MeterRadio.Proofs.ShiftRegister
import MeterRadio.Proofs.PacketLanguages
import MeterRadio.Proofs.RunEnds
import MeterRadio.Proofs.ExitSchedule
import MeterRadio.Proofs.FailureDamage
import MeterRadio.Proofs.SourceBlocks
import MeterRadio.Proofs.CapturedWindows
import MeterRadio.Proofs.StreamEcho
import MeterRadio.Proofs.CaptureReplay
import MeterRadio.Proofs.ErrorPatterns
import MeterRadio.Proofs.ErrorDetection
import MeterRadio.Proofs.BitReading
import MeterRadio.Proofs.MessageContents
import MeterRadio.Proofs.CivilDates
import MeterRadio.Proofs.Numerals
import MeterRadio.Proofs.TimestampText
import MeterRadio.Proofs.JsonText
import MeterRadio.Proofs.EntryJson
import MeterRadio.Proofs.DuplicateSuppression
import MeterRadio.Proofs.WindowContents
import MeterRadio.Proofs.LogDelivery
import MeterRadio.Proofs.RunCounters
import MeterRadio.Proofs.SinglePrecision
import MeterRadio.Proofs.ExactDecisions
import MeterRadio.Proofs.BitFields
import MeterRadio.Proofs.PacketEncoding
import MeterRadio.Proofs.RecordReading
import MeterRadio.Proofs.XmlText
import MeterRadio.Proofs.XmlFields
import MeterRadio.Proofs.EntryXml
import MeterRadio.Proofs.LogLines
import MeterRadio.Proofs.WorkingRuns
import MeterRadio.Proofs.FilteredRuns
import MeterRadio.Proofs.SingleShot
import MeterRadio.Proofs.OutputChoices
import MeterRadio.Proofs.SampleOffsets
import MeterRadio.Proofs.BlockReads
import MeterRadio.Proofs.TunerCommands
import MeterRadio.Proofs.BufferWrites
import MeterRadio.Proofs.ProfileSizes
import MeterRadio.Proofs.BufferBounds
import MeterRadio.Proofs.RegisterDivision
import MeterRadio.Proofs.Spellings
import MeterRadio.Proofs.LimitGrammar
import MeterRadio.Proofs.LimitSums
import MeterRadio.Proofs.TimeLimits
import MeterRadio.Proofs.ConfigChecks
import MeterRadio.Proofs.InclusionLists
import MeterRadio.Proofs.BitSlices
