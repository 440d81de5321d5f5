import UlogCpp.Data.Iterate
import UlogCpp.Data.Trail
import UlogCpp.Data.Scan
import UlogCpp.Data.Map
import UlogCpp.Data.Order
import UlogCpp.Data.Views
import UlogCpp.Data.Run
import UlogCpp.Data.Decides
import UlogCpp.Data.Groups
import UlogCpp.Data.Layout
import UlogCpp.Data.Regex
import UlogCpp.Messages.Field
import UlogCpp.Messages.Model
import UlogCpp.Messages.Frame
import UlogCpp.Messages.Message
import UlogCpp.Messages.Access
import UlogCpp.Messages.RoundTrip
import UlogCpp.Messages.Wire
import UlogCpp.Messages.Emission
import UlogCpp.Messages.Framing
import UlogCpp.Messages.Grammar
import UlogCpp.Messages.Value
import UlogCpp.Messages.Acceptance
import UlogCpp.Messages.Rewriting
import UlogCpp.Handler
import UlogCpp.Reader.Model
import UlogCpp.Reader.Dispatch
import UlogCpp.Reader.Buffer
import UlogCpp.Reader.Step
import UlogCpp.Reader.Safety
import UlogCpp.Reader.Invariant
import UlogCpp.Reader.Protocol
import UlogCpp.Reader.Stream
import UlogCpp.Reader.Prologue
import UlogCpp.Reader.Chunking
import UlogCpp.Reader.Recovery
import UlogCpp.Reader.Resync
import UlogCpp.Reader.Escape
import UlogCpp.Reader.Log
import UlogCpp.Reader.Acceptance
import UlogCpp.Reader.Offset
import UlogCpp.Reader.Skip
import UlogCpp.Reader.Silence
import UlogCpp.Reader.Tidy
import UlogCpp.Reader.Earliest
import UlogCpp.Reader.Waiting
import UlogCpp.Reader.Replay
import UlogCpp.Reader.Answered
import UlogCpp.Reader.Errors
import UlogCpp.Reader.Effort
import UlogCpp.Reader.Kept
import UlogCpp.DataContainer.Model
import UlogCpp.DataContainer.Frame
import UlogCpp.DataContainer.Escape
import UlogCpp.DataContainer.Storage
import UlogCpp.DataContainer.Grouping
import UlogCpp.DataContainer.Rejection
import UlogCpp.DataContainer.History
import UlogCpp.Writer.Model
import UlogCpp.Writer.Copy
import UlogCpp.Writer.Repair
import UlogCpp.SimpleWriter.Model
import UlogCpp.SimpleWriter.Run
import UlogCpp.SimpleWriter.Written
import UlogCpp.SimpleWriter.Fidelity
import UlogCpp.SimpleWriter.Parameters
import UlogCpp.SimpleWriter.Cut
import UlogCpp.SimpleWriter.Registration
import UlogCpp.SimpleWriter.Attempt
import UlogCpp.SimpleWriter.Numbering
import UlogCpp.SimpleWriter.Padding
import UlogCpp.SimpleWriter.Payload
import UlogCpp.SimpleWriter.Samples
import UlogCpp.ZzDataLog.Filename
import UlogCpp.ZzDataLog.Model
import UlogCpp.ZzDataLog.Run
import UlogCpp.ZzDataLog.Handles
import UlogCpp.ZzDataLog.Versions
import UlogCpp.ZzDataLog.Journal
import UlogCpp.ZzDataLog.PayloadSize
import UlogCpp.ZzDataLog.Init
import UlogCpp.ZzDataLog.Replay
import UlogCpp.ZzDataLog.Arguments
import UlogCpp.ZzDataLog.Cache
import UlogCpp.ZzDataLog.Contents
import UlogCpp.ZzDataLog.Growth
import UlogCpp.ZzDataLog.FileSize
import UlogCpp.ZzDataLog.Series
import UlogCpp.ZzDataLog.Attribution
import UlogCpp.ZzDataLog.Rotation
import UlogCpp.ZzDataLog.Numbering
import UlogCpp.ZzDataLog.Schedules
import UlogCpp.ZzDataLog.Instance
import UlogCpp.Tools.GenerateStructs
import UlogCpp.Tools.Placement
import UlogCpp.Programs.Model
import UlogCpp.Programs.Report
import UlogCpp.Programs.Info
import UlogCpp.Programs.Timestamps
import UlogCpp.Programs.Pipeline
