import DeviceLink.Ascending
import DeviceLink.Cli.Arguments
import DeviceLink.Cli.Run
import DeviceLink.Codec.Area
import DeviceLink.Codec.Data
import DeviceLink.Codec.Error
import DeviceLink.Codec.Notice
import DeviceLink.Codec.Payload
import DeviceLink.Codec.Record
import DeviceLink.Codec.Registration
import DeviceLink.Codec.Scalar
import DeviceLink.Codec.Subdevice
import DeviceLink.Codec.Transfer
import DeviceLink.Connectivity
import DeviceLink.Device
import DeviceLink.Double.Basic
import DeviceLink.Double.Decimal
import DeviceLink.Double.Layout
import DeviceLink.Double.Shortest
import DeviceLink.Envelope
import DeviceLink.Feed
import DeviceLink.Firmware
import DeviceLink.Json.Basic
import DeviceLink.Json.Error
import DeviceLink.Json.Number
import DeviceLink.Json.Reader
import DeviceLink.Json.Shape
import DeviceLink.Json.Text
import DeviceLink.Log
import DeviceLink.Message
import DeviceLink.MessageType
import DeviceLink.Outbox
import DeviceLink.Outline.Basic
import DeviceLink.Outline.Message
import DeviceLink.Parameter
import DeviceLink.Power
import DeviceLink.Reading
import DeviceLink.Retry.Handler
import DeviceLink.Retry.Session
import DeviceLink.Schema.Basic
import DeviceLink.Schema.Payload
import DeviceLink.Settings
import DeviceLink.Store.Directory
import DeviceLink.Store.Disk
import DeviceLink.Store.Memory
import DeviceLink.Store.Order
import DeviceLink.Text.Base64
import DeviceLink.Text.Literal
import DeviceLink.Text.Numeral
import DeviceLink.Text.Utf8
import DeviceLink.Text.Visible
import DeviceLink.Topic
import DeviceLink.Transfer
import DeviceLink.Value
import DeviceLink.Violation
import DeviceLink.Main
import DeviceLink.Proofs.Ascending
import DeviceLink.Proofs.Channel
import DeviceLink.Proofs.Cli
import DeviceLink.Proofs.Codec.Acceptance
import DeviceLink.Proofs.Codec.Area
import DeviceLink.Proofs.Codec.BareText
import DeviceLink.Proofs.Codec.Chunk
import DeviceLink.Proofs.Codec.Conformance
import DeviceLink.Proofs.Codec.Declaration
import DeviceLink.Proofs.Codec.Elements
import DeviceLink.Proofs.Codec.FeedFormat
import DeviceLink.Proofs.Codec.FeedValues
import DeviceLink.Proofs.Codec.Grouping
import DeviceLink.Proofs.Codec.Listening
import DeviceLink.Proofs.Codec.ParameterFormat
import DeviceLink.Proofs.Codec.ParameterValues
import DeviceLink.Proofs.Codec.PayloadShape
import DeviceLink.Proofs.Codec.Query
import DeviceLink.Proofs.Codec.Record
import DeviceLink.Proofs.Codec.Registration
import DeviceLink.Proofs.Codec.Relay
import DeviceLink.Proofs.Codec.Reporting
import DeviceLink.Proofs.Codec.Routing
import DeviceLink.Proofs.Codec.Scalar
import DeviceLink.Proofs.Codec.Sending
import DeviceLink.Proofs.Codec.SingleValue
import DeviceLink.Proofs.Codec.Subdevice
import DeviceLink.Proofs.Codec.Validity
import DeviceLink.Proofs.Double.Finite
import DeviceLink.Proofs.Double.Numeral
import DeviceLink.Proofs.Double.Rounding
import DeviceLink.Proofs.Double.Shortest
import DeviceLink.Proofs.Envelope
import DeviceLink.Proofs.Format
import DeviceLink.Proofs.Interpretation
import DeviceLink.Proofs.Json.Double
import DeviceLink.Proofs.Json.Legible
import DeviceLink.Proofs.Json.Literal
import DeviceLink.Proofs.Json.Members
import DeviceLink.Proofs.Json.Narrowing
import DeviceLink.Proofs.Json.Natural
import DeviceLink.Proofs.Json.Number
import DeviceLink.Proofs.Json.Ordered
import DeviceLink.Proofs.Json.Quoted
import DeviceLink.Proofs.Json.Record
import DeviceLink.Proofs.Json.Shape
import DeviceLink.Proofs.Json.Value
import DeviceLink.Proofs.Kind
import DeviceLink.Proofs.Parameter
import DeviceLink.Proofs.Reading
import DeviceLink.Proofs.Retry.Fate
import DeviceLink.Proofs.Retry.Independence
import DeviceLink.Proofs.Retry.Invariant
import DeviceLink.Proofs.Retry.Run
import DeviceLink.Proofs.Retry.Schedule
import DeviceLink.Proofs.Retry.Timeline
import DeviceLink.Proofs.Retry.Tracking
import DeviceLink.Proofs.Store.Contents
import DeviceLink.Proofs.Store.Entry
import DeviceLink.Proofs.Store.Eviction
import DeviceLink.Proofs.Store.Opening
import DeviceLink.Proofs.Store.Reachable
import DeviceLink.Proofs.Store.Refinement
import DeviceLink.Proofs.Store.Retention
import DeviceLink.Proofs.Schema
import DeviceLink.Proofs.Schema.Keywords
import DeviceLink.Proofs.Spelling
import DeviceLink.Proofs.Stored
import DeviceLink.Proofs.Text.Base64
import DeviceLink.Proofs.Text.Decode
import DeviceLink.Proofs.Text.Numeral
import DeviceLink.Proofs.Text.Space
import DeviceLink.Proofs.Text.Utf8
import DeviceLink.Proofs.Validity
