import Aprs.Timestamp
import Aprs.Base91
import Aprs.Callsign
import Aprs.Text.Blank
import Aprs.Text.Quoted
import Aprs.Binary
import Aprs.Decimal
import Aprs.Decimal.Places
import Aprs.Decimal.Shortest
import Aprs.Decimal.Significant
import Aprs.Quantity
import Aprs.Error
import Aprs.Options
import Aprs.Record
import Aprs.Altitude
import Aprs.Dao
import Aprs.Extension
import Aprs.Header
import Aprs.Telemetry
import Aprs.Telemetry.Definition
import Aprs.Comment
import Aprs.Message
import Aprs.Position
import Aprs.Line
import Aprs.Json
import Aprs.Json.Reader
import Aprs.Json.Writer
import Aprs.Json.Fields
import Aprs.Json.Number
import Aprs.Packet.Document
import Aprs.Distance
import Aprs.Options.File
import Aprs.CommandLine
import Aprs.Main
import Aprs.Proofs.Line
import Aprs.Proofs.Forwarding
import Aprs.Proofs.Uncompressed
import Aprs.Proofs.Filling
import Aprs.Proofs.RecordShape
import Aprs.Proofs.Clock
import Aprs.Proofs.PositionKinds
import Aprs.Proofs.ExactValues
import Aprs.Proofs.CommentTags
import Aprs.Proofs.MicECoordinates
import Aprs.Proofs.MicEEncoding
import Aprs.Proofs.Base91
import Aprs.Proofs.CommentTelemetry
import Aprs.Proofs.PositionValues
import Aprs.Proofs.Globe
import Aprs.Proofs.Destinations
import Aprs.Proofs.Nesting
import Aprs.Proofs.PacketDocument
import Aprs.Proofs.ReadBack
import Aprs.Proofs.AddressedMessages
import Aprs.Proofs.HeaderGrammar
import Aprs.Proofs.Conversions
import Aprs.Proofs.UnreachableErrors
import Aprs.Proofs.InputLines
import Aprs.Proofs.WeatherText
import Aprs.Proofs.OutputLines
import Aprs.Proofs.Utf8Lines
import Aprs.Proofs.ByteOffsets
import Aprs.Proofs.Spellings
import Aprs.Proofs.SlicedFields
import Aprs.Proofs.SlicedComments
import Aprs.Proofs.SlicedMicE
import Aprs.Proofs.SlicedReports
import Aprs.Proofs.Passcode
import Aprs.Proofs.WeatherMeasures
import Aprs.Proofs.AmbiguityBox
import Aprs.Proofs.PositionEncoding
import Aprs.Proofs.StepwiseFilling
import Aprs.Proofs.CompressedEncoding
import Aprs.Proofs.MicEGrammar
import Aprs.Proofs.UnknownTypes
import Aprs.Proofs.CommentText
import Aprs.Proofs.TelemetryBlocks
import Aprs.Proofs.StrippedTags
import Aprs.Proofs.DataExtensions
import Aprs.Proofs.MicEAltitude
import Aprs.Proofs.CivilCalendar
import Aprs.Proofs.Timestamps
import Aprs.Proofs.Identifiers
import Aprs.Proofs.Bulletins
import Aprs.Proofs.Base91Values
import Aprs.Proofs.Coefficients
import Aprs.Proofs.ChannelDefinitions
import Aprs.Proofs.ChannelEquations
