import LineGateway.Foundation.Run
import LineGateway.Foundation.Program
import LineGateway.Foundation.Behaviour
import LineGateway.Foundation.Guarantee
import LineGateway.Foundation.Progress
import LineGateway.Foundation.Table
import LineGateway.Foundation.Text
import LineGateway.Foundation.Calendar
import LineGateway.Foundation.Pattern
import LineGateway.Foundation.Codec
import LineGateway.Foundation.Outbox
import LineGateway.Foundation.Json
import LineGateway.Foundation.JsonParse
import LineGateway.Foundation.Transaction
import LineGateway.Config.AsciiText
import LineGateway.Opcua.Value
import LineGateway.Opcua.SerializeVariant
import LineGateway.Opcua.SessionManager
import LineGateway.Opcua.SessionTiming
import LineGateway.Traceability.PartId
import LineGateway.Traceability.PartIdFormat
import LineGateway.Traceability.PartReferenceForm
import LineGateway.Traceability.PartSheet
import LineGateway.Traceability.Cache
import LineGateway.Traceability.CacheSpec
import LineGateway.Traceability.CacheCodec
import LineGateway.Traceability.Database
import LineGateway.Traceability.Archive
import LineGateway.Traceability.ArchiveRefinement
import LineGateway.Traceability.ArchiveDelivery
import LineGateway.Traceability.DrainRun
import LineGateway.Traceability.Handler.Effects
import LineGateway.Traceability.Handler.Initialize
import LineGateway.Traceability.Handler.CreatePartId
import LineGateway.Traceability.Handler.ReadPartSheet
import LineGateway.Traceability.Handler.SavePartSheets
import LineGateway.Traceability.Handler.HandleRequest
import LineGateway.Traceability.Handler.Install
import LineGateway.Traceability.Creations
import LineGateway.Traceability.Capacity
import LineGateway.Traceability.SaveRequest
import LineGateway.Traceability.ReadRequest
import LineGateway.Traceability.MissingTables
import LineGateway.Traceability.Handshake
import LineGateway.Traceability.Attribution
import LineGateway.Traceability.Service
import LineGateway.Traceability.Answered
import LineGateway.Traceability.TypeCheck
import LineGateway.Traceability.Replies
import LineGateway.Traceability.ResponseCodes
import LineGateway.Traceability.Lengths
import LineGateway.Traceability.Discovery
import LineGateway.Traceability.Sequence
import LineGateway.Traceability.Batch
import LineGateway.Traceability.BrowseNames
import LineGateway.Traceability.Line
import LineGateway.Traceability.Admission
import LineGateway.Traceability.ValidIds
import LineGateway.Traceability.HandlerTasks
import LineGateway.Traceability.Stamping
import LineGateway.Gateway.RunMain
import LineGateway.Gateway.Refinement
import LineGateway.Gateway.Startup
import LineGateway.Gateway.Durability
import LineGateway.Gateway.Shutdown
import LineGateway.Gateway.Remaining
import LineGateway.Gateway.Termination
import LineGateway.Gateway.Answers
import LineGateway.Gateway.BackPressure
import LineGateway.Gateway.StartSession
import LineGateway.Gateway.Attempts
import LineGateway.Gateway.RequestTasks
