import LossRelay.Span
import LossRelay.Decimal.Fixed
import LossRelay.Decimal.Notation
import LossRelay.Text.Quoted
import LossRelay.Json.Typed
import LossRelay.Address.Parse
import LossRelay.Config.Policy
import LossRelay.Config.Relay
import LossRelay.Config.Route
import LossRelay.Policy.Choice
import LossRelay.Trace.Queue
import LossRelay.Relay.Session
import LossRelay.Relay.TraceLog
import LossRelay.CommandLine.Startup
import LossRelay.Main
import LossRelay.Proofs.Nanoseconds
import LossRelay.Proofs.Policy.BlockRun
import LossRelay.Proofs.Relay.Books
import LossRelay.Proofs.Relay.Deliveries
import LossRelay.Proofs.Relay.Account
import LossRelay.Proofs.Relay.Passage
import LossRelay.Proofs.Relay.History
import LossRelay.Proofs.Relay.Attempts
import LossRelay.Proofs.Relay.Counters
import LossRelay.Proofs.Relay.GivingUp
import LossRelay.Proofs.Relay.Likeness
import LossRelay.Proofs.Relay.TraceIndependence
import LossRelay.Proofs.Relay.AnswerIndependence
import LossRelay.Proofs.Relay.FailureTransparency
import LossRelay.Proofs.Relay.Restart
import LossRelay.Proofs.Relay.Entries
import LossRelay.Proofs.Relay.TraceDelivery
import LossRelay.Proofs.Policy.TraceReading
import LossRelay.Proofs.Policy.TraceTruth
import LossRelay.Proofs.Relay.MetricsAgree
import LossRelay.Proofs.Json.Layout
import LossRelay.Proofs.Json.Writing
import LossRelay.Proofs.Config.RoundTrip
import LossRelay.Proofs.Trace.Losses
import LossRelay.Proofs.Relay.Moments
import LossRelay.Proofs.Relay.Exactness
import LossRelay.Proofs.Json.Conversion
import LossRelay.Proofs.Config.Given
import LossRelay.Proofs.CommandLine.Overriding
import LossRelay.Proofs.Json.Literals
import LossRelay.Proofs.Json.Values
import LossRelay.Proofs.Json.Mentions
import LossRelay.Proofs.Config.Documents
import LossRelay.Proofs.Policy.Calibration
import LossRelay.Proofs.Text.Parts
import LossRelay.Proofs.Config.RouteGrammar
import LossRelay.Proofs.Config.RouteText
import LossRelay.Proofs.Json.Entries
import LossRelay.Proofs.Config.Unnamed
import LossRelay.Proofs.Relay.BooksOnly
import LossRelay.Proofs.Trace.Histories
import LossRelay.Proofs.Trace.Batches
import LossRelay.Proofs.Relay.PacketLines
import LossRelay.Proofs.Relay.StricterRule
import LossRelay.Proofs.CommandLine.QueueSize
import LossRelay.Proofs.Policy.BoundaryTest
import LossRelay.Proofs.Address.Numbers
import LossRelay.Proofs.Address.RoundTrip
import LossRelay.Proofs.Json.Complete
import LossRelay.Proofs.Config.CompleteDocuments
import LossRelay.Proofs.Trace.Lines
