import XrDelivery.Decimal.Shortest
import XrDelivery.Decimal.Layout
import XrDelivery.Decimal.Read
import XrDelivery.Text.Blank
import XrDelivery.Text.Invisible
import XrDelivery.Text.Quoted
import XrDelivery.Random.ChaCha
import XrDelivery.Random.Draw
import XrDelivery.SetupError
import XrDelivery.Frame
import XrDelivery.Wire.Header
import XrDelivery.Wire.Datagram
import XrDelivery.Directory
import XrDelivery.Bounds
import XrDelivery.Catalog.Basic
import XrDelivery.Catalog.Csv
import XrDelivery.Catalog.Synthetic
import XrDelivery.Jitter
import XrDelivery.Pacer
import XrDelivery.Deadline
import XrDelivery.Reception.Tracker
import XrDelivery.Reception.Loss
import XrDelivery.Quality.Stream
import XrDelivery.Quality.Global
import XrDelivery.Receiver
import XrDelivery.Sender
import XrDelivery.Link.Profile
import XrDelivery.Link.Walk
import XrDelivery.Link.Timeline
import XrDelivery.Link.Channel
import XrDelivery.Link.DeliveryQueue
import XrDelivery.Report.FrameLog
import XrDelivery.Report.Streams
import XrDelivery.Toml.Value
import XrDelivery.Toml.Lexeme
import XrDelivery.Toml.Reader
import XrDelivery.Config.Input
import XrDelivery.Config.Resolved
import XrDelivery.Simulation
import XrDelivery.Json.Value
import XrDelivery.Json.Forms
import XrDelivery.Main
import XrDelivery.Proofs.WireCodec
import XrDelivery.Proofs.DatagramFormat
import XrDelivery.Proofs.Reassembly
import XrDelivery.Proofs.Fragmentation
import XrDelivery.Proofs.SenderRun
import XrDelivery.Proofs.LossDetection
import XrDelivery.Proofs.ReceiverRun
import XrDelivery.Proofs.EndToEnd
import XrDelivery.Proofs.Publication
import XrDelivery.Proofs.WholeRun
import XrDelivery.Proofs.FrameEvents
import XrDelivery.Proofs.ReceiverLifecycle
import XrDelivery.Proofs.DoubleOrder
import XrDelivery.Proofs.SenderProtocol
import XrDelivery.Proofs.WalkBounds
import XrDelivery.Proofs.CatalogText
import XrDelivery.Proofs.ArrivalOrder
import XrDelivery.Proofs.LinkTiming
import XrDelivery.Proofs.StreamTiming
import XrDelivery.Proofs.QualityFold
import XrDelivery.Proofs.LossReport
import XrDelivery.Proofs.ReceiverCounters
import XrDelivery.Proofs.FragmentFlight
import XrDelivery.Proofs.TwoPhaseRun
import XrDelivery.Proofs.DatagramCounts
import XrDelivery.Proofs.FrameLogRows
import XrDelivery.Proofs.DoubleValues
import XrDelivery.Proofs.SignedOrder
import XrDelivery.Proofs.WalkRanges
import XrDelivery.Proofs.SweepShape
import XrDelivery.Proofs.StableQueue
import XrDelivery.Proofs.ResolvedUsers
import XrDelivery.Proofs.StreamTable
import XrDelivery.Proofs.StreamSeeds
import XrDelivery.Proofs.PacerSchedule
import XrDelivery.Proofs.NearestRounding
import XrDelivery.Proofs.TimelineLookup
import XrDelivery.Proofs.DoubleMagnitudes
import XrDelivery.Proofs.JitterBounds
import XrDelivery.Proofs.LinkOccupancy
