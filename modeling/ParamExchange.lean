import ParamExchange.Cluster.Basic
import ParamExchange.Cluster.Crew
import ParamExchange.Config.Reader
import ParamExchange.Config.Server
import ParamExchange.Config.Worker
import ParamExchange.Identity.Basic
import ParamExchange.Identity.Environment
import ParamExchange.Init.Initializer
import ParamExchange.Init.Sampler
import ParamExchange.Json.Reader
import ParamExchange.Json.Record
import ParamExchange.Json.Writer
import ParamExchange.Key.Basic
import ParamExchange.Kind
import ParamExchange.Network.Address
import ParamExchange.Network.Links
import ParamExchange.Network.Route
import ParamExchange.Network.Transport
import ParamExchange.Number.Scalar
import ParamExchange.Number.Shortest
import ParamExchange.Number.Single
import ParamExchange.Proofs.Cluster.Attending
import ParamExchange.Proofs.Cluster.Sharding
import ParamExchange.Proofs.Json.Records
import ParamExchange.Proofs.Json.Values
import ParamExchange.Proofs.Network.Spans
import ParamExchange.Proofs.Server.Protocol
import ParamExchange.Proofs.Store.Constant
import ParamExchange.Proofs.Store.Requests
import ParamExchange.Proofs.Store.Slices
import ParamExchange.Proofs.Text.Utf8
import ParamExchange.Proofs.Wire.Frames
import ParamExchange.Proofs.Wire.Octets
import ParamExchange.Proofs.Wire.Pieces
import ParamExchange.Proofs.Wire.RoundTrip
import ParamExchange.Random.Normal
import ParamExchange.Random.Stream
import ParamExchange.Random.Uniform
import ParamExchange.Random.Ziggurat
import ParamExchange.Room
import ParamExchange.Server.Basic
import ParamExchange.Server.Service
import ParamExchange.Server.Session
import ParamExchange.Store.Basic
import ParamExchange.Store.Build
import ParamExchange.Store.Rule
import ParamExchange.Store.Table
import ParamExchange.Tensor.Basic
import ParamExchange.Tensor.Shape
import ParamExchange.Text.Blank
import ParamExchange.Text.Decimal
import ParamExchange.Text.Hidden
import ParamExchange.Text.Quoted
import ParamExchange.Text.Utf8
import ParamExchange.Transport.Basic
import ParamExchange.Wire.Codec
import ParamExchange.Wire.Control
import ParamExchange.Wire.Frame
import ParamExchange.Wire.Message
import ParamExchange.Wire.Octets
import ParamExchange.Worker.Accumulator
import ParamExchange.Worker.Backend
import ParamExchange.Worker.Basic
import ParamExchange.Worker.Client
import ParamExchange.Worker.Convention
import ParamExchange.Worker.Epoch
import ParamExchange.Worker.Error
import ParamExchange.Worker.Reduction
import ParamExchange.Worker.Shards
import ParamExchange.Worker.Trainer
import ParamExchange.Proofs.Store.Isolation
import ParamExchange.Proofs.Network.Matching
import ParamExchange.Proofs.Cluster.Answered
import ParamExchange.Proofs.Store.Lengths
import ParamExchange.Proofs.Network.Confusion
import ParamExchange.Proofs.Cluster.Lengths
import ParamExchange.Proofs.Worker.Reduction
import ParamExchange.Proofs.Worker.Shards
import ParamExchange.Proofs.Worker.Work
import ParamExchange.Proofs.Worker.Cuts
import ParamExchange.Proofs.Worker.Deeds
import ParamExchange.Proofs.Worker.Sums
import ParamExchange.Proofs.Worker.Steps
import ParamExchange.Proofs.Worker.Blocks
import ParamExchange.Proofs.Worker.Epochs
import ParamExchange.Proofs.Worker.Coverage
import ParamExchange.Proofs.Key.Partners
import ParamExchange.Proofs.Tensor.Layout
import ParamExchange.Proofs.Worker.Exchanges
import ParamExchange.Proofs.Worker.Alike
import ParamExchange.Proofs.Worker.Conventions
import ParamExchange.Proofs.Worker.BulkOne
import ParamExchange.Proofs.Worker.Copies
import ParamExchange.Proofs.Worker.Coherence
import ParamExchange.Proofs.Cluster.Copies
import ParamExchange.Proofs.Cluster.Coherence
import ParamExchange.Proofs.Network.Partition
import ParamExchange.Proofs.Init.Drawing
import ParamExchange.Proofs.Worker.Merges
import ParamExchange.Proofs.Store.Invariant
import ParamExchange.Proofs.Store.Interleaving
import ParamExchange.Proofs.Store.Course
import ParamExchange.Proofs.Store.Refusals
import ParamExchange.Proofs.Json.Cuts
import ParamExchange.Proofs.Wire.Places
import ParamExchange.Proofs.Wire.Grammar
import ParamExchange.Proofs.Wire.Faults
import ParamExchange.Proofs.Worker.Accumulation
import ParamExchange.Proofs.Network.Acceptance
import ParamExchange.Proofs.Server.Guard
import ParamExchange.Proofs.Init.Validation
import ParamExchange.Proofs.Store.Drawn
import ParamExchange.Proofs.Key.Grammar
import ParamExchange.Proofs.Key.Plain
import ParamExchange.Proofs.Worker.Guards
import ParamExchange.Proofs.Worker.Shapes
import ParamExchange.Proofs.Worker.Partners
import ParamExchange.Proofs.Server.RankSize
import ParamExchange.Proofs.Init.Seeds
import ParamExchange.Proofs.Tensor.Views
import ParamExchange.Proofs.Worker.Layouts
import ParamExchange.Proofs.Wire.Goodbyes
import ParamExchange.Proofs.Network.Departure
