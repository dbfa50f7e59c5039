import PathHydra.Framework.MachineInt
import PathHydra.Framework.Outcome
import PathHydra.Framework.ShortestWalks
import PathHydra.Framework.GreedyOrder
import PathHydra.Framework.Binary64
import PathHydra.Framework.Machine
import PathHydra.Framework.Ownership
import PathHydra.Framework.SortedMap
import PathHydra.Framework.Index
import PathHydra.Framework.ByteCodec
import PathHydra.Framework.Csr
import PathHydra.Construction.Core
import PathHydra.Construction.Routing.Image
import PathHydra.Construction.Routing.Request
import PathHydra.Construction.Routing.Cpu
import PathHydra.Construction.Routing.WorkingSet
import PathHydra.Construction.Routing.Compile
import PathHydra.Construction.Bundle.Layout
import PathHydra.Construction.Bundle.Manifest
import PathHydra.Construction.Bundle.Reader
import PathHydra.Construction.Bundle.Compiler
import PathHydra.Construction.Bundle.Cache
import PathHydra.Construction.Store.Codec
import PathHydra.Construction.Store.Database
import PathHydra.Construction.Store.Records
import PathHydra.Construction.Store.Insert
import PathHydra.Construction.Store.Confirm
import PathHydra.Construction.Store.Remove
import PathHydra.Construction.Store.Validate
import PathHydra.Construction.Store.Catalog
import PathHydra.Construction.Api.Evidence
import PathHydra.Construction.Api.Dto
import PathHydra.Construction.Subgraph
import PathHydra.Construction.Store.Batch
import PathHydra.Construction.Engine.Hydration
import PathHydra.Construction.Api.Hydration
import PathHydra.Construction.Api.Handles
import PathHydra.Construction.Engine.Lifecycle
import PathHydra.Construction.Engine.Shutdown
import PathHydra.Construction.Engine.Publication
import PathHydra.Properties.Routing.Image
import PathHydra.Properties.Routing.Compile
import PathHydra.Properties.Routing.Walks
import PathHydra.Properties.Routing.Search
import PathHydra.Properties.Routing.Turns
import PathHydra.Properties.Routing.Paths
import PathHydra.Properties.Routing.Results
import PathHydra.Properties.Routing.Independence
import PathHydra.Properties.Routing.Ties
import PathHydra.Properties.Bundle.Open
import PathHydra.Properties.Bundle.Codec
import PathHydra.Properties.Bundle.Denotes
import PathHydra.Properties.Bundle.Panics
import PathHydra.Properties.Bundle.Accounting
import PathHydra.Properties.Bundle.Cache
import PathHydra.Properties.Bundle.Pressure
import PathHydra.Properties.Store.Codec
import PathHydra.Properties.Store.Tables
import PathHydra.Properties.Store.Reads
import PathHydra.Properties.Store.Atomic
import PathHydra.Properties.Store.Invariant
import PathHydra.Properties.Store.Validate
import PathHydra.Properties.Store.Batches
import PathHydra.Properties.Store.Insert
import PathHydra.Properties.Store.Remove
import PathHydra.Properties.Store.Selection
import PathHydra.Properties.Store.Confirm
import PathHydra.Properties.Store.Reachable
import PathHydra.Properties.Store.Identity
import PathHydra.Properties.Store.Graph
import PathHydra.Properties.Store.Provisional
import PathHydra.Properties.Store.Sound
import PathHydra.Properties.Store.Cascade
import PathHydra.Properties.Store.Closure
import PathHydra.Properties.Store.Simulation
import PathHydra.Properties.Store.Pieces
import PathHydra.Properties.Api.Tally
import PathHydra.Properties.Api.Profile
import PathHydra.Properties.Api.Handles
import PathHydra.Properties.Engine.Hydration
import PathHydra.Properties.Api.Hydration
import PathHydra.Properties.Api.Assembly
import PathHydra.Properties.Api.Evidence
import PathHydra.Properties.Engine.Lifecycle
import PathHydra.Properties.Engine.Shutdown
import PathHydra.Properties.Engine.Cancellation
import PathHydra.Properties.Engine.Durable
import PathHydra.Properties.Engine.Publication
import PathHydra.Properties.Engine.Published
import PathHydra.Properties.Engine.Freshness
import PathHydra.Properties.Engine.Retirement
import PathHydra.Properties.Engine.Leaks
import PathHydra.Properties.Routing.Budget
import PathHydra.Properties.Routing.Polls
import PathHydra.Properties.Routing.Duplicates
import PathHydra.Properties.Routing.WorkingSet
import PathHydra.Construction.Cuda.Output
import PathHydra.Construction.Api.Diagnostics
import PathHydra.Properties.Api.Executor
import PathHydra.Construction.Store.Popularity
import PathHydra.Properties.Store.Canonical
import PathHydra.Properties.Store.Popularity
import PathHydra.Properties.Bundle.Manifest
import PathHydra.Properties.Engine.Admission
import PathHydra.Construction.Api.Scan
import PathHydra.Construction.Api.Codec
import PathHydra.Properties.Api.Scan
import PathHydra.Construction.Api.Confirm
import PathHydra.Properties.Api.Codec
import PathHydra.Properties.Api.Confirm
import PathHydra.Construction.Store.Paths
import PathHydra.Properties.Store.Paths
import PathHydra.Construction.Engine.HydrationCall
import PathHydra.Properties.Engine.HydrationCall
import PathHydra.Construction.Engine.Recovery
import PathHydra.Properties.Engine.Recovery
import PathHydra.Construction.Api.Requests
import PathHydra.Properties.Api.Requests
import PathHydra.Construction.Cuda.Worker
import PathHydra.Properties.Cuda.Worker
import PathHydra.Properties.Cuda.Answers
import PathHydra.Construction.Engine.PathHydration
import PathHydra.Framework.Simulation
import PathHydra.Properties.Engine.Layers
import PathHydra.Properties.Engine.PathHydration
import PathHydra.Properties.Bundle.Chunked
