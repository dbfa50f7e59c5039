import PathHydra.Framework.Binary64
import PathHydra.Construction.Routing.Request

/-!
# Answers of the CUDA crate

What a route on the device returns: its error, or the response together with the counters the
kernels kept.  Durations, byte counts and the names of fixed strategies are left out; of
`first_destination_duration` the presence is kept, as in the CPU search.
-/

namespace PathHydra

/-- `CudaFailureKind`. -/
inductive CudaFailureKind
  | unavailable
  | incompatible
  | ptx
  | context
  | module
  | allocation
  | upload
  | imageAccess
  | admission
  | launch
  | synchronization
  | kernelInvariant
  | deviceLost
  | worker
  deriving DecidableEq

/-- `CudaError`. -/
structure CudaError where
  kind : CudaFailureKind
  message : String
  deriving DecidableEq

/-- `CudaRouteDiagnostics`, as far as later checks read it. -/
structure CudaRouteDiagnostics where
  examinedEdges : ℕ
  relaxationAttempts : ℕ
  relaxationUpdates : ℕ
  phases : ℕ
  destinationCountChecked : ℕ
  firstDestination : Bool
  deriving DecidableEq

/-- `CudaRouteOutput`. -/
structure CudaRouteOutput (F : Type*) where
  response : RoutingResponse F
  diagnostics : CudaRouteDiagnostics
  deriving DecidableEq

end PathHydra
