import PathHydra.Construction.Api.Evidence
import PathHydra.Construction.Engine.Executor

/-!
# The executor rules of the API

`RuntimeDiagnosticsDto::validate_boundary` checks that the evidence of an executor's choice is of
one piece.  As with the evidence of a search, the rules are stated on the values of the engine,
which the transfer objects hold field by field, and the comparisons of durations are left out.
-/

namespace PathHydra

/-- The rule for each executor. -/
def RuntimeDiagnostics.validateAnswer (d : RuntimeDiagnostics) : Bool :=
  match d.executor with
  | .nvidiaCuda =>
    !(!d.attemptedCuda || d.cuda.isNone || d.partitionedCpu || d.cudaFallbackReason.isSome)
  | .cpuReference => !d.cuda.isSome

/-- The rules for a fallback. -/
def RuntimeDiagnostics.validateFallback (d : RuntimeDiagnostics) : Bool :=
  !(decide (d.selectionReason = .cpuFallback) != d.cudaFallbackReason.isSome ||
    (d.cudaFallbackReason.isSome && !d.attemptedCuda))

/-- The executor rules of `RuntimeDiagnosticsDto::validate_boundary`. -/
def RuntimeDiagnostics.validateExecutor (d : RuntimeDiagnostics) : Bool :=
  d.validateAnswer && d.validateFallback

end PathHydra
