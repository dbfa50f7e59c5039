import PathHydra.Construction.Engine.Publication

/-!
# Recovery of a corrupt image

A route that cannot read its image rebuilds the routing image before it returns its error.  It does
so from within `route_with_cancellation`, which holds the execution lease of the route until it
returns, so the lease is still counted while the rebuild waits for retirement capacity.

`recovery` is the machine of publication in which one knows when the writer is the thread of such a
route.  The lease of that route is left alone until the rebuild has returned; leases of one image
are alike, so the lease is given by its image.
-/

namespace PathHydra

/-- The engine, and the lease of the route whose thread is the writer. -/
structure RecoverySystem where
  engine : PublicationSystem
  recovering : Option ExecutionImage

/-- A route recovers from an `ImageAccess` failure, or anything else happens. -/
inductive RecoveryAction
  | engine (action : PublicationAction)
  | recover (index : ℕ)

namespace RecoverySystem

/-- The lease of the recovering route is still there after the action. -/
def keepsOwn (s : RecoverySystem) : PublicationAction → Bool
  | .dropLease index => s.recovering.all fun own => (s.engine.leases.eraseIdx index).contains own
  | _ => true

/-- The rebuild of the recovering route has returned when there is no writer any more. -/
def settle (s : RecoverySystem) (engine : PublicationSystem) : RecoverySystem :=
  ⟨engine, if engine.writer.isSome then s.recovering else none⟩

end RecoverySystem

/-- The engine whose routes recover from corruption of the image. -/
def recovery (config : PublicationConfig) : Machine RecoverySystem RecoveryAction Unit where
  step s action :=
    match action with
    | .engine action =>
      if s.keepsOwn action then
        ((publication config).step s.engine action).map fun r => (s.settle r.1, ())
      else none
    | .recover index =>
      match s.engine.leases[index]? with
      | none => none
      | some own =>
        ((publication config).step s.engine .beginRebuild).map fun r => (⟨r.1, some own⟩, ())

end PathHydra
