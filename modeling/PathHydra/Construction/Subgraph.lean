import PathHydra.Construction.Routing.Compile
import PathHydra.Construction.Routing.Request
import PathHydra.Framework.Machine
import PathHydra.Framework.SortedMap

/-!
# Subgraphs

A caller's own collection of node and edge handles.  Nodes and edges are kept in the order of their
identifiers; an edge brings its endpoints with it and a node takes its edges away.

`Subgraph.Reachable` are the collections a caller can build.  An operation that fails checks first
and changes nothing, so it does not occur there.
-/

namespace PathHydra

/-- `SubgraphError`. -/
inductive SubgraphError
  | edgeIdentityConflict (edge : EdgeId) (existingSource existingDestination : NodeId)
      (proposedSource proposedDestination : NodeId)
  | invalidPath (reason : String)
  deriving DecidableEq

/-- `EdgeHandle`. -/
structure EdgeHandle where
  edgeId : EdgeId
  source : NodeId
  destination : NodeId
  deriving DecidableEq

/-- `SubgraphHandles`. -/
structure SubgraphHandles where
  nodes : List NodeId
  edges : List EdgeHandle
  deriving DecidableEq

/-- `Subgraph`. -/
structure Subgraph where
  nodes : SortedMap NodeId Unit
  edges : SortedMap EdgeId (NodeId × NodeId)

namespace Subgraph

/-- `Subgraph::new`. -/
def new : Subgraph := ⟨.empty, .empty⟩

/-- `add_node`: the collection, and whether the node is new. -/
def addNode (s : Subgraph) (node : NodeId) : Subgraph × Bool :=
  ({ s with nodes := s.nodes.insert node () }, (s.nodes.get node).isNone)

/-- `validate_edge`. -/
def validateEdge (s : Subgraph) (edge : EdgeId) (source destination : NodeId) :
    Except SubgraphError Unit :=
  match s.edges.get edge with
  | some existing =>
    if existing ≠ (source, destination) then
      .error (.edgeIdentityConflict edge existing.1 existing.2 source destination)
    else .ok ()
  | none => .ok ()

/-- Puts an edge and its endpoints in. -/
def putEdge (s : Subgraph) (edge : EdgeId) (source destination : NodeId) : Subgraph where
  nodes := (s.nodes.insert source ()).insert destination ()
  edges := s.edges.insert edge (source, destination)

/-- `add_edge`: the collection, and whether the edge is new. -/
def addEdge (s : Subgraph) (edge : EdgeId) (source destination : NodeId) :
    Except SubgraphError (Subgraph × Bool) := do
  s.validateEdge edge source destination
  return (s.putEdge edge source destination, (s.edges.get edge).isNone)

/-- `add_edge_record`. -/
def addEdgeRecord (s : Subgraph) (edge : EdgeRecord) : Except SubgraphError (Subgraph × Bool) :=
  s.addEdge edge.id edge.source edge.destination

/-- The checks of `add_path` on the path alone. -/
def validatePath {F : Type} (path : RoutePath F) : Except SubgraphError Unit :=
  if path.steps = [] ∧ path.origin ≠ path.destination then
    .error (.invalidPath "a nontrivial path has no steps")
  else if path.steps.head?.any fun step => decide (step.source ≠ path.origin) then
    .error (.invalidPath "first step does not start at the path origin")
  else if path.steps.getLast?.any fun step => decide (step.destination ≠ path.destination) then
    .error (.invalidPath "last step does not end at the path destination")
  else if anyNeighbours (fun a b => decide (a.destination ≠ b.source)) path.steps then
    .error (.invalidPath "step endpoints are discontinuous")
  else .ok ()

/-- `add_path`. -/
def addPath {F : Type} (s : Subgraph) (path : RoutePath F) : Except SubgraphError Subgraph := do
  validatePath path
  path.steps.forM fun step => s.validateEdge step.edgeId step.source step.destination
  return path.steps.foldl (fun s step => s.putEdge step.edgeId step.source step.destination)
    { s with nodes := s.nodes.insert path.origin () }

/-- `union`. -/
def union (s other : Subgraph) : Except SubgraphError Subgraph := do
  other.edges.entries.forM fun e => s.validateEdge e.1 e.2.1 e.2.2
  return { nodes := other.nodes.entries.foldl (fun nodes e => nodes.insert e.1 e.2) s.nodes
           edges := other.edges.entries.foldl (fun edges e => edges.insert e.1 e.2) s.edges }

/-- `remove_edge`: the collection, and whether the edge was there. -/
def removeEdge (s : Subgraph) (edge : EdgeId) : Subgraph × Bool :=
  ({ s with edges := s.edges.erase edge }, (s.edges.get edge).isSome)

/-- `remove_node`: the collection, and whether the node was there. -/
def removeNode (s : Subgraph) (node : NodeId) : Subgraph × Bool :=
  ({ nodes := s.nodes.erase node
     edges := s.edges.filterMap (Option.guard fun e => decide (e.1 ≠ node) && decide (e.2 ≠ node)) },
    (s.nodes.get node).isSome)

/-- `handles`. -/
def handles (s : Subgraph) : SubgraphHandles where
  nodes := s.nodes.entries.map (·.1)
  edges := s.edges.entries.map fun e => ⟨e.1, e.2.1, e.2.2⟩

/-- The collections that operations build. -/
inductive Reachable : Subgraph → Prop
  | new : Reachable new
  | addNode {s : Subgraph} (node : NodeId) : Reachable s → Reachable (s.addNode node).1
  | addEdge {s s' : Subgraph} {edge : EdgeId} {source destination : NodeId} {inserted : Bool} :
    Reachable s → s.addEdge edge source destination = .ok (s', inserted) → Reachable s'
  | addEdgeRecord {s s' : Subgraph} {edge : EdgeRecord} {inserted : Bool} :
    Reachable s → s.addEdgeRecord edge = .ok (s', inserted) → Reachable s'
  | addPath {F : Type} {s s' : Subgraph} {path : RoutePath F} :
    Reachable s → s.addPath path = .ok s' → Reachable s'
  | union {s other s' : Subgraph} :
    Reachable s → Reachable other → s.union other = .ok s' → Reachable s'
  | removeEdge {s : Subgraph} (edge : EdgeId) : Reachable s → Reachable (s.removeEdge edge).1
  | removeNode {s : Subgraph} (node : NodeId) : Reachable s → Reachable (s.removeNode node).1

end Subgraph

/-! ## Methods

The same operations as the methods a caller invokes: statements that change `self` one after the
other, so that an error leaves behind what was done before it.  The calls of a program act on a pool
of collections, since `union` reads a second one. -/

/-- A method: it may fail, and what it did to `self` stays. -/
abbrev SubgraphMethod := ExceptT SubgraphError (StateM Subgraph)

namespace SubgraphMethod

/-- Calls a method on a collection. -/
def call {α : Type} (method : SubgraphMethod α) (s : Subgraph) :
    Except SubgraphError α × Subgraph :=
  method s

/-- `self.validate_edge(..)?`. -/
def check (edge : EdgeId) (source destination : NodeId) : SubgraphMethod Unit := do
  let s ← get
  match s.validateEdge edge source destination with
  | .ok () => pure ()
  | .error e => throw e

/-- `self.nodes.insert(..)`: whether the node is new. -/
def insertNode (node : NodeId) : SubgraphMethod Bool := do
  let s ← get
  set { s with nodes := s.nodes.insert node () }
  return (s.nodes.get node).isNone

/-- `self.edges.insert(..)`: whether the edge is new. -/
def insertEdge (edge : EdgeId) (source destination : NodeId) : SubgraphMethod Bool := do
  let s ← get
  set { s with edges := s.edges.insert edge (source, destination) }
  return (s.edges.get edge).isNone

/-- `add_node`. -/
def addNode (node : NodeId) : SubgraphMethod Bool := insertNode node

/-- `add_edge`. -/
def addEdge (edge : EdgeId) (source destination : NodeId) : SubgraphMethod Bool := do
  check edge source destination
  let inserted ← insertEdge edge source destination
  let _ ← insertNode source
  let _ ← insertNode destination
  return inserted

/-- `add_edge_record`. -/
def addEdgeRecord (edge : EdgeRecord) : SubgraphMethod Bool :=
  addEdge edge.id edge.source edge.destination

/-- The second loop of `add_path`. -/
def insertStep {F : Type} (step : PathStep F) : SubgraphMethod Unit := do
  let _ ← insertEdge step.edgeId step.source step.destination
  let _ ← insertNode step.source
  let _ ← insertNode step.destination

/-- `add_path`. -/
def addPath {F : Type} (path : RoutePath F) : SubgraphMethod Unit := do
  match Subgraph.validatePath path with
  | .ok () => pure ()
  | .error e => throw e
  path.steps.forM fun step => check step.edgeId step.source step.destination
  let _ ← insertNode path.origin
  path.steps.forM insertStep

/-- `union`. -/
def union (other : Subgraph) : SubgraphMethod Unit := do
  other.edges.entries.forM fun e => check e.1 e.2.1 e.2.2
  other.nodes.entries.forM fun e => do
    let _ ← insertNode e.1
  other.edges.entries.forM fun e => do
    let _ ← insertEdge e.1 e.2.1 e.2.2

/-- `remove_edge`. -/
def removeEdge (edge : EdgeId) : SubgraphMethod Bool := do
  let s ← get
  set { s with edges := s.edges.erase edge }
  return (s.edges.get edge).isSome

/-- `remove_node`. -/
def removeNode (node : NodeId) : SubgraphMethod Bool := do
  let s ← get
  let removed := (s.nodes.get node).isSome
  set { s with nodes := s.nodes.erase node }
  modify fun s => { s with
    edges := s.edges.filterMap
      (Option.guard fun e => decide (e.1 ≠ node) && decide (e.2 ≠ node)) }
  return removed

end SubgraphMethod

/-- The calls of a program on its collections; `make` is `new`, `default` or the like. -/
inductive SubgraphCall (F : Type)
  | make
  | clone (self : ℕ)
  | addNode (self : ℕ) (node : NodeId)
  | addEdge (self : ℕ) (edge : EdgeId) (source destination : NodeId)
  | addEdgeRecord (self : ℕ) (edge : EdgeRecord)
  | addPath (self : ℕ) (path : RoutePath F)
  | union (self other : ℕ)
  | removeEdge (self : ℕ) (edge : EdgeId)
  | removeNode (self : ℕ) (node : NodeId)

namespace SubgraphCall

/-- Calls a method on one collection of the pool. -/
def on {α : Type} (pool : List Subgraph) (self : ℕ) (method : SubgraphMethod α) :
    Option (List Subgraph × Option SubgraphError) :=
  match pool[self]? with
  | none => none
  | some s =>
    match method.call s with
    | (.ok _, s') => some (pool.set self s', none)
    | (.error e, s') => some (pool.set self s', some e)

/-- One call: the pool afterwards, and the error if there was one.  The borrows of `union` keep
`self` and `other` apart. -/
def step {F : Type} (pool : List Subgraph) :
    SubgraphCall F → Option (List Subgraph × Option SubgraphError)
  | .make => some (pool ++ [.new], none)
  | .clone self =>
    match pool[self]? with
    | none => none
    | some s => some (pool ++ [s], none)
  | .addNode self node => on pool self (SubgraphMethod.addNode node)
  | .addEdge self edge source destination =>
    on pool self (SubgraphMethod.addEdge edge source destination)
  | .addEdgeRecord self edge => on pool self (SubgraphMethod.addEdgeRecord edge)
  | .addPath self path => on pool self (SubgraphMethod.addPath path)
  | .union self other =>
    if self = other then none
    else match pool[other]? with
      | none => none
      | some t => on pool self (SubgraphMethod.union t)
  | .removeEdge self edge => on pool self (SubgraphMethod.removeEdge edge)
  | .removeNode self node => on pool self (SubgraphMethod.removeNode node)

end SubgraphCall

/-- A program that calls methods on its collections. -/
def subgraphMachine (F : Type) :
    Machine (List Subgraph) (SubgraphCall F) (Option SubgraphError) :=
  ⟨SubgraphCall.step⟩

end PathHydra
