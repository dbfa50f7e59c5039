import PathHydra.Framework.FileTree

/-!
# Paths of operations

`validateOperationalPaths` resolves the paths of the database, the images, a checkpoint, a restore
and the scratch space, and refuses two that are equal or nested.  Parent components are removed from
the text of a path before its links are resolved; of a path that does not exist the longest existing
ancestor is resolved and the rest is appended.

The operating system is a tree that does not change, a current directory, and the number of links it
follows.  Paths are those of a system without prefixes; a listing does not fail.
-/

namespace PathHydra

/-- `ResourceKind`. -/
inductive ResourceKind
  | database
  | routingImages
  | checkpoint
  | restore
  | scratch
  deriving DecidableEq

/-- `OperationError`, as far as the validation of paths raises it. -/
inductive OperationError
  | invalidPath (resource : ResourceKind) (reason : String)
  | unsafePathRelationship (first second : ResourceKind)
  | destinationNotEmpty (resource : ResourceKind)
  deriving DecidableEq

/-- `PathTarget`. -/
structure PathTarget where
  root : PathText
  path : PathText
  mustExist : Bool
  mustBeFresh : Bool

/-- `OperationalPathRequest`. -/
structure OperationalPathRequest where
  database : Option PathTarget
  routingImages : Option PathTarget
  checkpoint : Option PathTarget
  restore : Option PathTarget
  scratch : Option PathTarget

/-- What the operating system answers with. -/
structure OperatingSystem where
  tree : FileTree
  currentDir : Except String Place
  maximumLinks : ℕ

/-- The text of a failed call. -/
def WalkError.text : WalkError → String
  | .notFound => "No such file or directory (os error 2)"
  | .notDirectory => "Not a directory (os error 20)"
  | .tooManyLinks => "Too many levels of symbolic links (os error 40)"

namespace OperatingSystem

variable (os : OperatingSystem)

/-- `fs::canonicalize` of an absolute path. -/
def canonicalize (path : Place) : Except WalkError Place :=
  os.tree.walk os.maximumLinks [] (normals path)

/-- `Path::exists`. -/
def pathExists (path : Place) : Bool :=
  match os.canonicalize path with
  | .ok _ => true
  | .error _ => false

/-- `Path::is_dir`. -/
def isDir (path : Place) : Bool :=
  match os.canonicalize path with
  | .ok place => decide (os.tree.entry place = some .directory)
  | .error _ => false

/-- `fs::read_dir`. -/
def readDir (path : Place) : List String :=
  match os.canonicalize path with
  | .ok place => os.tree.names place
  | .error _ => []

/-- One component of `absolute_lexical`. -/
def pushComponent (output : Place) : PathComponent → Except String Place
  | .currentDir => .ok output
  | .parentDir =>
    if output = [] then .error "path escapes its filesystem prefix" else .ok output.dropLast
  | .normal name => .ok (output ++ [name])

/-- `absolute_lexical`. -/
def absoluteLexical (path : PathText) : Except String Place := do
  let joined ←
    if path.absolute then pure path.components
    else do
      let current ← os.currentDir
      pure (normals current ++ path.components)
  joined.foldlM pushComponent []

/-- `canonical_existing`. -/
def canonicalExisting (path : PathText) : Except String Place := do
  let absolute ← os.absoluteLexical path
  if !os.isDir absolute then
    .error "caller-selected root does not exist or is not a directory"
  else mapErr WalkError.text (os.canonicalize absolute)

/-- The loop of `resolve_existing_ancestors`, on the components of the ancestor from its last. -/
def existingAncestor : List String → List String → Except String (Place × List String)
  | [], missing =>
    if os.pathExists [] then .ok ([], missing) else .error "target has no existing ancestor"
  | name :: up, missing =>
    if os.pathExists (name :: up).reverse then .ok ((name :: up).reverse, missing)
    else existingAncestor up (missing ++ [name])

/-- `resolve_existing_ancestors`. -/
def resolveExistingAncestors (path : Place) : Except String Place :=
  if os.pathExists path then mapErr WalkError.text (os.canonicalize path)
  else do
    let (ancestor, missing) ← os.existingAncestor path.reverse []
    let resolved ← mapErr WalkError.text (os.canonicalize ancestor)
    return resolved ++ missing.reverse

/-- `resolve_target`. -/
def resolveTarget (kind : ResourceKind) (target : PathTarget) : Except OperationError Place := do
  let root ← mapErr (.invalidPath kind) (os.canonicalExisting target.root)
  if root = [] then
    .error (.invalidPath kind "caller-selected root must not be a filesystem root")
  else do
    let path ← mapErr (.invalidPath kind) (os.absoluteLexical target.path)
    let resolved ← mapErr (.invalidPath kind) (os.resolveExistingAncestors path)
    if resolved = root ∨ ¬ root <+: resolved then
      .error (.invalidPath kind "target must be a strict descendant of its caller-selected root")
    else if target.mustExist && !os.isDir resolved then
      .error (.invalidPath kind "required directory does not exist")
    else if target.mustBeFresh && os.pathExists resolved then
      if !os.isDir resolved then
        .error (.invalidPath kind "fresh destination exists but is not a directory")
      else if os.readDir resolved ≠ [] then .error (.destinationNotEmpty kind)
      else .ok resolved
    else .ok resolved

end OperatingSystem

/-- The targets of a request, in the order of their kinds. -/
def OperationalPathRequest.targets (request : OperationalPathRequest) :
    List (ResourceKind × PathTarget) :=
  [(.database, request.database), (.routingImages, request.routingImages),
    (.checkpoint, request.checkpoint), (.restore, request.restore),
    (.scratch, request.scratch)].filterMap fun e => e.2.map (e.1, ·)

/-- One comparison of two resolved paths. -/
def checkPair (left right : ResourceKind × Place) : Except OperationError Unit :=
  if left.2 = right.2 ∨ right.2 <+: left.2 ∨ left.2 <+: right.2 then
    .error (.unsafePathRelationship left.1 right.1)
  else .ok ()

/-- The comparison of every path with the ones after it. -/
def checkPairs : List (ResourceKind × Place) → Except OperationError Unit
  | [] => .ok ()
  | left :: rest => do
    rest.forM (checkPair left)
    checkPairs rest

/-- `validate_operational_paths`: the paths in the order of their kinds. -/
def validateOperationalPaths (os : OperatingSystem) (request : OperationalPathRequest) :
    Except OperationError (List (ResourceKind × Place)) := do
  let paths ← request.targets.mapM fun e => do return (e.1, ← os.resolveTarget e.1 e.2)
  checkPairs paths
  return paths

end PathHydra
