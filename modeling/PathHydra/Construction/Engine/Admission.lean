import PathHydra.Framework.MachineInt
import PathHydra.Framework.Machine

/-!
# Route admission

`AdmissionController` bounds the routes that run at one time and the bytes they reserve together.
Each of its methods is one critical section of its lock, so it is a function from the controller
to its answer and the controller afterwards; nothing panics in a section, so the lock is never
poisoned.

A permit belongs to one route.  Its `reserve` is two steps that other routes can come between: the
critical section of the controller, and the assignment to the permit's own fields.
-/

namespace PathHydra

/-- `AdmissionRejection`. -/
inductive AdmissionRejection
  | tooManyDestinations (requested maximum : ℕ)
  | requestBytes (requested maximum : ℕ)
  | concurrentRoutes (maximum : ℕ)
  | totalBytes (requestedTotal maximum : ℕ)
  | arithmeticOverflow
  deriving DecidableEq

/-- `AdmissionPermit`, without the reference to its controller. -/
structure AdmissionPermit where
  bytes : ℕ
  admitted : Bool
  deriving DecidableEq

/-- `AdmissionController`: its maxima and the state under its lock. -/
structure AdmissionController where
  maximumActive : ℕ
  maximumBytes : ℕ
  active : ℕ
  peakActive : ℕ
  reserved : ℕ
  peakReserved : ℕ
  admissions : ℕ
  rejections : ℕ
  deriving DecidableEq

namespace AdmissionController

/-- `AdmissionController::new`. -/
def new (maximumActive maximumBytes : U64) : AdmissionController :=
  { maximumActive := maximumActive.val, maximumBytes := maximumBytes.val, active := 0,
    peakActive := 0, reserved := 0, peakReserved := 0, admissions := 0, rejections := 0 }

/-- Counts a rejection. -/
def countRejection (c : AdmissionController) : AdmissionController :=
  { c with rejections := saturatingAdd64 c.rejections 1 }

/-- `acquire_slot`. -/
def acquireSlot (c : AdmissionController) :
    Except AdmissionRejection AdmissionPermit × AdmissionController :=
  if c.maximumActive ≤ c.active then
    (.error (.concurrentRoutes c.maximumActive), c.countRejection)
  else
    (.ok ⟨0, false⟩, { c with
      active := c.active + 1
      peakActive := max c.peakActive (c.active + 1) })

/-- `reject_destinations`. -/
def rejectDestinations (c : AdmissionController) (requested maximum : ℕ) :
    AdmissionRejection × AdmissionController :=
  (.tooManyDestinations requested maximum, c.countRejection)

/-- `AdmissionController::reserve`. -/
def reserve (c : AdmissionController) (bytes : ℕ) :
    Except AdmissionRejection Unit × AdmissionController :=
  if c.maximumBytes < bytes then
    (.error (.requestBytes bytes c.maximumBytes), c.countRejection)
  else match checkedAdd64 c.reserved bytes with
    | none => (.error .arithmeticOverflow, c.countRejection)
    | some total =>
      if c.maximumBytes < total then
        (.error (.totalBytes total c.maximumBytes), c.countRejection)
      else
        (.ok (), { c with
          reserved := total
          peakReserved := max c.peakReserved total
          admissions := saturatingAdd64 c.admissions 1 })

/-- `replace_reservation`. -/
def replaceReservation (c : AdmissionController) (current replacement : ℕ) :
    Except AdmissionRejection Unit × AdmissionController :=
  if c.maximumBytes < replacement then
    (.error (.requestBytes replacement c.maximumBytes), c.countRejection)
  else match checkedSub64 c.reserved current with
    | none => (.error .arithmeticOverflow, c.countRejection)
    | some withoutCurrent => match checkedAdd64 withoutCurrent replacement with
      | none => (.error .arithmeticOverflow, c.countRejection)
      | some total =>
        if c.maximumBytes < total then
          (.error (.totalBytes total c.maximumBytes), c.countRejection)
        else
          (.ok (), { c with
            reserved := total
            peakReserved := max c.peakReserved total })

/-- `AdmissionPermit::drop`: the subtractions saturate, as those of naturals do. -/
def drop (c : AdmissionController) (p : AdmissionPermit) : AdmissionController :=
  { c with
    active := c.active - 1
    reserved := if p.admitted then c.reserved - p.bytes else c.reserved }

end AdmissionController

namespace AdmissionPermit

/-- What `reserve` asks of the controller. -/
def ask (p : AdmissionPermit) (c : AdmissionController) (bytes : ℕ) :
    Except AdmissionRejection Unit × AdmissionController :=
  if p.admitted then c.replaceReservation p.bytes bytes else c.reserve bytes

/-- What `reserve` assigns once the controller has agreed. -/
def store (p : AdmissionPermit) (bytes : ℕ) : AdmissionPermit :=
  { p with admitted := true, bytes := bytes }

/-- `AdmissionPermit::reserve`. -/
def reserve (p : AdmissionPermit) (c : AdmissionController) (bytes : ℕ) :
    Except AdmissionRejection Unit × AdmissionPermit × AdmissionController :=
  match p.ask c bytes with
  | (.error e, c') => (.error e, p, c')
  | (.ok (), c') => (.ok (), p.store bytes, c')

end AdmissionPermit

/-! ## Routes -/

/-- Where the owner of a permit is: between two calls, in `reserve` after the controller has agreed,
or past the permit's end. -/
inductive PermitPhase
  | held
  | storing (bytes : ℕ)
  | dropped
  deriving DecidableEq

/-- A permit that was given out, with the phase of its owner. -/
structure RoutePermit where
  permit : AdmissionPermit
  phase : PermitPhase
  deriving DecidableEq

/-- The controller and all permits it ever gave out, the oldest first. -/
structure AdmissionSystem where
  controller : AdmissionController
  permits : List RoutePermit
  deriving DecidableEq

/-- What a route does next; a permit is named by its position. -/
inductive AdmissionAction
  | acquireSlot
  | rejectDestinations (requested maximum : U64)
  | reserve (ticket : ℕ) (bytes : U64)
  | store (ticket : ℕ)
  | drop (ticket : ℕ)
  deriving DecidableEq

/-- What a route sees of it. -/
inductive AdmissionEvent
  | acquired (ticket : ℕ)
  | rejected (rejection : AdmissionRejection)
  | granted (ticket : ℕ)
  | stored (ticket : ℕ)
  | dropped (ticket : ℕ)
  deriving DecidableEq

namespace AdmissionSystem

/-- A new controller without routes. -/
def start (maximumActive maximumBytes : U64) : AdmissionSystem :=
  ⟨.new maximumActive maximumBytes, []⟩

/-- One step of one route. -/
def step (s : AdmissionSystem) : AdmissionAction → Option (AdmissionSystem × AdmissionEvent)
  | .acquireSlot =>
    match s.controller.acquireSlot with
    | (.error e, c) => some ({ s with controller := c }, .rejected e)
    | (.ok p, c) => some (⟨c, s.permits ++ [⟨p, .held⟩]⟩, .acquired s.permits.length)
  | .rejectDestinations requested maximum =>
    let (e, c) := s.controller.rejectDestinations requested.val maximum.val
    some ({ s with controller := c }, .rejected e)
  | .reserve ticket bytes =>
    match s.permits[ticket]? with
    | some ⟨p, .held⟩ =>
      match p.ask s.controller bytes.val with
      | (.error e, c) => some ({ s with controller := c }, .rejected e)
      | (.ok (), c) => some (⟨c, s.permits.set ticket ⟨p, .storing bytes.val⟩⟩, .granted ticket)
    | _ => none
  | .store ticket =>
    match s.permits[ticket]? with
    | some ⟨p, .storing bytes⟩ =>
      some ({ s with permits := s.permits.set ticket ⟨p.store bytes, .held⟩ }, .stored ticket)
    | _ => none
  | .drop ticket =>
    match s.permits[ticket]? with
    | some ⟨p, .held⟩ =>
      some (⟨s.controller.drop p, s.permits.set ticket ⟨p, .dropped⟩⟩, .dropped ticket)
    | _ => none

end AdmissionSystem

/-- Routes that acquire, reserve and drop permits in any order. -/
def admissionMachine : Machine AdmissionSystem AdmissionAction AdmissionEvent := ⟨AdmissionSystem.step⟩

end PathHydra
