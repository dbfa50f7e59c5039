import Mathlib.Logic.Relation
import PathHydra.Construction.Engine.Lifecycle

/-!
# What the lifecycle controller guarantees

One specification for each critical section of the controller: which counts it leaves, and in which
state it can grant a permit.
-/

namespace PathHydra

/-- The two moves of the lifecycle state. -/
inductive EngineLifecycleState.Next : EngineLifecycleState → EngineLifecycleState → Prop
  | close : Next .running .closing
  | finish : Next .closing .shutDown

/-- The states a lifecycle state can still move to. -/
abbrev EngineLifecycleState.Reaches := Relation.ReflTransGen EngineLifecycleState.Next

/-- Admission that is closed does not open again. -/
lemma EngineLifecycleState.Reaches.ne_running {a b : EngineLifecycleState} (h : a.Reaches b)
    (ha : a ≠ .running) : b ≠ .running := by
  induction h with
  | refl => exact ha
  | tail _ hnext _ => rcases hnext with _ | _ <;> simp

/-- An engine that is shut down stays so. -/
lemma EngineLifecycleState.Reaches.shutDown_eq {b : EngineLifecycleState}
    (h : EngineLifecycleState.Reaches .shutDown b) : b = .shutDown := by
  induction h with
  | refl => rfl
  | tail _ hnext ih =>
    subst ih
    nomatch hnext

namespace ActiveOperationCounts

variable {c c' : ActiveOperationCounts} {kind kind' : OperationKind}

@[simp] lemma slot_zero (kind : OperationKind) : zero.slot kind = 0 := by
  rcases kind with _ | _ | _ | _ <;> rfl

lemma slot_setSlot (c : ActiveOperationCounts) (kind kind' : OperationKind) (n : ℕ) :
    (c.setSlot kind n).slot kind' = if kind' = kind then n else c.slot kind' := by
  rcases kind with _ | _ | _ | _ <;> rcases kind' with _ | _ | _ | _ <;> rfl

lemma slot_decrement (c : ActiveOperationCounts) (kind kind' : OperationKind) :
    (c.decrement kind).slot kind' = if kind' = kind then c.slot kind - 1 else c.slot kind' :=
  slot_setSlot c kind kind' _

lemma slot_decrement_le (c : ActiveOperationCounts) (kind kind' : OperationKind) :
    (c.decrement kind).slot kind' ≤ c.slot kind' := by
  rw [slot_decrement]
  split
  · rename_i hkind
    rw [hkind]
    exact Nat.sub_le _ _
  · exact le_rfl

lemma slot_increment (h : c.increment kind = some c') (kind' : OperationKind) :
    c'.slot kind' = if kind' = kind then c.slot kind + 1 else c.slot kind' := by
  obtain ⟨n, hn, rfl⟩ := Option.map_eq_some_iff.1 h
  obtain ⟨-, rfl⟩ := checkedAdd64_eq_some.1 hn
  exact slot_setSlot c kind kind' _

/-- Nothing is active when the total is zero. -/
lemma slot_eq_zero_of_total (h : c.total = some 0) (kind : OperationKind) : c.slot kind = 0 := by
  simp only [total, Option.bind_eq_bind, Option.bind_eq_some_iff, checkedAdd64_eq_some] at h
  obtain ⟨a, ⟨-, ha⟩, b, ⟨-, hb⟩, -, hsum⟩ := h
  rcases kind with _ | _ | _ | _ <;> simp only [slot] <;> omega

end ActiveOperationCounts

namespace LifecycleController

variable {c c' : LifecycleController} {kind : OperationKind}

/-- What changes in a controller that grants a permit. -/
structure Grants (c : LifecycleController) (kind : OperationKind) (c' : LifecycleController) :
    Prop where
  running : c.lifecycle = .running
  lifecycle : c'.lifecycle = .running
  maximum : c'.maximumMaintenanceWorkers = c.maximumMaintenanceWorkers
  slots : ∀ kind', c'.active.slot kind' =
    if kind' = kind then c.active.slot kind + 1 else c.active.slot kind'
  room : kind = .maintenance → c.active.maintenance < c.maximumMaintenanceWorkers

/-- What stays in a controller that refuses one. -/
structure Keeps (c c' : LifecycleController) : Prop where
  lifecycle : c'.lifecycle = c.lifecycle
  maximum : c'.maximumMaintenanceWorkers = c.maximumMaintenanceWorkers
  active : c'.active = c.active

lemma Keeps.refl (c : LifecycleController) : Keeps c c := ⟨rfl, rfl, rfl⟩

lemma keeps_reject (c : LifecycleController) : Keeps c c.reject := ⟨rfl, rfl, rfl⟩

/-- What the admission of an operation does. -/
def Admits (c : LifecycleController) (kind : OperationKind)
    (result : Except LifecycleError OperationKind × LifecycleController) : Prop :=
  match result.1 with
  | .ok granted => granted = kind ∧ Grants c kind result.2
  | .error _ => Keeps c result.2

lemma grant_admits (hrunning : c.lifecycle = .running)
    (hroom : kind = .maintenance → c.active.maintenance < c.maximumMaintenanceWorkers) :
    Admits c kind (c.grant kind) := by
  unfold grant
  split
  · exact Keeps.refl c
  · rename_i active hactive
    exact ⟨rfl, hrunning, hrunning, rfl, ActiveOperationCounts.slot_increment hactive, hroom⟩

lemma begin_admits (c : LifecycleController) (hkind : kind ≠ .maintenance) :
    Admits c kind (c.begin kind) := by
  unfold begin
  split
  · exact keeps_reject c
  · exact keeps_reject c
  · rename_i hrunning
    exact grant_admits hrunning fun h => absurd h hkind

lemma beginMaintenance_admits (c : LifecycleController) :
    Admits c .maintenance c.beginMaintenance := by
  unfold beginMaintenance
  split
  · exact keeps_reject c
  · exact keeps_reject c
  · rename_i hrunning
    split
    · exact Keeps.refl c
    · rename_i hroom
      exact grant_admits hrunning fun _ => Nat.lt_of_not_le hroom

/-- Every kind of operation is admitted as its method says. -/
theorem beginOperation_admits (c : LifecycleController) (kind : OperationKind) :
    Admits c kind (c.beginOperation kind) := by
  rcases kind with _ | _ | _ | _
  · exact begin_admits c (by simp)
  · exact begin_admits c (by simp)
  · exact begin_admits c (by simp)
  · exact beginMaintenance_admits c

/-- After shutdown every operation is refused for that reason. -/
lemma beginOperation_shutDown (h : c.lifecycle = .shutDown) (kind : OperationKind) :
    c.beginOperation kind = (.error .shutDown, c.reject) := by
  rcases kind with _ | _ | _ | _ <;>
    simp [beginOperation, beginRoute, beginMutation, beginCheckpoint, beginMaintenance, begin, h]

/-- A drain that is seen leaves nothing active. -/
lemma pollDrain_eq_true (h : c.pollDrain = .ok true) (kind : OperationKind) :
    c.active.slot kind = 0 := by
  unfold pollDrain at h
  split at h
  · cases h
  · rename_i n htotal
    simp only [Except.ok.injEq, decide_eq_true_eq] at h
    subst h
    exact ActiveOperationCounts.slot_eq_zero_of_total htotal kind

lemma closeAdmission_next (c : LifecycleController) :
    c.lifecycle.Reaches c.closeAdmission.lifecycle := by
  unfold closeAdmission
  split
  · rename_i h
    rw [h]
    exact .single .close
  · exact .refl

lemma closeAdmission_ne_running (c : LifecycleController) :
    c.closeAdmission.lifecycle ≠ .running := by
  unfold closeAdmission
  split
  · simp
  · assumption

@[simp] lemma closeAdmission_active (c : LifecycleController) :
    c.closeAdmission.active = c.active := by
  unfold closeAdmission
  split <;> rfl

@[simp] lemma closeAdmission_maximum (c : LifecycleController) :
    c.closeAdmission.maximumMaintenanceWorkers = c.maximumMaintenanceWorkers := by
  unfold closeAdmission
  split <;> rfl

/-- Only a drained controller is marked as shut down. -/
lemma markShutDown_eq_ok (h : c.markShutDown = .ok c') :
    (∀ kind, c.active.slot kind = 0) ∧ c' = { c with lifecycle := .shutDown } := by
  unfold markShutDown at h
  split at h
  · cases h
  · rename_i n htotal
    split at h
    · cases h
    · rename_i hzero
      obtain rfl : n = 0 := by simpa using hzero
      cases h
      exact ⟨ActiveOperationCounts.slot_eq_zero_of_total htotal, rfl⟩

end LifecycleController

end PathHydra
