import Mathlib.Algebra.BigOperators.Group.List.Basic
import Mathlib.Data.Finset.Card
import Mathlib.Data.Finset.Dedup
import Mathlib.Tactic.Linarith
import PathHydra.Construction.Engine.Admission

/-!
# Admission accounting

What the controller counts is what the permits hold, however routes interleave: one spec lemma for
each critical section, the invariant `Accounted` over one step, and from it over every run.

A permit whose reservation the controller has granted and that has not stored it yet holds the
granted bytes; with no such permit, the reserved bytes are the sum over the permits' own fields.
The counter of admissions saturates, so beyond `u64Max` permits it no longer counts them.
-/

namespace PathHydra

/-! ## The critical sections -/

namespace AdmissionController

variable {c c' : AdmissionController}

lemma acquireSlot_cases {r : Except AdmissionRejection AdmissionPermit}
    (h : c.acquireSlot = (r, c')) :
    (∃ e, r = .error e ∧ c' = c.countRejection) ∨
    (r = .ok ⟨0, false⟩ ∧ c.active < c.maximumActive ∧ c' = { c with
      active := c.active + 1
      peakActive := max c.peakActive (c.active + 1) }) := by
  unfold acquireSlot at h
  split_ifs at h with hfull
  · cases h
    exact .inl ⟨_, rfl, rfl⟩
  · cases h
    exact .inr ⟨rfl, not_le.1 hfull, rfl⟩

lemma reserve_cases {bytes : ℕ} {r : Except AdmissionRejection Unit}
    (h : c.reserve bytes = (r, c')) :
    (∃ e, r = .error e ∧ c' = c.countRejection) ∨
    (r = .ok () ∧ c.reserved + bytes ≤ c.maximumBytes ∧ c' = { c with
      reserved := c.reserved + bytes
      peakReserved := max c.peakReserved (c.reserved + bytes)
      admissions := saturatingAdd64 c.admissions 1 }) := by
  unfold reserve at h
  split_ifs at h with hlarge
  · cases h
    exact .inl ⟨_, rfl, rfl⟩
  · split at h
    · cases h
      exact .inl ⟨_, rfl, rfl⟩
    · rename_i total htotal
      obtain ⟨-, rfl⟩ := checkedAdd64_eq_some.1 htotal
      split_ifs at h with hover
      · cases h
        exact .inl ⟨_, rfl, rfl⟩
      · cases h
        exact .inr ⟨rfl, not_lt.1 hover, rfl⟩

lemma replaceReservation_cases {current replacement : ℕ} {r : Except AdmissionRejection Unit}
    (h : c.replaceReservation current replacement = (r, c')) :
    (∃ e, r = .error e ∧ c' = c.countRejection) ∨
    (r = .ok () ∧ current ≤ c.reserved ∧
      c.reserved - current + replacement ≤ c.maximumBytes ∧ c' = { c with
        reserved := c.reserved - current + replacement
        peakReserved := max c.peakReserved (c.reserved - current + replacement) }) := by
  unfold replaceReservation checkedSub64 at h
  split_ifs at h with hlarge hle
  · cases h
    exact .inl ⟨_, rfl, rfl⟩
  · dsimp only at h
    split at h
    · cases h
      exact .inl ⟨_, rfl, rfl⟩
    · rename_i total htotal
      obtain ⟨-, rfl⟩ := checkedAdd64_eq_some.1 htotal
      split_ifs at h with hover
      · cases h
        exact .inl ⟨_, rfl, rfl⟩
      · cases h
        exact .inr ⟨rfl, hle, not_lt.1 hover, rfl⟩
  · cases h
    exact .inl ⟨_, rfl, rfl⟩

end AdmissionController

/-- A reservation is refused without a trace in the accounts, or it is the first of its permit, or
it replaces the one before. -/
lemma AdmissionPermit.ask_cases {p : AdmissionPermit} {c c' : AdmissionController} {bytes : ℕ}
    {r : Except AdmissionRejection Unit} (h : p.ask c bytes = (r, c')) :
    (∃ e, r = .error e ∧ c' = c.countRejection) ∨
    (r = .ok () ∧ p.admitted = false ∧ c.reserved + bytes ≤ c.maximumBytes ∧ c' = { c with
      reserved := c.reserved + bytes
      peakReserved := max c.peakReserved (c.reserved + bytes)
      admissions := saturatingAdd64 c.admissions 1 }) ∨
    (r = .ok () ∧ p.admitted = true ∧ p.bytes ≤ c.reserved ∧
      c.reserved - p.bytes + bytes ≤ c.maximumBytes ∧ c' = { c with
        reserved := c.reserved - p.bytes + bytes
        peakReserved := max c.peakReserved (c.reserved - p.bytes + bytes) }) := by
  unfold ask at h
  split_ifs at h with hadmitted
  · rcases AdmissionController.replaceReservation_cases h with hrefused | ⟨hr, hle, hmax, hc⟩
    · exact .inl hrefused
    · exact .inr (.inr ⟨hr, hadmitted, hle, hmax, hc⟩)
  · rcases AdmissionController.reserve_cases h with hrefused | ⟨hr, hmax, hc⟩
    · exact .inl hrefused
    · exact .inr (.inl ⟨hr, by simpa using hadmitted, hmax, hc⟩)

/-! ## Accounts -/

namespace RoutePermit

/-- The permit has not been dropped. -/
def live (r : RoutePermit) : Bool := r.phase ≠ .dropped

/-- The bytes the controller keeps for the permit. -/
def holds (r : RoutePermit) : ℕ :=
  match r.phase with
  | .held => if r.permit.admitted then r.permit.bytes else 0
  | .storing bytes => bytes
  | .dropped => 0

/-- The permit has reserved successfully at some time. -/
def succeeded (r : RoutePermit) : Bool :=
  match r.phase with
  | .storing _ => true
  | _ => r.permit.admitted

end RoutePermit

namespace AdmissionSystem

open RoutePermit (live holds succeeded)

/-- The permits that have not been dropped. -/
def livePermits (s : AdmissionSystem) : List RoutePermit := s.permits.filter live

/-- No permit is inside `reserve`. -/
def Settled (s : AdmissionSystem) : Prop := ∀ r ∈ s.permits, ∀ bytes, r.phase ≠ .storing bytes

/-- The controller counts what the permits hold. -/
structure Accounted (maximumActive maximumBytes : ℕ) (s : AdmissionSystem) : Prop where
  maximumActive_eq : s.controller.maximumActive = maximumActive
  maximumBytes_eq : s.controller.maximumBytes = maximumBytes
  active_eq : s.controller.active = s.permits.countP live
  active_le : s.controller.active ≤ maximumActive
  reserved_eq : s.controller.reserved = (s.permits.map holds).sum
  reserved_le : s.controller.reserved ≤ maximumBytes
  admissions_eq : s.controller.admissions = min (s.permits.countP succeeded) u64Max

variable {maximumActive maximumBytes : ℕ} {s s' : AdmissionSystem}

lemma accounted_start (maximumActive maximumBytes : U64) :
    (start maximumActive maximumBytes).Accounted maximumActive.val maximumBytes.val :=
  { maximumActive_eq := rfl
    maximumBytes_eq := rfl
    active_eq := rfl
    active_le := Nat.zero_le _
    reserved_eq := rfl
    reserved_le := Nat.zero_le _
    admissions_eq := rfl }

lemma Accounted.rejected (h : s.Accounted maximumActive maximumBytes) :
    AdmissionSystem.Accounted maximumActive maximumBytes
      { s with controller := s.controller.countRejection } :=
  ⟨h.1, h.2, h.3, h.4, h.5, h.6, h.7⟩

/-- Splits the permits at the one that moves. -/
lemma exists_split {l : List RoutePermit} {i : ℕ} {r : RoutePermit} (h : l[i]? = some r) :
    ∃ before after, l = before ++ r :: after ∧
      ∀ r', l.set i r' = before ++ r' :: after := by
  obtain ⟨hlt, rfl⟩ := List.getElem?_eq_some_iff.1 h
  refine ⟨l.take i, l.drop (i + 1), ?_, fun r' => ?_⟩
  · rw [List.cons_getElem_drop_succ, List.take_append_drop]
  · rw [List.set_eq_take_append_cons_drop, if_pos hlt]

lemma Accounted.acquired (h : s.Accounted maximumActive maximumBytes)
    (hfree : s.controller.active < s.controller.maximumActive) :
    AdmissionSystem.Accounted maximumActive maximumBytes ⟨{ s.controller with
      active := s.controller.active + 1
      peakActive := max s.controller.peakActive (s.controller.active + 1) },
      s.permits ++ [⟨⟨0, false⟩, .held⟩]⟩ where
  maximumActive_eq := h.maximumActive_eq
  maximumBytes_eq := h.maximumBytes_eq
  active_eq := by simp [h.active_eq, live]
  active_le := by
    rw [h.maximumActive_eq] at hfree
    exact hfree
  reserved_eq := by simp [h.reserved_eq, holds]
  reserved_le := h.reserved_le
  admissions_eq := by simp [h.admissions_eq, succeeded]

section Moves

variable {ticket bytes : ℕ} {p : AdmissionPermit} {r r' : RoutePermit}

lemma countP_move (f : RoutePermit → Bool) (hr : s.permits[ticket]? = some r) (r' : RoutePermit) :
    (s.permits.set ticket r').countP f + (if f r then 1 else 0) =
      s.permits.countP f + (if f r' then 1 else 0) := by
  obtain ⟨before, after, hsplit, hset⟩ := exists_split hr
  rw [hset, hsplit]
  simp only [List.countP_append, List.countP_cons]
  omega

lemma sum_move (hr : s.permits[ticket]? = some r) (r' : RoutePermit) :
    ((s.permits.set ticket r').map holds).sum + r.holds = (s.permits.map holds).sum + r'.holds := by
  obtain ⟨before, after, hsplit, hset⟩ := exists_split hr
  rw [hset, hsplit]
  simp only [List.map_append, List.map_cons, List.sum_append, List.sum_cons]
  omega

/-- The accounts stay right when one permit and the controller change by the same amounts. -/
lemma Accounted.move {c : AdmissionController} (h : s.Accounted maximumActive maximumBytes)
    (hr : s.permits[ticket]? = some r)
    (hmaximumActive : c.maximumActive = s.controller.maximumActive)
    (hmaximumBytes : c.maximumBytes = s.controller.maximumBytes)
    (hactive : c.active + (if r.live then 1 else 0) =
      s.controller.active + (if r'.live then 1 else 0))
    (hactive_le : c.active ≤ s.controller.maximumActive)
    (hreserved : c.reserved + r.holds = s.controller.reserved + r'.holds)
    (hreserved_le : c.reserved ≤ s.controller.maximumBytes)
    (hadmissions : (r'.succeeded = r.succeeded ∧ c.admissions = s.controller.admissions) ∨
      (r.succeeded = false ∧ r'.succeeded = true ∧
        c.admissions = saturatingAdd64 s.controller.admissions 1)) :
    AdmissionSystem.Accounted maximumActive maximumBytes ⟨c, s.permits.set ticket r'⟩ where
  maximumActive_eq := hmaximumActive.trans h.maximumActive_eq
  maximumBytes_eq := hmaximumBytes.trans h.maximumBytes_eq
  active_eq := by
    have hcount := countP_move live hr r'
    rw [← h.active_eq] at hcount
    show c.active = (s.permits.set ticket r').countP live
    omega
  active_le := by
    rw [← h.maximumActive_eq]
    exact hactive_le
  reserved_eq := by
    have hsum := sum_move hr r'
    rw [← h.reserved_eq] at hsum
    show c.reserved = ((s.permits.set ticket r').map holds).sum
    omega
  reserved_le := by
    rw [← h.maximumBytes_eq]
    exact hreserved_le
  admissions_eq := by
    have hcount := countP_move succeeded hr r'
    show c.admissions = min ((s.permits.set ticket r').countP succeeded) u64Max
    rcases hadmissions with ⟨hsame, heq⟩ | ⟨hbefore, hafter, heq⟩
    · rw [hsame] at hcount
      rw [heq, h.admissions_eq, Nat.add_right_cancel hcount]
    · rw [hbefore, hafter, if_neg (by simp), if_pos rfl, Nat.add_zero] at hcount
      -- the saturated count of one more is one more of the saturated count
      have hmin : ∀ n top : ℕ, min (min n top + 1) top = min (n + 1) top := by
        intro n top
        omega
      rw [heq, h.admissions_eq, saturatingAdd64, hmin, hcount]

/-- A held permit is counted once, with its bytes. -/
lemma Accounted.held (h : s.Accounted maximumActive maximumBytes)
    (hp : s.permits[ticket]? = some ⟨p, .held⟩) :
    1 ≤ s.controller.active ∧ (p.admitted = true → p.bytes ≤ s.controller.reserved) := by
  have hlive := countP_move live hp ⟨p, .dropped⟩
  have hholds := sum_move hp ⟨p, .dropped⟩
  rw [← h.active_eq] at hlive
  rw [← h.reserved_eq] at hholds
  refine ⟨?_, fun hadmitted => ?_⟩
  · simp [live] at hlive
    omega
  · simp [holds, hadmitted] at hholds
    omega

/-- The first reservation of a permit. -/
lemma Accounted.granted (h : s.Accounted maximumActive maximumBytes)
    (hp : s.permits[ticket]? = some ⟨p, .held⟩) (hfirst : p.admitted = false)
    (hle : s.controller.reserved + bytes ≤ s.controller.maximumBytes) :
    AdmissionSystem.Accounted maximumActive maximumBytes ⟨{ s.controller with
      reserved := s.controller.reserved + bytes
      peakReserved := max s.controller.peakReserved (s.controller.reserved + bytes)
      admissions := saturatingAdd64 s.controller.admissions 1 },
      s.permits.set ticket ⟨p, .storing bytes⟩⟩ := by
  refine h.move hp rfl rfl rfl (h.active_le.trans h.maximumActive_eq.ge) ?_ hle ?_
  · simp [holds, hfirst]
  · exact .inr ⟨by simp [succeeded, hfirst], rfl, rfl⟩

/-- A further reservation of a permit. -/
lemma Accounted.replaced (h : s.Accounted maximumActive maximumBytes)
    (hp : s.permits[ticket]? = some ⟨p, .held⟩) (hagain : p.admitted = true)
    (hle : s.controller.reserved - p.bytes + bytes ≤ s.controller.maximumBytes) :
    AdmissionSystem.Accounted maximumActive maximumBytes ⟨{ s.controller with
      reserved := s.controller.reserved - p.bytes + bytes
      peakReserved := max s.controller.peakReserved (s.controller.reserved - p.bytes + bytes) },
      s.permits.set ticket ⟨p, .storing bytes⟩⟩ := by
  have hheld := (h.held hp).2 hagain
  refine h.move hp rfl rfl rfl (h.active_le.trans h.maximumActive_eq.ge) ?_ hle ?_
  · simp only [holds, hagain, if_true]
    omega
  · exact .inl ⟨by simp [succeeded, hagain], rfl⟩

lemma Accounted.stored (h : s.Accounted maximumActive maximumBytes)
    (hp : s.permits[ticket]? = some ⟨p, .storing bytes⟩) :
    AdmissionSystem.Accounted maximumActive maximumBytes
      { s with permits := s.permits.set ticket ⟨p.store bytes, .held⟩ } := by
  refine h.move hp rfl rfl rfl (h.active_le.trans h.maximumActive_eq.ge) ?_
    (h.reserved_le.trans h.maximumBytes_eq.ge) (.inl ⟨rfl, rfl⟩)
  rfl

lemma Accounted.dropped (h : s.Accounted maximumActive maximumBytes)
    (hp : s.permits[ticket]? = some ⟨p, .held⟩) :
    AdmissionSystem.Accounted maximumActive maximumBytes
      ⟨s.controller.drop p, s.permits.set ticket ⟨p, .dropped⟩⟩ := by
  obtain ⟨hactive, hreserved⟩ := h.held hp
  have hactive_le := h.active_le.trans h.maximumActive_eq.ge
  have hreserved_le := h.reserved_le.trans h.maximumBytes_eq.ge
  refine h.move hp rfl rfl ?_ ?_ ?_ ?_ (.inl ⟨rfl, rfl⟩)
  · show s.controller.active - 1 + 1 = s.controller.active + 0
    omega
  · show s.controller.active - 1 ≤ _
    omega
  · rcases hadmitted : p.admitted with _ | _
    · simp [AdmissionController.drop, holds, hadmitted]
    · simp [AdmissionController.drop, holds, hadmitted, hreserved hadmitted]
  · show (if p.admitted then s.controller.reserved - p.bytes else s.controller.reserved) ≤ _
    split_ifs <;> omega

end Moves

/-- What a step of a route can do. -/
lemma step_cases {action : AdmissionAction} {o : AdmissionEvent}
    (hstep : s.step action = some (s', o)) :
    (∃ e, s' = { s with controller := s.controller.countRejection } ∧ o = .rejected e) ∨
    (s.controller.active < s.controller.maximumActive ∧ s' = ⟨{ s.controller with
        active := s.controller.active + 1
        peakActive := max s.controller.peakActive (s.controller.active + 1) },
        s.permits ++ [⟨⟨0, false⟩, .held⟩]⟩ ∧ o = .acquired s.permits.length) ∨
    (∃ ticket p bytes c, s.permits[ticket]? = some ⟨p, .held⟩ ∧
      p.ask s.controller bytes = (.ok (), c) ∧
      s' = ⟨c, s.permits.set ticket ⟨p, .storing bytes⟩⟩ ∧ o = .granted ticket) ∨
    (∃ ticket p bytes, s.permits[ticket]? = some ⟨p, .storing bytes⟩ ∧
      s' = { s with permits := s.permits.set ticket ⟨p.store bytes, .held⟩ } ∧
      o = .stored ticket) ∨
    (∃ ticket p, s.permits[ticket]? = some ⟨p, .held⟩ ∧
      s' = ⟨s.controller.drop p, s.permits.set ticket ⟨p, .dropped⟩⟩ ∧ o = .dropped ticket) := by
  unfold AdmissionSystem.step at hstep
  split at hstep
  case h_1 =>
    rcases hacquire : s.controller.acquireSlot with ⟨r, c⟩
    rw [hacquire] at hstep
    rcases AdmissionController.acquireSlot_cases hacquire with ⟨e, rfl, rfl⟩ | ⟨rfl, hfree, rfl⟩
    · cases hstep
      exact .inl ⟨e, rfl, rfl⟩
    · cases hstep
      exact .inr (.inl ⟨hfree, rfl, rfl⟩)
  case h_2 =>
    cases hstep
    exact .inl ⟨_, rfl, rfl⟩
  case h_3 ticket bytes =>
    split at hstep
    · rename_i p hp
      rcases hask : p.ask s.controller bytes.val with ⟨e | _, c⟩
      · rw [hask] at hstep
        cases hstep
        rcases AdmissionPermit.ask_cases hask with ⟨-, -, rfl⟩ | ⟨h, -⟩ | ⟨h, -⟩
        · exact .inl ⟨e, rfl, rfl⟩
        · cases h
        · cases h
      · rw [hask] at hstep
        cases hstep
        exact .inr (.inr (.inl ⟨ticket, p, bytes.val, c, hp, hask, rfl, rfl⟩))
    · cases hstep
  case h_4 ticket =>
    split at hstep
    · rename_i p bytes hp
      cases hstep
      exact .inr (.inr (.inr (.inl ⟨ticket, p, bytes, hp, rfl, rfl⟩)))
    · cases hstep
  case h_5 ticket =>
    split at hstep
    · rename_i p hp
      cases hstep
      exact .inr (.inr (.inr (.inr ⟨ticket, p, hp, rfl, rfl⟩)))
    · cases hstep

/-- Every step of every route keeps the accounts. -/
lemma Accounted.step (h : s.Accounted maximumActive maximumBytes) {action : AdmissionAction}
    {o : AdmissionEvent} (hstep : s.step action = some (s', o)) :
    s'.Accounted maximumActive maximumBytes := by
  obtain ⟨e, rfl, -⟩ | ⟨hfree, rfl, -⟩ | ⟨ticket, p, bytes, c, hp, hask, rfl, -⟩ |
    ⟨ticket, p, bytes, hp, rfl, -⟩ | ⟨ticket, p, hp, rfl, -⟩ := step_cases hstep
  · exact h.rejected
  · exact h.acquired hfree
  · rcases AdmissionPermit.ask_cases hask with
      ⟨e, he, -⟩ | ⟨-, hfirst, hle, rfl⟩ | ⟨-, hagain, -, hle, rfl⟩
    · cases he
    · exact h.granted hp hfirst hle
    · exact h.replaced hp hagain hle
  · exact h.stored hp
  · exact h.dropped hp

/-! ## Admitted permits -/

/-- The permit has reserved successfully at some time. -/
def Succeeded (s : AdmissionSystem) (ticket : ℕ) : Prop :=
  ∃ r, s.permits[ticket]? = some r ∧ r.succeeded = true

lemma succeeded_set {c : AdmissionController} {ticket : ℕ} {r : RoutePermit}
    (hr : s.permits[ticket]? = some r) (r' : RoutePermit) (ticket' : ℕ) :
    AdmissionSystem.Succeeded ⟨c, s.permits.set ticket r'⟩ ticket' ↔
      if ticket' = ticket then r'.succeeded = true else s.Succeeded ticket' := by
  have hlt := (List.getElem?_eq_some_iff.1 hr).1
  unfold Succeeded
  dsimp only
  split_ifs with heq
  · subst heq
    rw [List.getElem?_set_self hlt]
    simp
  · rw [List.getElem?_set_ne (Ne.symm heq)]

/-- A permit is admitted by the step that grants its first reservation. -/
lemma succeeded_step {action : AdmissionAction} {o : AdmissionEvent}
    (hstep : s.step action = some (s', o)) (ticket : ℕ) :
    s'.Succeeded ticket ↔ s.Succeeded ticket ∨ o = .granted ticket := by
  obtain ⟨e, rfl, rfl⟩ | ⟨-, rfl, rfl⟩ | ⟨t, p, bytes, c, hp, -, rfl, rfl⟩ |
    ⟨t, p, bytes, hp, rfl, rfl⟩ | ⟨t, p, hp, rfl, rfl⟩ := step_cases hstep
  · simp [Succeeded]
  · simp only [Succeeded, List.getElem?_append, reduceCtorEq, or_false]
    split_ifs with hlt
    · rfl
    · rcases hindex : ticket - s.permits.length with _ | n
      · have hnone : s.permits[ticket]? = none := List.getElem?_eq_none (not_lt.1 hlt)
        simp [hnone, succeeded]
      · simp [List.getElem?_eq_none (not_lt.1 hlt)]
  · rw [succeeded_set hp]
    split_ifs with heq
    · simp [heq, succeeded]
    · simp [Ne.symm heq]
  · rw [succeeded_set hp]
    split_ifs with heq
    · subst heq
      simp [Succeeded, hp, succeeded, AdmissionPermit.store]
    · simp
  · rw [succeeded_set hp]
    split_ifs with heq
    · subst heq
      simp [Succeeded, hp, succeeded]
    · simp

lemma succeeded_run {actions : List AdmissionAction} {os : List AdmissionEvent}
    (hrun : admissionMachine.run s actions = some (s', os)) (ticket : ℕ) :
    s'.Succeeded ticket ↔ s.Succeeded ticket ∨ .granted ticket ∈ os := by
  induction actions generalizing s os with
  | nil =>
    cases hrun
    simp
  | cons a rest ih =>
    obtain ⟨t, o, os', hstep, hrest, rfl⟩ := Machine.run_cons_eq_some hrun
    rw [ih hrest, succeeded_step hstep, List.mem_cons, or_assoc, eq_comm]

/-- The permits whose reservations were granted in a run. -/
def grantedTickets (os : List AdmissionEvent) : Finset ℕ :=
  (os.filterMap fun
    | .granted ticket => some ticket
    | _ => none).toFinset

lemma mem_grantedTickets {os : List AdmissionEvent} {ticket : ℕ} :
    ticket ∈ grantedTickets os ↔ .granted ticket ∈ os := by
  rw [grantedTickets, List.mem_toFinset, List.mem_filterMap]
  constructor
  · rintro ⟨o, ho, heq⟩
    split at heq
    · cases heq
      exact ho
    · cases heq
  · intro ho
    exact ⟨_, ho, rfl⟩

/-- Counting a list is counting its positions. -/
lemma countP_eq_card {α : Type*} (f : α → Bool) (l : List α) {tickets : Finset ℕ}
    (h : ∀ i, i ∈ tickets ↔ ∃ a, l[i]? = some a ∧ f a = true) : l.countP f = tickets.card := by
  induction l using List.reverseRecOn generalizing tickets with
  | nil =>
    have hempty : tickets = ∅ := by
      refine Finset.eq_empty_of_forall_notMem fun i hi => ?_
      simpa using (h i).1 hi
    rw [hempty]
    rfl
  | append_singleton l a ih =>
    have hlast : l.length ∈ tickets ↔ f a = true := by
      rw [h]
      simp
    have hrest : ∀ i, i ∈ tickets.erase l.length ↔ ∃ b, l[i]? = some b ∧ f b = true := by
      intro i
      rw [Finset.mem_erase, h]
      rcases lt_trichotomy i l.length with hlt | heq | hgt
      · rw [List.getElem?_append_left hlt]
        exact and_iff_right hlt.ne
      · simp [heq]
      · rw [List.getElem?_eq_none (by simp; omega), List.getElem?_eq_none hgt.le]
        simp
    rw [List.countP_append, ih hrest, List.countP_singleton]
    by_cases ha : f a = true
    · rw [if_pos ha, Finset.card_erase_add_one (hlast.2 ha)]
    · rw [if_neg ha, Finset.erase_eq_of_notMem (fun hmem => ha (hlast.1 hmem)), Nat.add_zero]

lemma countP_succeeded {actions : List AdmissionAction} {os : List AdmissionEvent}
    {maximumActive maximumBytes : U64}
    (hrun : admissionMachine.run (.start maximumActive maximumBytes) actions = some (s, os)) :
    s.permits.countP succeeded = (grantedTickets os).card := by
  refine countP_eq_card _ _ fun ticket => ?_
  have hsucceeded := succeeded_run hrun ticket
  rw [mem_grantedTickets]
  constructor
  · exact fun hgranted => hsucceeded.2 (.inr hgranted)
  · intro h
    rcases hsucceeded.1 h with ⟨r, hr, -⟩ | hgranted
    · simp [start] at hr
    · exact hgranted

/-- With no permit inside `reserve`, what is held are the bytes of the admitted permits. -/
lemma sum_holds_of_settled (hsettled : s.Settled) :
    (s.permits.map holds).sum =
      ((s.livePermits.filter (·.permit.admitted)).map (·.permit.bytes)).sum := by
  unfold livePermits Settled at *
  generalize s.permits = l at *
  induction l with
  | nil => rfl
  | cons r l ih =>
    have hrest := ih fun r' hr' => hsettled r' (List.mem_cons_of_mem r hr')
    obtain ⟨p, phase⟩ := r
    rw [List.map_cons, List.sum_cons, hrest]
    rcases phase with _ | bytes | _
    · rcases hadmitted : p.admitted with _ | _
      · simp [live, holds, hadmitted]
      · simp [live, holds, hadmitted]
    · exact absurd rfl (hsettled _ List.mem_cons_self bytes)
    · simp [live, holds]

end AdmissionSystem

/-- A refused reservation, first or further, changes neither the accounts nor the permit. -/
lemma AdmissionPermit.reserve_refused {p p' : AdmissionPermit} {c c' : AdmissionController}
    {bytes : ℕ} {e : AdmissionRejection} (h : p.reserve c bytes = (.error e, p', c')) :
    c'.active = c.active ∧ c'.reserved = c.reserved ∧ p' = p := by
  unfold reserve at h
  split at h
  · rename_i hask
    cases h
    rcases ask_cases hask with ⟨-, -, rfl⟩ | ⟨hr, -⟩ | ⟨hr, -⟩
    · exact ⟨rfl, rfl, rfl⟩
    · cases hr
    · cases hr
  · cases h

open AdmissionSystem RoutePermit in
/-- However routes interleave, the controller counts the live permits and the bytes they hold and
stays within its maxima, it counts each permit that reserved once until the counter is full, no
subtraction saturates or underflows, and a refused reservation changes nothing. -/
theorem admission_accounted (maximumActive maximumBytes : U64) {actions : List AdmissionAction}
    {s : AdmissionSystem} {os : List AdmissionEvent}
    (hrun : admissionMachine.run (.start maximumActive maximumBytes) actions = some (s, os)) :
    (s.controller.active = s.livePermits.length ∧ s.controller.active ≤ maximumActive.val) ∧
    (s.controller.reserved = (s.livePermits.map holds).sum ∧
      s.controller.reserved ≤ maximumBytes.val ∧
      (s.Settled → s.controller.reserved =
        ((s.livePermits.filter (·.permit.admitted)).map (·.permit.bytes)).sum)) ∧
    s.controller.admissions = min (grantedTickets os).card u64Max ∧
    (∀ (ticket : ℕ) (p : AdmissionPermit), s.permits[ticket]? = some ⟨p, .held⟩ →
      (s.controller.drop p).active + 1 = s.controller.active ∧
      (p.admitted = true → (s.controller.drop p).reserved + p.bytes = s.controller.reserved ∧
        checkedSub64 s.controller.reserved p.bytes ≠ none)) ∧
    ∀ (ticket bytes : ℕ) (p p' : AdmissionPermit) (c' : AdmissionController)
      (e : AdmissionRejection), s.permits[ticket]? = some ⟨p, .held⟩ →
      p.reserve s.controller bytes = (.error e, p', c') →
      c'.active = s.controller.active ∧ c'.reserved = s.controller.reserved ∧ p' = p := by
  have h : s.Accounted maximumActive.val maximumBytes.val :=
    Machine.run_invariant (fun s a s' o hs hstep => hs.step hstep)
      (accounted_start maximumActive maximumBytes) hrun
  -- a dropped permit holds nothing
  have hlive : (s.livePermits.map holds).sum = (s.permits.map holds).sum := by
    unfold livePermits
    generalize s.permits = l
    induction l with
    | nil => rfl
    | cons r l ih =>
      obtain ⟨p, phase⟩ := r
      rcases phase with _ | bytes | _ <;> simp [live, holds, ih]
  refine ⟨⟨?_, h.active_le⟩, ⟨?_, h.reserved_le, ?_⟩, ?_, ?_, ?_⟩
  · rw [h.active_eq, List.countP_eq_length_filter]
    rfl
  · rw [hlive, h.reserved_eq]
  · intro hsettled
    rw [h.reserved_eq, sum_holds_of_settled hsettled]
  · rw [h.admissions_eq, countP_succeeded hrun]
  · intro ticket p hp
    obtain ⟨hactive, hreserved⟩ := h.held hp
    refine ⟨Nat.sub_add_cancel hactive, fun hadmitted => ⟨?_, ?_⟩⟩
    · show (if p.admitted then s.controller.reserved - p.bytes else s.controller.reserved) + _ = _
      rw [if_pos hadmitted, Nat.sub_add_cancel (hreserved hadmitted)]
    · rw [checkedSub64, if_pos (hreserved hadmitted)]
      simp
  · intro ticket bytes p p' c' e _ hrefused
    exact AdmissionPermit.reserve_refused hrefused

/-- Two routes: the first reserves, reserves again and drops its permit while the second is inside
its own `reserve`. -/
def twoRoutes : List AdmissionAction :=
  [.acquireSlot, .acquireSlot, .reserve 0 40, .store 0, .reserve 1 50, .reserve 0 30, .store 0,
    .reserve 0 90, .drop 0]

theorem admission_accounted_twoRoutes :
    ∃ s os, admissionMachine.run (.start 2 100) twoRoutes = some (s, os) ∧
      (s.controller.active = 1 ∧ s.controller.reserved = 50 ∧ s.controller.admissions = 2) ∧
      s.controller.active = s.livePermits.length ∧
      s.controller.reserved = (s.livePermits.map RoutePermit.holds).sum := by
  have hsome : (admissionMachine.run (.start 2 100) twoRoutes).isSome = true := by decide +kernel
  obtain ⟨⟨s, os⟩, hrun⟩ := Option.isSome_iff_exists.1 hsome
  have hvalues : (admissionMachine.run (.start 2 100) twoRoutes).map (fun r =>
      (r.1.controller.active, r.1.controller.reserved, r.1.controller.admissions)) =
      some (1, 50, 2) := by decide +kernel
  rw [hrun] at hvalues
  obtain ⟨⟨hactive, -⟩, ⟨hreserved, -⟩, -⟩ := admission_accounted 2 100 hrun
  exact ⟨s, os, hrun, by simpa using hvalues, hactive, hreserved⟩

namespace AdmissionSystem

open RoutePermit (succeeded)

/-- Nobody is active, and one route may be. -/
structure Idle (s : AdmissionSystem) : Prop where
  active_eq : s.controller.active = 0
  maximumActive_eq : s.controller.maximumActive = 1
  reserved_eq : s.controller.reserved = 0

/-- A route that reserves nothing and drops its permit. -/
def cycle (ticket : ℕ) : List AdmissionAction :=
  [.acquireSlot, .reserve ticket 0, .store ticket, .drop ticket]

lemma run_cycle {s : AdmissionSystem} (h : s.Idle) :
    ∃ t os, admissionMachine.run s (cycle s.permits.length) = some (t, os) ∧ t.Idle ∧
      t.permits = s.permits ++ [⟨⟨0, true⟩, .dropped⟩] := by
  obtain ⟨hactive, hmaximum, hreserved⟩ := h
  have hacquire : s.step .acquireSlot = some (⟨{ s.controller with
      active := 1, peakActive := max s.controller.peakActive 1 },
      s.permits ++ [⟨⟨0, false⟩, .held⟩]⟩, .acquired s.permits.length) := by
    simp [step, AdmissionController.acquireSlot, hactive, hmaximum]
  simp only [cycle, Machine.run, admissionMachine, hacquire]
  simp [step, AdmissionPermit.ask, AdmissionController.reserve, checkedAdd64, hreserved]
  exact ⟨⟨rfl, hmaximum, rfl⟩, rfl⟩

/-- From an idle state any number of routes can come and go, one after the other. -/
lemma exists_run_of_idle (n : ℕ) {s : AdmissionSystem} (h : s.Idle) :
    ∃ actions t os, admissionMachine.run s actions = some (t, os) ∧
      t.permits.countP succeeded = s.permits.countP succeeded + n := by
  induction n generalizing s with
  | zero => exact ⟨[], s, [], rfl, rfl⟩
  | succ n ih =>
    obtain ⟨t, os, hcycle, hidle, hpermits⟩ := run_cycle h
    obtain ⟨actions, u, os', hrun, hcount⟩ := ih hidle
    refine ⟨_, u, _, Machine.run_append hcycle hrun, ?_⟩
    rw [hcount, hpermits, List.countP_append]
    simp [succeeded]
    omega

end AdmissionSystem

open AdmissionSystem in
/-- The counter of admissions stops counting: after more than `u64Max` routes it is not their
number. -/
theorem admissions_saturate :
    ∃ actions s os, admissionMachine.run (.start 1 0) actions = some (s, os) ∧
      s.controller.admissions ≠ (grantedTickets os).card := by
  obtain ⟨actions, s, os, hrun, hcount⟩ :=
    exists_run_of_idle (u64Max + 1) (s := .start 1 0) ⟨rfl, rfl, rfl⟩
  refine ⟨actions, s, os, hrun, ?_⟩
  have h : s.Accounted 1 0 :=
    Machine.run_invariant (fun s a s' o hs hstep => hs.step hstep) (accounted_start 1 0) hrun
  rw [h.admissions_eq, countP_succeeded hrun]
  rw [countP_succeeded hrun] at hcount
  have hlt : u64Max < (grantedTickets os).card := by
    rw [hcount]
    exact Nat.lt_of_lt_of_le (Nat.lt_succ_self _) (Nat.le_add_left _ _)
  exact (Nat.min_le_right _ _).trans_lt hlt |>.ne

end PathHydra
