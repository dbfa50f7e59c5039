import Mathlib.Tactic.Common

/-!
# Fallible results

Peeling a successful computation apart.  A sequence of fallible steps succeeded exactly when each
step did, so a hypothesis about the whole is rewritten once into one equation per step.

`Ensures x Q E` says what a computation guarantees: `Q` of its result, or `E` of its error.  Its
rules follow the ways programs are put together: sequencing (`Ensures.bind`), a loop that carries a
state (`ensures_foldlM`, `ensures_foldlM_zipIdx`), a loop that collects results (`ensures_mapM`)
and one that only checks (`ensures_forM`).
-/

namespace PathHydra

universe u v

variable {ε : Type u} {α β : Type v}

/-- Turns an absent value into an error, as `ok_or` does. -/
def okOr (e : ε) : Option α → Except ε α
  | some a => .ok a
  | none => .error e

@[simp] lemma okOr_some (e : ε) (a : α) : okOr e (some a) = .ok a := rfl

@[simp] lemma okOr_none (e : ε) : okOr (α := α) e none = .error e := rfl

@[simp] lemma okOr_eq_ok {e : ε} {o : Option α} {a : α} : okOr e o = .ok a ↔ o = some a := by
  cases o <;> simp

/-- `Result::map_err`. -/
def mapErr {ε ε' α : Type} (f : ε → ε') : Except ε α → Except ε' α
  | .ok a => .ok a
  | .error e => .error (f e)

@[simp] lemma mapErr_eq_ok {ε ε' α : Type} {f : ε → ε'} {x : Except ε α} {a : α} :
    mapErr f x = .ok a ↔ x = .ok a := by
  rcases x with e | b <;> simp [mapErr]

lemma bind_eq_ok {x : Except ε α} {f : α → Except ε β} {b : β} :
    (x >>= f) = .ok b ↔ ∃ a, x = .ok a ∧ f a = .ok b := by
  cases x with
  | error e => simp [bind, Except.bind]
  | ok a => simp [bind, Except.bind]

/-- A check followed by a computation. -/
lemma check_bind_eq_ok {β : Type} {x : Except ε Unit} {y : Except ε β} {b : β} :
    (x >>= fun _ => y) = .ok b ↔ x = .ok () ∧ y = .ok b := by
  rcases x with e | _
  · exact iff_of_false nofun fun h => nomatch h.1
  · exact (and_iff_right rfl).symm

@[simp] lemma ok_bind (a : α) (f : α → Except ε β) : (Except.ok a >>= f) = f a := rfl

@[simp] lemma error_bind (e : ε) (f : α → Except ε β) : (Except.error e >>= f) = .error e := rfl

lemma map_eq_ok {x : Except ε α} {f : α → β} {b : β} :
    x.map f = .ok b ↔ ∃ a, x = .ok a ∧ f a = b := by
  cases x <;> simp [Except.map]

/-! ## Guarantees -/

/-- The computation ends in a result with one property or in an error with another. -/
def Ensures (x : Except ε α) (Q : α → Prop) (E : ε → Prop) : Prop :=
  match x with
  | .ok a => Q a
  | .error e => E e

section Ensures

variable {Q Q' : α → Prop} {E : ε → Prop} {x : Except ε α}

lemma Ensures.of_ok {a : α} (h : Ensures x Q E) (hx : x = .ok a) : Q a := by
  rw [hx] at h
  exact h

lemma Ensures.of_error {e : ε} (h : Ensures x Q E) (hx : x = .error e) : E e := by
  rw [hx] at h
  exact h

/-- A computation without errors has a result. -/
lemma Ensures.exists_ok (h : Ensures x Q fun _ => False) : ∃ a, x = .ok a ∧ Q a := by
  rcases hx : x with e | a
  · exact absurd (h.of_error hx) id
  · exact ⟨a, rfl, h.of_ok hx⟩

/-- What holds of every result and every error. -/
lemma ensures_of_forall (hQ : ∀ a, Q a) (hE : ∀ e, E e) : Ensures x Q E := by
  cases x with
  | ok a => exact hQ a
  | error e => exact hE e

lemma ensures_pure {a : α} (h : Q a) : Ensures (pure a : Except ε α) Q E := h

lemma ensures_throw {e : ε} (h : E e) : Ensures (throw e : Except ε α) Q E := h

lemma Ensures.mono (h : Ensures x Q E) (hQ : ∀ a, x = .ok a → Q a → Q' a) : Ensures x Q' E := by
  cases x with
  | ok a => exact hQ a rfl h
  | error e => exact h

lemma Ensures.weaken {E' : ε → Prop} (h : Ensures x Q E) (hE : ∀ e, E e → E' e) :
    Ensures x Q E' := by
  cases x with
  | ok a => exact h
  | error e => exact hE e h

/-- What a computation guarantees together with the equation of its result. -/
lemma Ensures.with_eq (h : Ensures x Q E) : Ensures x (fun a => x = .ok a ∧ Q a) E :=
  h.mono fun _ hx ha => ⟨hx, ha⟩

lemma Ensures.bind {f : α → Except ε β} {R : β → Prop} (h : Ensures x Q E)
    (hf : ∀ a, Q a → Ensures (f a) R E) : Ensures (x >>= f) R E := by
  cases x with
  | ok a => exact hf a h
  | error e => exact h

/-- A computation returns what it returns. -/
lemma ensures_ok (x : Except ε α) : Ensures x (fun a => x = .ok a) fun _ => True := by
  cases x with
  | ok a => exact rfl
  | error e => trivial

lemma ensures_okOr {e : ε} {o : Option α} (hsome : ∀ a, o = some a → Q a) (hnone : o = none → E e) :
    Ensures (okOr e o) Q E := by
  cases o with
  | some a => exact hsome a rfl
  | none => exact hnone rfl

/-- A loop that carries a state: the invariant speaks of what has been processed. -/
lemma ensures_foldlM {γ : Type*} {f : α → γ → Except ε α} {I : List γ → α → Prop} (l : List γ)
    (hstep : ∀ pre c post a, l = pre ++ c :: post → I pre a →
      Ensures (f a c) (I (pre ++ [c])) E)
    {a : α} (h : I [] a) : Ensures (l.foldlM f a) (I l) E := by
  suffices hgeneral : ∀ (post pre : List γ) (a : α), l = pre ++ post → I pre a →
      Ensures (post.foldlM f a) (I l) E from hgeneral l [] a rfl h
  intro post
  induction post with
  | nil =>
    intro pre a heq ha
    rw [List.append_nil] at heq
    exact heq ▸ ha
  | cons c post ih =>
    intro pre a heq ha
    rw [List.foldlM_cons]
    refine (hstep pre c post a heq ha).bind fun a' ha' => ?_
    exact ih (pre ++ [c]) a' (by simp [heq]) ha'

/-- A loop over a list with positions. -/
lemma ensures_foldlM_zipIdx {γ : Type*} {f : α → γ × ℕ → Except ε α} {I : List γ → α → Prop}
    (l : List γ)
    (hstep : ∀ pre c post a, l = pre ++ c :: post → I pre a →
      Ensures (f a (c, pre.length)) (I (pre ++ [c])) E)
    {a : α} (h : I [] a) : Ensures (l.zipIdx.foldlM f a) (I l) E := by
  have hfold := ensures_foldlM (I := fun pre a => I (pre.map Prod.fst) a) l.zipIdx
    (E := E) (f := f) (fun pre indexed post a hsplit ha => ?_) h
  · rwa [List.zipIdx_map_fst] at hfold
  · obtain ⟨c, index⟩ := indexed
    have hl : l = pre.map Prod.fst ++ c :: post.map Prod.fst := by
      rw [← List.zipIdx_map_fst 0 l, hsplit, List.map_append, List.map_cons]
    have hget : l.zipIdx[pre.length]? = some (c, index) := by simp [hsplit]
    obtain ⟨c', -, hindex⟩ := Option.map_eq_some_iff.1 (List.getElem?_zipIdx.symm.trans hget)
    obtain rfl : pre.length = index := by
      cases hindex
      omega
    have hturn := hstep _ c _ a hl ha
    rw [List.length_map] at hturn
    rw [List.map_append, List.map_singleton]
    exact hturn

/-- A loop that collects a result for each element. -/
lemma ensures_mapM {γ : Type*} {f : γ → Except ε α} {P : γ → α → Prop} (l : List γ)
    (h : ∀ c ∈ l, Ensures (f c) (P c) E) : Ensures (l.mapM f) (List.Forall₂ P l) E := by
  induction l with
  | nil => exact List.Forall₂.nil
  | cons c l ih =>
    rw [List.mapM_cons]
    refine (h c (by simp)).bind fun a ha => ?_
    refine (ih fun c' hc' => h c' (by simp [hc'])).bind fun as has => ?_
    exact List.Forall₂.cons ha has

end Ensures

/-- A loop that only checks. -/
lemma ensures_forM {ε γ : Type*} {E : ε → Prop} {f : γ → Except ε PUnit} {P : γ → Prop} (l : List γ)
    (h : ∀ c ∈ l, Ensures (f c) (fun _ => P c) E) :
    Ensures (l.forM f) (fun _ => ∀ c ∈ l, P c) E := by
  induction l with
  | nil => exact fun c hc => absurd hc (by simp)
  | cons c l ih =>
    show Ensures (f c >>= fun _ => l.forM f) _ E
    refine (h c (by simp)).bind fun _ hc => ?_
    refine (ih fun c' hc' => h c' (by simp [hc'])).mono fun _ _ hl c' hc' => ?_
    rcases List.mem_cons.1 hc' with rfl | hc'
    · exact hc
    · exact hl c' hc'

/-- A loop that only checks and succeeded has succeeded everywhere. -/
lemma forM_ok_mem {ε γ : Type*} {f : γ → Except ε PUnit} {l : List γ} (h : l.forM f = .ok ⟨⟩)
    {c : γ} (hc : c ∈ l) : f c = .ok ⟨⟩ := by
  have hall : Ensures (l.forM f) (fun _ => ∀ c ∈ l, f c = .ok ⟨⟩) fun _ => True :=
    ensures_forM l fun c _ => (ensures_ok (f c)).mono fun _ _ hf => hf
  exact hall.of_ok h c hc

/-- A loop that collects results and succeeded has a result for each element. -/
lemma mapM_ok_forall₂ {ε : Type*} {α : Type*} {γ : Type*} {f : γ → Except ε α} {l : List γ}
    {as : List α} (h : l.mapM f = .ok as) : List.Forall₂ (fun c a => f c = .ok a) l as :=
  (ensures_mapM (E := fun _ => True) l fun c _ => ensures_ok (f c)).of_ok h

/-- A loop that carries a state and succeeded has taken every turn. -/
lemma foldlM_ok_mem {ε γ α : Type*} {f : α → γ → Except ε α} {l : List γ} {a b : α}
    (h : l.foldlM f a = .ok b) {c : γ} (hc : c ∈ l) : ∃ a₁ a₂, f a₁ c = .ok a₂ := by
  induction l generalizing a with
  | nil => cases hc
  | cons d l ih =>
    rw [List.foldlM_cons, bind_eq_ok] at h
    obtain ⟨a', hstep, hrest⟩ := h
    rcases List.mem_cons.1 hc with rfl | hc
    · exact ⟨a, a', hstep⟩
    · exact ih hrest hc

/-- A loop that carries a state is followed by another one, turn by turn. -/
lemma foldlM_simulates {ε γ α β : Type*} {f : α → γ → Except ε α} {g : β → γ → Except ε β}
    {R : α → β → Prop} {l : List γ}
    (hstep : ∀ c ∈ l, ∀ a b a', R a b → f a c = .ok a' → ∃ b', g b c = .ok b' ∧ R a' b')
    {a a' : α} {b : β} (h : R a b) (hrun : l.foldlM f a = .ok a') :
    ∃ b', l.foldlM g b = .ok b' ∧ R a' b' := by
  induction l generalizing a b with
  | nil =>
    cases hrun
    exact ⟨b, rfl, h⟩
  | cons c l ih =>
    rw [List.foldlM_cons, bind_eq_ok] at hrun
    obtain ⟨a₁, hturn, hrest⟩ := hrun
    obtain ⟨b₁, hturn', h₁⟩ := hstep c (by simp) a b a₁ h hturn
    obtain ⟨b', hrest', h'⟩ := ih (fun c' hc' => hstep c' (by simp [hc'])) h₁ hrest
    refine ⟨b', ?_, h'⟩
    rw [List.foldlM_cons, hturn', ok_bind]
    exact hrest'

/-- What every turn of a loop keeps. -/
lemma foldlM_preserves {ε γ α : Type*} {f : α → γ → Except ε α} {P : α → Prop} {l : List γ}
    (hstep : ∀ c ∈ l, ∀ a a', f a c = .ok a' → P a → P a') {a b : α}
    (hrun : l.foldlM f a = .ok b) (h : P a) : P b := by
  obtain ⟨-, -, hb⟩ := foldlM_simulates (R := fun a (_ : Unit) => P a) (g := fun b _ => .ok b)
    (fun c hc a b a' ha hturn => ⟨b, rfl, hstep c hc a a' hturn ha⟩) (b := ()) h hrun
  exact hb

/-- What one turn of a loop establishes and the others keep. -/
lemma foldlM_reaches {ε γ α : Type*} {f : α → γ → Except ε α} {P : α → Prop} {l : List γ}
    (hkeep : ∀ c ∈ l, ∀ a a', f a c = .ok a' → P a → P a') {c : γ} (hc : c ∈ l)
    (hset : ∀ a a', f a c = .ok a' → P a') {a b : α} (hrun : l.foldlM f a = .ok b) : P b := by
  induction l generalizing a with
  | nil => cases hc
  | cons d l ih =>
    rw [List.foldlM_cons, bind_eq_ok] at hrun
    obtain ⟨a₁, hturn, hrest⟩ := hrun
    rcases List.mem_cons.1 hc with rfl | hc
    · exact foldlM_preserves (fun c' hc' => hkeep c' (by simp [hc'])) hrest (hset a a₁ hturn)
    · exact ih (fun c' hc' => hkeep c' (by simp [hc'])) hc hrest

/-- An element related to each element of a list. -/
lemma forall₂_exists_of_mem {α β : Type*} {P : α → β → Prop} {l : List α} {l' : List β}
    (h : List.Forall₂ P l l') {a : α} (ha : a ∈ l) : ∃ b ∈ l', P a b := by
  induction h with
  | nil => cases ha
  | cons hab _ ih =>
    rcases List.mem_cons.1 ha with rfl | ha
    · exact ⟨_, by simp, hab⟩
    · obtain ⟨b, hb, hp⟩ := ih ha
      exact ⟨b, by simp [hb], hp⟩

/-- A value for each element of a list, all of them at once. -/
lemma forall₂_of_forall_exists {α β : Type*} {P : α → β → Prop} {l : List α}
    (h : ∀ a ∈ l, ∃ b, P a b) : ∃ l', List.Forall₂ P l l' := by
  induction l with
  | nil => exact ⟨[], .nil⟩
  | cons a l ih =>
    obtain ⟨b, hb⟩ := h a (by simp)
    obtain ⟨l', hl'⟩ := ih fun a ha => h a (by simp [ha])
    exact ⟨b :: l', .cons hb hl'⟩

lemma forall₂_eq_map {α β : Type*} {g : α → β} {l : List α} {l' : List β}
    (h : List.Forall₂ (fun a b => b = g a) l l') : l' = l.map g := by
  induction h with
  | nil => rfl
  | cons hab _ ih => rw [List.map_cons, hab, ih]

/-- The element a related element comes from. -/
lemma getElem?_of_forall₂ {α β : Type*} {P : α → β → Prop} {l : List α} {l' : List β}
    (h : List.Forall₂ P l l') {k : ℕ} {b : β} (hk : l'[k]? = some b) :
    ∃ a, l[k]? = some a ∧ P a b := by
  induction h generalizing k with
  | nil => simp at hk
  | cons hab _ ih =>
    rcases k with _ | k
    · rw [List.getElem?_cons_zero, Option.some.injEq] at hk
      exact ⟨_, rfl, hk ▸ hab⟩
    · exact ih hk

lemma map_eq_map_ok {ε α β : Type*} {f : α → Except ε β} {l : List α} {l' : List β}
    (h : List.Forall₂ (fun a b => f a = .ok b) l l') : l.map f = l'.map .ok := by
  induction h with
  | nil => rfl
  | cons hab _ ih => rw [List.map_cons, List.map_cons, hab, ih]

/-- A value behind each result, all of them at once. -/
lemma forall₂_choose {α β γ : Type*} {P : α → γ → Prop} {f : γ → β} {l : List α} {l' : List β}
    (h : List.Forall₂ (fun a b => ∃ c, P a c ∧ b = f c) l l') :
    ∃ cs, List.Forall₂ P l cs ∧ l' = cs.map f := by
  induction h with
  | nil => exact ⟨[], .nil, rfl⟩
  | cons hab _ ih =>
    obtain ⟨c, hc, rfl⟩ := hab
    obtain ⟨cs, hcs, rfl⟩ := ih
    exact ⟨c :: cs, .cons hc hcs, rfl⟩

/-- A loop whose every turn succeeds computes what the turns compute. -/
lemma foldlM_eq_ok {ε γ α : Type*} {f : α → γ → Except ε α} (acc : List γ → α) (l : List γ)
    (h : ∀ pre c post, l = pre ++ c :: post → f (acc pre) c = .ok (acc (pre ++ [c]))) :
    l.foldlM f (acc []) = .ok (acc l) := by
  have hens : Ensures (l.foldlM f (acc [])) (fun a => a = acc l) (fun _ => False) := by
    refine ensures_foldlM (I := fun pre a => a = acc pre) l (fun pre c post a heq ha => ?_) rfl
    rw [ha, h pre c post heq]
    exact rfl
  cases hrun : l.foldlM f (acc []) with
  | ok a => rw [hens.of_ok hrun]
  | error e => exact absurd (hens.of_error hrun) id

lemma mapM_eq_ok {ε γ α : Type*} {f : γ → Except ε α} {g : γ → α} (l : List γ)
    (h : ∀ c ∈ l, f c = .ok (g c)) : l.mapM f = .ok (l.map g) := by
  induction l with
  | nil => rfl
  | cons c l ih =>
    rw [List.mapM_cons, h c (by simp), ih fun c' hc' => h c' (by simp [hc'])]
    rfl

lemma forM_eq_ok {ε γ : Type*} {f : γ → Except ε PUnit} (l : List γ)
    (h : ∀ c ∈ l, f c = .ok ⟨⟩) : l.forM f = .ok ⟨⟩ := by
  induction l with
  | nil => rfl
  | cons c l ih =>
    show (f c >>= fun _ => l.forM f) = .ok ⟨⟩
    rw [h c (by simp)]
    exact ih fun c' hc' => h c' (by simp [hc'])

/-! ## Stateful computations -/

section

variable {ε σ α : Type} {x : EStateM ε σ α} {s s' : σ}

lemma run'_eq_some {a : α} (h : x s = .ok a s') : x.run' s = some a := by
  delta EStateM.run' EStateM.run
  rw [h]

lemma run'_eq_none {e : ε} (h : x s = .error e s') : x.run' s = none := by
  delta EStateM.run' EStateM.run
  rw [h]

end

end PathHydra
