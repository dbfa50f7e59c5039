import PathHydra.Properties.Engine.Freshness

/-!
# Retirement is safe

What a step does to the bundles the retirement manager tracks: it deletes one only when nothing
refers to it, keeps tracking one it could not delete, and tracks a bundle that a route still leases
only within its limits.  The last part rests on the count of the leases of the published image, and
that count loses the leases of an image that is published anew under the same bundle.
-/

namespace PathHydra

namespace PublicationSystem

variable {config : PublicationConfig} {action : PublicationAction} {s s' : PublicationSystem}
  {t : Tables}

/-! ## Which steps touch the tracked bundles -/

/-- An effect outside a reap and a crash leaves the tracked bundles. -/
lemma Micro.retired_eq (hinv : Inv config s t) (h : Micro config action s s')
    (hreaps : reaps action = false) (hcrash : action ≠ .crash) : s'.retired = s.retired := by
  cases h with
  | reap failing ha =>
    rw [ha] at hreaps
    cases hreaps
  | retire ha hw hadmits =>
    subst ha
    cases hreaps
  | crashed ha =>
    rcases ha with ha | hphase
    · exact absurd ha hcrash
    · exact (hinv.phase.idle hphase).2.2.symm
  | @failed kind _ _ _ _ ha hw hstage hfails hclears => rcases kind with _ | _ | _ <;> rfl
  | @cleared kind _ answer _ _ ha hw =>
    obtain ⟨catalog, hclear⟩ := s.clearPointer_eq answer
    rw [hclear]
    rcases kind with _ | _ | _ <;> rfl
  | _ => rfl

lemma Micros.retired_eq (hinv : Inv config s t) (h : Micros config action s s')
    (hreaps : reaps action = false) (hcrash : action ≠ .crash) : s'.retired = s.retired := by
  induction h with
  | refl => rfl
  | tail hmicros hmicro ih =>
    obtain ⟨t', hinv'⟩ := hinv.micros hmicros
    exact (hmicro.retired_eq hinv' hreaps hcrash).trans ih

/-- What a step with a reap does to the tracked bundles: they are reaped first, if at all, and then
the bundle that is being replaced is tracked, if it may be. -/
structure Reaped (config : PublicationConfig) (s s' u : PublicationSystem) : Prop where
  reap : u = s ∨ ∃ failing, u = s.reap failing
  disk : s'.disk = u.disk
  retired : s'.retired = u.retired ∨ ∃ kind bundle current enforce,
    s.writer = some ⟨kind, .retire bundle current enforce⟩ ∧
    s'.retired = u.retired ++ [RetiredBundle.mk current.root (config.totalBytes current.graph)] ∧
    (admits config u.retired (config.totalBytes current.graph) = true ∨ enforce = false)

lemma writerStep_reaped (hreaps : reaps action = true)
    (h : s.writerStep config action = some s') : ∃ u, Reaped config s s' u := by
  unfold writerStep at h
  split at h
  · cases h
  · rename_i kind stage hw
    split at h
    · cases h
      unfold awaitCapacityStep
      split
      · exact ⟨s, .inl rfl, rfl, .inl rfl⟩
      · split
        · rename_i failing _ _ _ _
          dsimp only
          split
          · exact ⟨s.reap failing, .inr ⟨failing, rfl⟩, rfl, .inl rfl⟩
          · exact ⟨s.reap failing, .inr ⟨failing, rfl⟩, rfl, .inl rfl⟩
        · exact ⟨s, .inl rfl, rfl, .inl rfl⟩
    · cases hreaps
    · rename_i failing bundle current enforce
      cases h
      unfold retireStep
      dsimp only
      refine ⟨s.reap failing, .inr ⟨failing, rfl⟩, ?_, ?_⟩
      · split
        · rfl
        · split <;> rfl
      · split
        · exact .inl rfl
        · split
          · rename_i hadmits
            exact .inr ⟨_, bundle, current, enforce, hw, rfl, by simpa using hadmits⟩
          · exact .inl rfl
    · cases hreaps
    · cases h

lemma step_reaped (hreaps : reaps action = true)
    (h : (publication config).step s action = some (s', ())) : ∃ u, Reaped config s s' u := by
  have hrunning : ∀ {v : PublicationSystem}, s.runningStep config action = some v →
      ∃ u, Reaped config s v u := by
    intro v hv
    unfold reaps at hreaps
    split at hreaps
    · cases hv
      exact ⟨_, .inr ⟨_, rfl⟩, rfl, .inl rfl⟩
    · exact writerStep_reaped rfl hv
    · exact writerStep_reaped rfl hv
    · cases hreaps
  unfold publication at h
  dsimp only at h
  split at h
  · cases hreaps
  · split at h
    · obtain ⟨v, hv, heq⟩ := Option.map_eq_some_iff.1 h
      cases heq
      exact hrunning hv
    · obtain ⟨v, hv, heq⟩ := Option.map_eq_some_iff.1 h
      rw [startupStep_of_reaps hreaps] at hv
      cases hv

lemma reap_eq_some {failing : List String}
    (h : (publication config).step s (.reap failing) = some (s', ())) : s' = s.reap failing := by
  simp only [publication] at h
  split at h
  · obtain ⟨u, hu, heq⟩ := Option.map_eq_some_iff.1 h
    cases heq
    exact (Option.some.inj hu).symm
  · rw [startupStep_of_reaps rfl] at h
    cases h

/-! ## The leases the limits are about -/

/-- The published image is published anew, under the same bundle, only while nothing leases it. -/
def KeepsLeases (s : PublicationSystem) (action : PublicationAction) : Prop :=
  action = .replaceImage → s.executionLeaseCount ≤ 1

/-- The leases of the published bundle are leases of the published image, so that the count of its
leases sees them; and a replaced bundle that has one is retired within the limits. -/
structure LeasesCounted (s : PublicationSystem) : Prop where
  current : ∀ image, s.published = some image → ∀ lease ∈ s.leases,
    lease.bundle.root = image.bundle.root → lease.address = image.address
  enforced : ∀ kind bundle current enforce,
    s.writer = some ⟨kind, .retire bundle current enforce⟩ →
      ∀ lease ∈ s.leases, lease.bundle.root = current.root → enforce = true

/-- A lease of the published image is counted. -/
lemma executionLeaseCount_of_lease {image lease : ExecutionImage} (hp : s.published = some image)
    (hmem : lease ∈ s.leases) (haddress : lease.address = image.address) :
    2 ≤ s.executionLeaseCount := by
  have hpos : 0 < s.leases.countP fun lease => decide (lease.address = image.address) :=
    List.countP_pos_iff.2 ⟨lease, hmem, decide_eq_true haddress⟩
  simp only [executionLeaseCount, hp]
  omega

/-- An image that is published anew takes one effect. -/
lemma replaceImage_micro (h : (publication config).step s .replaceImage = some (s', ())) :
    Micro config .replaceImage s s' := by
  simp only [publication] at h
  split at h
  · rename_i hphase
    obtain ⟨u, hu, heq⟩ := Option.map_eq_some_iff.1 h
    cases heq
    simp only [runningStep] at hu
    split at hu
    · rename_i hw
      obtain ⟨image, hp, rfl⟩ := Option.map_eq_some_iff.1 hu
      exact .replaceImage rfl hphase (by simpa using hw) hp
    · cases hu
  · obtain ⟨u, hu, -⟩ := Option.map_eq_some_iff.1 h
    rcases hphase : s.phase with _ | _ | _ | _ | _ <;> simp [startupStep, hphase] at hu

namespace LeasesCounted

/-- Fewer leases, the same image or none, and no writer at its retirement. -/
lemma mono (h : LeasesCounted s) (hleases : ∀ lease ∈ s'.leases, lease ∈ s.leases)
    (hpublished : ∀ image, s'.published = some image → s.published = some image)
    (hwriter : ∀ kind bundle current enforce,
      s'.writer = some ⟨kind, .retire bundle current enforce⟩ → s'.writer = s.writer) :
    LeasesCounted s' where
  current image himage lease hmem :=
    h.current image (hpublished image himage) lease (hleases lease hmem)
  enforced kind bundle current enforce hw lease hmem := by
    rw [hwriter _ _ _ _ hw] at hw
    exact h.enforced kind bundle current enforce hw lease (hleases lease hmem)

/-- An image of a bundle that nothing leases is published, and there is no writer any more. -/
lemma publish {image : ExecutionImage} (hp : s'.published = some image)
    (hroot : ∀ lease ∈ s'.leases, lease.bundle.root ≠ image.bundle.root)
    (hwriter : ∀ kind bundle current enforce,
      s'.writer ≠ some ⟨kind, .retire bundle current enforce⟩) : LeasesCounted s' where
  current image' himage lease hmem hlease := by
    rw [hp] at himage
    cases himage
    exact absurd hlease (hroot lease hmem)
  enforced kind bundle current enforce hw := absurd hw (hwriter kind bundle current enforce)

/-- A build fails. -/
lemma failBuild (h : LeasesCounted s) (catalog : Catalog) (kind : WriterKind) :
    LeasesCounted ({ s with catalog := catalog }.failBuild kind) := by
  rcases kind with _ | _ | _
  · exact h.mono (fun _ hl => hl) (fun _ hp => by cases hp) fun _ _ _ _ hw => by cases hw
  · exact h.mono (fun _ hl => hl) (fun _ hp => hp) fun _ _ _ _ hw => by cases hw
  · exact h.mono (fun _ hl => hl) (fun _ hp => by cases hp) fun _ _ _ _ hw => by cases hw

/-- Every effect of a step that keeps the leases keeps them counted. -/
lemma micro (hinv : Inv config s t) (hs : LeasesCounted s) (hkeeps : KeepsLeases s action)
    (h : Micro config action s s') : LeasesCounted s' := by
  have hidle : s.phase ≠ .running → ∀ lease, lease ∉ s.leases := fun hphase lease hmem => by
    rw [(hinv.phase.idle hphase).1] at hmem
    cases hmem
  cases h with
  | dropLease i => exact hs.mono (fun _ h => List.mem_of_mem_eraseIdx h) (fun _ h => h)
                    fun _ _ _ _ _ => rfl
  | lease hphase hw hp =>
    refine ⟨fun image himage lease hmem hroot => ?_, fun kind bundle current enforce hw' => ?_⟩
    · have hsame := hp.symm.trans himage
      rcases List.mem_cons.1 hmem with rfl | hmem
      · cases hsame
        rfl
      · exact hs.current image himage lease hmem hroot
    · have hnone := hw.symm.trans hw'
      cases hnone
  | replaceImage ha hphase hw hp =>
    refine publish rfl (fun lease hmem hroot => ?_) fun kind bundle current enforce hw' => ?_
    · -- an image that is swapped for one with the same bundle is leased by nobody
      have hcount := executionLeaseCount_of_lease hp hmem (hs.current _ hp lease hmem hroot)
      have hle := hkeeps ha
      omega
    · have hnone := hw.symm.trans hw'
      cases hnone
  | swapped hw =>
    -- the new bundle is held by nobody yet
    have hplaced : Placed config s t _ := hinv.stage _ hw
    refine publish rfl (fun lease hmem => ?_) fun _ _ _ _ hw' => by cases hw'
    exact hplaced.unshared.outside lease.bundle (mem_outside.2 (.inr (.inl ⟨lease, hmem, rfl⟩)))
  | started hw =>
    have hbuilding := (hinv.starting hw).1
    exact publish rfl (fun lease hmem => absurd hmem (hidle (by simp [hbuilding]) lease))
      fun _ _ _ _ hw' => by cases hw'
  | reopened hphase hread hopen =>
    refine publish rfl (fun lease hmem => absurd hmem (hidle (by simp [hphase]) lease))
      fun kind bundle current enforce hw' => ?_
    have hnone := (hinv.writer_eq_none (by simp [hphase]) (by simp [hphase])).symm.trans hw'
    cases hnone
  | replacing hw hp =>
    refine ⟨hs.current, fun kind bundle current enforce hw' lease hmem hroot => ?_⟩
    cases hw'
    have hcount := executionLeaseCount_of_lease hp hmem (hs.current _ hp lease hmem hroot)
    -- a lease makes the count exceed one, so the limits are enforced
    exact decide_eq_true (by omega)
  | failed ha hw hstage hfails hclears => exact hs.failBuild s.catalog _
  | @cleared kind _ answer _ _ ha hw =>
    obtain ⟨catalog, hclear⟩ := s.clearPointer_eq answer
    rw [hclear]
    exact hs.failBuild catalog kind
  | shutdown hphase hw => exact hs.mono (fun _ h => h) (fun _ h => by cases h) fun _ _ _ _ _ => rfl
  | required hphase hpointer => exact hs.mono (fun _ h => h) (fun _ h => by cases h)
                                  fun _ _ _ _ _ => rfl
  | crashed ha => exact hs.mono (fun _ h => by cases h) (fun _ h => by cases h)
                    fun _ _ _ _ h => by cases h
  | @awaited kind hw =>
    refine hs.mono (fun _ h => h) (fun _ h => h) fun _ _ _ _ h => ?_
    rcases kind with _ | _ | _ <;> cases h
  | _ =>
    first
      | exact hs.mono (fun _ h => h) (fun _ h => h) fun _ _ _ _ _ => rfl
      | exact hs.mono (fun _ h => h) (fun _ h => h) fun _ _ _ _ h => by cases h

lemma step (hinv : Inv config s t) (hs : LeasesCounted s) (hkeeps : KeepsLeases s action)
    (h : (publication config).step s action = some (s', ())) : LeasesCounted s' := by
  by_cases ha : action = .replaceImage
  · subst ha
    exact hs.micro hinv hkeeps (replaceImage_micro h)
  · have hmicros := step_micros h
    clear h
    induction hmicros with
    | refl => exact hs
    | tail hbefore hmicro ih =>
      obtain ⟨t', hinv'⟩ := hinv.micros hbefore
      exact ih.micro hinv' (fun heq => absurd heq ha) hmicro

end LeasesCounted

/-! ## Retirement -/

/-- What a step may do to the bundles the retirement manager tracks.  One whose directory it deletes
is not published, has no live handle and is not named by the pointer; one whose directory is still
there stays tracked, and a reap that can delete it does; and a bundle that is retired while a route
leases it leaves the manager within its limits. -/
structure RetirementSafe (config : PublicationConfig) (s s' : PublicationSystem)
    (action : PublicationAction) : Prop where
  deleted : ∀ e ∈ s.retired, s'.hasChild e.path = false →
    (∀ image, s.published = some image → image.bundle.root ≠ e.path) ∧ s.alive e.path = false ∧
      s.pointerName ≠ some e.path
  tracked : action ≠ .crash → ∀ e ∈ s.retired, s'.hasChild e.path = true → e ∈ s'.retired
  reaped : ∀ failing, action = .reap failing → ∀ e ∈ s.retired, s.alive e.path = false →
    e.path ∉ failing → s'.hasChild e.path = false ∧ e ∉ s'.retired
  bounded : ∀ e ∈ s'.retired, e ∉ s.retired →
    (∃ lease ∈ s.leases, lease.bundle.root = e.path) →
      s'.retired.length ≤ config.maximumRetiredBundleCount ∧
        retiredBytes s'.retired ≤ config.maximumRetiredBundleBytes

/-- Another bundle that is admitted stays within the limits. -/
lemma admits_bounded {retired : List RetiredBundle} {e : RetiredBundle}
    (h : admits config retired e.bytes = true) :
    (retired ++ [e]).length ≤ config.maximumRetiredBundleCount ∧
      retiredBytes (retired ++ [e]) ≤ config.maximumRetiredBundleBytes := by
  simp only [admits, Bool.and_eq_true, decide_eq_true_eq] at h
  obtain ⟨hcount, hbytes⟩ := h
  refine ⟨by simp; omega, ?_⟩
  have hsum : retiredBytes (retired ++ [e]) = saturatingAdd64 (retiredBytes retired) e.bytes := by
    simp [retiredBytes]
  rcases htotal : checkedAdd64 (retiredBytes retired) e.bytes with _ | total
  · rw [htotal] at hbytes
    cases hbytes
  · rw [htotal] at hbytes
    obtain ⟨hfits, rfl⟩ := checkedAdd64_eq_some.1 htotal
    rw [hsum]
    exact le_trans (min_le_left _ _) (of_decide_eq_true hbytes)

/-- A directory that a reap deletes is free of handles and of the pointer. -/
lemma Inv.reap_deleted (hinv : Inv config s t) {failing : List String} {e : RetiredBundle}
    (he : e ∈ s.retired) (hgone : (s.reap failing).hasChild e.path = false) :
    (∀ image, s.published = some image → image.bundle.root ≠ e.path) ∧ s.alive e.path = false ∧
      s.pointerName ≠ some e.path := by
  have hdead : s.alive e.path = false := by
    by_contra halive
    obtain ⟨child, hmem, hname⟩ := hasChild_iff.1 (hinv.retired e he)
    have hkept : child ∈ (s.reap failing).disk :=
      mem_reap_disk.2 ⟨hmem, fun e' _ hname' => .inl (by rw [← hname', hname]; simpa using halive)⟩
    rw [hasChild_iff.2 ⟨child, hkept, hname⟩] at hgone
    cases hgone
  refine ⟨fun image himage hroot => ?_, hdead, ?_⟩
  · have halive : s.alive e.path = true :=
      alive_iff.2 ⟨image.bundle, mem_handles.2 (.inl (mem_outside.2 (.inl ⟨image, himage, rfl⟩))),
        hroot⟩
    rw [hdead] at halive
    cases halive
  · rw [hinv.pointerName_eq]
    intro hpointer
    obtain ⟨p, hp, hname⟩ := Option.map_eq_some_iff.1 hpointer
    exact hinv.unpointed e he p hp hname.symm

/-- A tracked bundle whose directory a reap leaves stays tracked. -/
lemma mem_reap_of_hasChild {failing : List String} {e : RetiredBundle} (he : e ∈ s.retired)
    (hchild : (s.reap failing).hasChild e.path = true) : e ∈ (s.reap failing).retired := by
  obtain ⟨child, hmem, hname⟩ := hasChild_iff.1 hchild
  exact mem_reap_retired.2 ⟨he, (mem_reap_disk.1 hmem).2 e he hname⟩

lemma retirementSafe_step (hinv : Inv config s t) (hs : LeasesCounted s)
    (h : (publication config).step s action = some (s', ())) : RetirementSafe config s s' action := by
  by_cases hcrash : action = .crash
  · subst hcrash
    cases h
    refine ⟨fun e he hgone => ?_, fun hne => absurd rfl hne, fun failing ha => (by cases ha),
      fun e he => (by cases he)⟩
    rw [show s.crashed.hasChild e.path = s.hasChild e.path from rfl, hinv.retired e he] at hgone
    cases hgone
  rcases hreaps : reaps action with _ | _
  · have hretired := Micros.retired_eq hinv (step_micros h) hreaps hcrash
    obtain ⟨t', hinv'⟩ := hinv.micros (step_micros h)
    refine ⟨fun e he hgone => ?_, fun _ e he _ => hretired ▸ he, fun failing ha => ?_,
      fun e he hnew => absurd (hretired ▸ he) hnew⟩
    · rw [hinv'.retired e (hretired ▸ he)] at hgone
      cases hgone
    · subst ha
      cases hreaps
  · -- a step that reaps first reaps, and then adds one bundle at most
    obtain ⟨u, hreap, hdisk, hretired⟩ := step_reaped hreaps h
    have hsubset : ∀ e ∈ u.retired, e ∈ s.retired := by
      rcases hreap with rfl | ⟨failing, rfl⟩
      · exact fun e he => he
      · exact fun e he => (mem_reap_retired.1 he).1
    have hkept : ∀ e ∈ u.retired, e ∈ s'.retired := by
      rcases hretired with heq | ⟨_, _, _, _, _, heq, _⟩
      · exact fun e he => heq ▸ he
      · exact fun e he => heq ▸ List.mem_append_left _ he
    have hchild : ∀ name, s'.hasChild name = u.hasChild name := fun name => by
      rw [hasChild, hasChild, hdisk]
    refine ⟨fun e he hgone => ?_, fun _ e he hthere => hkept e ?_,
      fun failing ha e he hdead hfail => ?_, fun e he hnew hlease => ?_⟩
    · rw [hchild] at hgone
      rcases hreap with rfl | ⟨failing, rfl⟩
      · rw [hinv.retired e he] at hgone
        cases hgone
      · exact hinv.reap_deleted he hgone
    · rw [hchild] at hthere
      rcases hreap with rfl | ⟨failing, rfl⟩
      · exact he
      · exact mem_reap_of_hasChild he hthere
    · subst ha
      obtain rfl := reap_eq_some h
      refine ⟨Bool.eq_false_iff.2 fun hthere => ?_, fun hmem => ?_⟩
      · exact (mem_reap_retired.1 (mem_reap_of_hasChild he hthere)).2.elim
          (fun halive => by rw [hdead] at halive; cases halive) hfail
      · exact (mem_reap_retired.1 hmem).2.elim
          (fun halive => by rw [hdead] at halive; cases halive) hfail
    · rcases hretired with heq | ⟨kind, bundle, current, enforce, hw, heq, hadmits⟩
      · exact absurd (hsubset e (heq ▸ he)) hnew
      · rw [heq, List.mem_append, List.mem_singleton] at he
        rcases he with he | rfl
        · exact absurd (hsubset e he) hnew
        · obtain ⟨lease, hmem, hroot⟩ := hlease
          rw [heq]
          -- a leased bundle is added only within the limits
          refine admits_bounded (hadmits.resolve_right fun hfalse => ?_)
          rw [hs.enforced kind bundle current enforce hw lease hmem hroot] at hfalse
          cases hfalse

lemma run_leasesCounted {actions : List PublicationAction} {os : List Unit} (hinv : Inv config s t)
    (hs : LeasesCounted s) (hguard : (publication config).Guarded KeepsLeases s actions)
    (hrun : (publication config).run s actions = some (s', os)) :
    ∃ t', Inv config s' t' ∧ LeasesCounted s' := by
  refine (Machine.run_guarded (I := fun s => ∃ t, Inv config s t ∧ LeasesCounted s)
    (P := fun _ => True) (fun u a u' _ hu hkeeps hstep => ⟨?_, trivial⟩) ⟨t, hinv, hs⟩ hguard
    hrun).1
  obtain ⟨t', hinv', hu'⟩ := hu
  obtain ⟨t'', hinv''⟩ := hinv'.micros (step_micros hstep)
  exact ⟨t'', hinv'', hu'.step hinv' hkeeps hstep⟩

/-- In every run in which the published image is published anew only while nothing leases it, every
step treats the retired bundles safely. -/
theorem run_retirementSafe {s₀ : PublicationSystem} {actions : List PublicationAction}
    {os : List Unit} (hstart : Initial s₀)
    (hguard : (publication config).Guarded KeepsLeases s₀ actions)
    (hrun : (publication config).run s₀ actions = some (s, os))
    (hstep : (publication config).step s action = some (s', ())) :
    RetirementSafe config s s' action := by
  have hcounted : LeasesCounted s₀ := by
    rw [← hstart.closed]
    exact ⟨fun image himage => (by cases himage), fun _ _ _ _ hw => by cases hw⟩
  obtain ⟨t, hinv, hs⟩ := run_leasesCounted hstart.inv hcounted hguard hrun
  exact retirementSafe_step hinv hs hstep

/-- A route leases the first image, and a rebuild goes on until it is to retire that image's
bundle. -/
def leasedRebuildActions (between : List PublicationAction) : List PublicationAction :=
  startActions ++ [.lease] ++ between ++ [.beginRebuild, .awaitCapacity []] ++
    List.replicate 9 (.build .succeeds 1 .written)

/-- The name of the first bundle. -/
def firstBundle : String := bundleName (smallConfig.manifestChecksum ⟨[], [], []⟩) 1 0

/-- The leased bundle is retired, within the limits. -/
theorem run_retirementSafe_leased : ∃ s os s',
    (publication smallConfig).run fresh (leasedRebuildActions []) = some (s, os) ∧
      (publication smallConfig).step s (.retire []) = some (s', ()) ∧
      ⟨firstBundle, 5⟩ ∈ s'.retired ∧ s'.retired.length ≤ 2 ∧ retiredBytes s'.retired ≤ 8 := by
  have hretired : (((publication smallConfig).run fresh (leasedRebuildActions [])).bind fun r =>
      ((publication smallConfig).step r.1 (.retire [])).map fun r' =>
        (r.1.retired, r.1.leases.map fun lease => lease.bundle.root, r'.1.retired)) =
      some ([], [firstBundle], [⟨firstBundle, 5⟩]) := by
    decide +kernel
  have hguard : (publication smallConfig).Guarded KeepsLeases fresh (leasedRebuildActions []) := by
    refine Machine.guarded_of_forall (fun a hmem _ ha => ?_) fresh
    subst ha
    simp [leasedRebuildActions, startActions, buildActions] at hmem
  obtain ⟨⟨s, os⟩, hrun, hs⟩ := Option.bind_eq_some_iff.1 hretired
  obtain ⟨⟨s', u⟩, hstep, hs'⟩ := Option.map_eq_some_iff.1 hs
  simp only [Prod.mk.injEq] at hs'
  obtain ⟨hbefore, hleases, hafter⟩ := hs'
  have hsafe := run_retirementSafe fresh_initial hguard hrun hstep
  have hmem : (⟨firstBundle, 5⟩ : RetiredBundle) ∈ s'.retired := by simp [hafter]
  refine ⟨s, os, s', hrun, hstep, hmem, hsafe.bounded _ hmem (by simp [hbefore]) ?_⟩
  have hroot : firstBundle ∈ s.leases.map fun lease => lease.bundle.root := by simp [hleases]
  exact List.mem_map.1 hroot

/-- A small engine that may track a single byte. -/
def tightConfig : PublicationConfig := { smallConfig with maximumRetiredBundleBytes := 1 }

/-- The image is published anew while a route leases it: the lease is not counted any more, and the
rebuild retires its bundle beyond the limit. -/
theorem leased_bundle_retired_beyond_limit : ∃ s os s',
    (publication tightConfig).run fresh (leasedRebuildActions [.replaceImage]) = some (s, os) ∧
      (publication tightConfig).step s (.retire []) = some (s', ()) ∧
      ¬ RetirementSafe tightConfig s s' (.retire []) := by
  have hretired : (((publication tightConfig).run fresh
      (leasedRebuildActions [.replaceImage])).bind fun r =>
      ((publication tightConfig).step r.1 (.retire [])).map fun r' =>
        (r.1.retired, r.1.leases.map fun lease => lease.bundle.root, r'.1.retired)) =
      some ([], [firstBundle], [⟨firstBundle, 5⟩]) := by
    decide +kernel
  obtain ⟨⟨s, os⟩, hrun, hs⟩ := Option.bind_eq_some_iff.1 hretired
  obtain ⟨⟨s', u⟩, hstep, hs'⟩ := Option.map_eq_some_iff.1 hs
  simp only [Prod.mk.injEq] at hs'
  obtain ⟨hbefore, hleases, hafter⟩ := hs'
  refine ⟨s, os, s', hrun, hstep, fun hsafe => ?_⟩
  have hmem : (⟨firstBundle, 5⟩ : RetiredBundle) ∈ s'.retired := by simp [hafter]
  have hroot : firstBundle ∈ s.leases.map fun lease => lease.bundle.root := by simp [hleases]
  obtain ⟨-, hbytes⟩ := hsafe.bounded _ hmem (by simp [hbefore]) (List.mem_map.1 hroot)
  have hfive : retiredBytes [⟨firstBundle, 5⟩] = 5 := by
    simp [retiredBytes, saturatingAdd64, u64Max]
  rw [hafter, hfive] at hbytes
  exact absurd hbytes (by decide)

end PublicationSystem

end PathHydra
