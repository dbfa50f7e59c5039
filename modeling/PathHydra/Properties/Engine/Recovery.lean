import PathHydra.Construction.Engine.Recovery
import PathHydra.Properties.Engine.Retirement

/-!
# What a recovery waits for

The holder of the routing write lock waits for retirement capacity before it changes anything, as
long as the published image has a lease besides its own handle.  The thread of a recovering route
holds such a lease itself.  It does not wait for that lease as long as the retirement manager has
room for the bundle of the published image when the recovery begins; without that room it waits
until the lease it holds is gone.  In `retire` nobody waits, since the wait before has made
room. -/

namespace PathHydra

/-- The stages past the wait for capacity, up to the count of the leases. -/
def WriterStage.awaited : WriterStage → Bool
  | .awaitCapacity | .retire _ _ _ | .swap _ => false
  | _ => true

namespace PublicationSystem

variable {config : PublicationConfig} {action : PublicationAction} {s s' : PublicationSystem}
  {t : Tables} {failing : List String}

/-! ## Waiting -/

/-- One turn of the wait for retirement capacity, or of the loop of `retire`. -/
def waitTurn (config : PublicationConfig) (s : PublicationSystem) (failing : List String) :
    Option PublicationSystem :=
  match s.writer with
  | some ⟨kind, .awaitCapacity⟩ => some (s.awaitCapacityStep config kind failing)
  | some ⟨kind, .retire bundle current enforceLimits⟩ =>
    some (s.retireStep config kind bundle current enforceLimits failing)
  | _ => none

/-- The holder of the routing write lock waits: its turn leaves it where it stands. -/
def Waits (config : PublicationConfig) (s : PublicationSystem) (failing : List String) : Prop :=
  ∃ s', s.waitTurn config failing = some s' ∧ s'.writer = s.writer

/-- The manager has room for the bundle of an image beside those it tracks. -/
def hasRoom (config : PublicationConfig) (s : PublicationSystem) (image : ExecutionImage) : Bool :=
  admits config s.retired (config.totalBytes image.bundle.graph)

lemma retiredBytes_eq (retired : List RetiredBundle) :
    retiredBytes retired = min (retired.map RetiredBundle.bytes).sum u64Max := by
  have hfold : ∀ (retired : List RetiredBundle) (n : ℕ), n ≤ u64Max →
      retired.foldl (fun total entry => saturatingAdd64 total entry.bytes) n =
        min (n + (retired.map RetiredBundle.bytes).sum) u64Max := by
    intro retired
    induction retired with
    | nil =>
      intro n hn
      simpa using hn
    | cons entry rest ih =>
      intro n hn
      have hmax : saturatingAdd64 n entry.bytes ≤ u64Max := min_le_right _ _
      rw [List.foldl_cons, ih _ hmax, saturatingAdd64, List.map_cons, List.sum_cons]
      omega
  rw [retiredBytes, hfold retired 0 (Nat.zero_le _), Nat.zero_add]

/-- Room is not lost when fewer bundles are tracked. -/
lemma admits_of_sublist {retired retired' : List RetiredBundle} {bytes : ℕ}
    (hsub : retired'.Sublist retired) (h : admits config retired bytes = true) :
    admits config retired' bytes = true := by
  simp only [admits, Bool.and_eq_true, decide_eq_true_eq] at h ⊢
  obtain ⟨hcount, hbytes⟩ := h
  refine ⟨hsub.length_le.trans_lt hcount, ?_⟩
  have hle : retiredBytes retired' ≤ retiredBytes retired := by
    rw [retiredBytes_eq, retiredBytes_eq]
    exact min_le_min_right _ ((hsub.map RetiredBundle.bytes).sum_le_sum fun _ _ => Nat.zero_le _)
  rcases htotal : checkedAdd64 (retiredBytes retired) bytes with _ | total
  · rw [htotal] at hbytes
    cases hbytes
  · rw [htotal] at hbytes
    obtain ⟨hfits, rfl⟩ := checkedAdd64_eq_some.1 htotal
    rw [checkedAdd64_eq_some.2 ⟨by omega, rfl⟩]
    apply decide_eq_true
    exact (Nat.add_le_add_right hle bytes).trans (of_decide_eq_true hbytes)

lemma reap_retired_sublist (s : PublicationSystem) (failing : List String) :
    (s.reap failing).retired.Sublist s.retired := by
  simp only [reap, reapLoop_eq]
  exact List.filter_sublist

/-! ## What a step does to a wait -/

/-- A wait has become no harder: the same image is published, with no more leases, and no more
bundles are tracked. -/
structure Eases (s s' : PublicationSystem) : Prop where
  published : s'.published = s.published
  leases : s'.executionLeaseCount ≤ s.executionLeaseCount
  retired : s'.retired.Sublist s.retired

/-- The count sees no more leases when there are none new. -/
lemma Eases.of_leases (hpublished : s'.published = s.published)
    (hleases : s'.leases.Sublist s.leases) (hretired : s'.retired.Sublist s.retired) :
    Eases s s' := by
  refine ⟨hpublished, ?_, hretired⟩
  rw [executionLeaseCount, executionLeaseCount, hpublished]
  rcases s.published with _ | image
  · exact le_rfl
  · exact Nat.add_le_add_left hleases.countP_le 1

lemma Eases.of_eq (hpublished : s'.published = s.published) (hleases : s'.leases = s.leases)
    (hretired : s'.retired = s.retired) : Eases s s' :=
  .of_leases hpublished (hleases ▸ List.Sublist.refl _) (hretired ▸ List.Sublist.refl _)

lemma Eases.reap (s : PublicationSystem) (failing : List String) : Eases s (s.reap failing) :=
  ⟨rfl, le_of_eq rfl, s.reap_retired_sublist failing⟩

lemma Eases.hasRoom {image : ExecutionImage} (h : Eases s s')
    (hroom : s.hasRoom config image = true) : s'.hasRoom config image = true :=
  admits_of_sublist h.retired hroom

/-- What a step does to the writer, and to what its waits look at. -/
inductive WriterMove (config : PublicationConfig) (s s' : PublicationSystem) : Prop
  | unlocked (hw' : s'.writer = none)
  | begins {kind} (hw : s.writer = none) (hw' : s'.writer = some ⟨kind, .awaitCapacity⟩)
  | starts (hw : s.writer = none) (hw' : s'.writer = some ⟨.startup, .scan⟩)
      (hp : s'.published = none)
  | stays (hw' : s'.writer = s.writer) (heases : Eases s s')
  | awaited {kind} (hw : s.writer = some ⟨kind, .awaitCapacity⟩)
      (hw' : s'.writer = some ⟨kind, afterAwait kind⟩) (heases : Eases s s')
      (hroom : ∀ image, s.published = some image →
        s.executionLeaseCount ≤ 1 ∨ s'.hasRoom config image = true)
  | builds {kind stage stage'} (hw : s.writer = some ⟨kind, stage⟩)
      (hw' : s'.writer = some ⟨kind, stage'⟩) (hstage : stage.awaited = true)
      (hstage' : stage'.awaited = true) (heases : Eases s s')
  | counted {kind bundle image} (hw : s.writer = some ⟨kind, .countLeases bundle⟩)
      (hp : s.published = some image) (heases : Eases s s')
      (hw' : s'.writer = some ⟨kind, .retire bundle image.bundle
        (decide (s.executionLeaseCount + 1 > 2))⟩)
  | swaps {kind bundle} (hw' : s'.writer = some ⟨kind, .swap bundle⟩)

section Steps

variable {kind : WriterKind}

lemma awaitCapacityStep_move (hw : s.writer = some ⟨kind, .awaitCapacity⟩) :
    WriterMove config s (s.awaitCapacityStep config kind failing) := by
  unfold awaitCapacityStep
  split
  · rename_i hp
    refine .awaited hw rfl (.of_eq rfl rfl rfl) fun image himage => ?_
    rw [hp] at himage
    cases himage
  · rename_i image hp
    split_ifs with hcount
    · dsimp only
      split_ifs with hroom
      · refine .awaited hw rfl ⟨rfl, le_of_eq rfl, s.reap_retired_sublist failing⟩
          fun image' himage => .inr ?_
        obtain rfl := Option.some.inj (hp.symm.trans himage)
        exact hroom
      · exact .stays rfl (.reap s failing)
    · refine .awaited hw rfl (.of_eq rfl rfl rfl) fun image' _ => .inl ?_
      exact not_lt.1 hcount

lemma retireStep_move {bundle current : BundleHandle} {enforce : Bool} :
    WriterMove config s (s.retireStep config kind bundle current enforce failing) := by
  unfold retireStep
  dsimp only
  split_ifs
  · exact .swaps rfl
  · exact .swaps rfl
  · exact .stays rfl (.reap s failing)

lemma mutateStep_move {call : CatalogCall} {answer : WriteAnswer}
    (hw : s.writer = some ⟨.mutation call, .mutate⟩) :
    WriterMove config s (s.mutateStep call answer) := by
  unfold mutateStep
  split
  · exact .unlocked rfl
  · dsimp only
    split_ifs
    · exact .builds hw rfl rfl rfl (.of_eq rfl rfl rfl)
    · exact .unlocked rfl

lemma failBuild_move (u : PublicationSystem) : WriterMove config s (u.failBuild kind) := by
  rcases kind with _ | _ | _
  · exact .unlocked rfl
  · exact .unlocked rfl
  · exact .unlocked rfl

lemma buildStep_move {stage : WriterStage} {answer : BuildAnswer} {suffix : ℕ}
    {write : WriteAnswer} (hw : s.writer = some ⟨kind, stage⟩)
    (h : s.buildStep config kind stage answer suffix write = some s') : WriterMove config s s' := by
  have hbuilds : ∀ {u : PublicationSystem} {stage' : WriterStage}, stage.awaited = true →
      stage'.awaited = true → u.published = s.published → u.leases = s.leases →
      u.retired = s.retired → WriterMove config s (u.setStage kind stage') :=
    fun hstage hstage' hpublished hleases hretired =>
      .builds hw rfl hstage hstage' (.of_eq hpublished hleases hretired)
  unfold buildStep at h
  split at h
  · exact Option.some.inj h ▸ hbuilds rfl rfl rfl rfl rfl
  · dsimp only at h
    split_ifs at h
    · exact Option.some.inj h ▸ failBuild_move _
    · exact Option.some.inj h ▸ hbuilds rfl rfl rfl rfl rfl
  · split at h
    · exact Option.some.inj h ▸ failBuild_move _
    · exact Option.some.inj h ▸ hbuilds rfl rfl rfl rfl rfl
  · exact Option.some.inj h ▸ hbuilds rfl rfl rfl rfl rfl
  · dsimp only at h
    split_ifs at h
    exact Option.some.inj h ▸ hbuilds rfl rfl rfl rfl rfl
  · split at h
    · exact Option.some.inj h ▸ failBuild_move _
    · exact Option.some.inj h ▸ hbuilds rfl rfl rfl rfl rfl
  · split at h
    · exact Option.some.inj h ▸ failBuild_move _
    · exact Option.some.inj h ▸ hbuilds rfl rfl rfl rfl rfl
  · obtain rfl := Option.some.inj h
    rcases kind with _ | _ | _
    · exact hbuilds rfl rfl rfl rfl rfl
    · exact hbuilds rfl rfl rfl rfl rfl
    · exact .unlocked rfl
  · exact Option.some.inj h ▸ failBuild_move _
  · rename_i bundle
    split at h
    · exact Option.some.inj h ▸ .swaps rfl
    · rename_i image hp
      split_ifs at h
      · exact Option.some.inj h ▸ .swaps rfl
      · obtain rfl := Option.some.inj h
        -- the leases are counted as the replacement begins
        exact .counted hw hp (.of_eq rfl rfl rfl) rfl
  · exact Option.some.inj h ▸ .unlocked rfl
  · split at h
    · cases h
    · exact Option.some.inj h ▸ failBuild_move _
  all_goals first
    | exact Option.some.inj h ▸ failBuild_move _
    | cases h

end Steps

lemma writerStep_move (h : s.writerStep config action = some s') : WriterMove config s s' := by
  unfold writerStep at h
  split at h
  · cases h
  · rename_i kind stage hw
    split at h
    · exact Option.some.inj h ▸ awaitCapacityStep_move hw
    · exact Option.some.inj h ▸ mutateStep_move hw
    · exact Option.some.inj h ▸ retireStep_move
    · exact buildStep_move hw h
    · cases h

lemma runningStep_move (h : s.runningStep config action = some s') : WriterMove config s s' := by
  unfold runningStep at h
  split at h
  · split_ifs at h with hfree
    simp only [Bool.and_eq_true, Option.isNone_iff_eq_none] at hfree
    exact Option.some.inj h ▸ .begins hfree.1.1 rfl
  · split_ifs at h with hfree
    simp only [Bool.and_eq_true, Option.isNone_iff_eq_none] at hfree
    exact Option.some.inj h ▸ .begins hfree.1 rfl
  · split_ifs at h
    split at h
    · exact Option.some.inj h ▸ .stays rfl (.of_eq rfl rfl rfl)
    · exact Option.some.inj h ▸ .stays rfl (.of_eq rfl rfl rfl)
  · split_ifs at h with hfree
    obtain ⟨image, -, rfl⟩ := Option.map_eq_some_iff.1 h
    exact .unlocked (Option.isNone_iff_eq_none.1 hfree)
  · rename_i index
    obtain rfl := Option.some.inj h
    exact .stays rfl (.of_leases rfl (List.eraseIdx_sublist _ index) (List.Sublist.refl _))
  · obtain ⟨image, -, rfl⟩ := Option.map_eq_some_iff.1 h
    exact .stays rfl (.of_eq rfl rfl rfl)
  · exact Option.some.inj h ▸ .stays rfl (.of_eq rfl rfl rfl)
  · split_ifs at h with hfree
    obtain ⟨image, -, rfl⟩ := Option.map_eq_some_iff.1 h
    exact .unlocked (Option.isNone_iff_eq_none.1 hfree)
  · exact Option.some.inj h ▸ .stays rfl (.reap s _)
  · split_ifs at h with hfree
    exact Option.some.inj h ▸ .unlocked (Option.isNone_iff_eq_none.1 hfree)
  · exact writerStep_move h

/-- Before the engine runs only the build of the first image has a writer. -/
lemma startupStep_move (hinv : Inv config s t) (hphase : s.phase ≠ .running)
    (h : s.startupStep config action = some s') : WriterMove config s s' := by
  have hidle : s.phase ≠ .building → s.writer = none := hinv.writer_eq_none hphase
  unfold startupStep at h
  split at h
  · rename_i hdown
    have hw := hidle (by simp [hdown])
    split at h
    · cases h
    · split at h
      · cases h
      · exact Option.some.inj h ▸ .unlocked hw
  · rename_i hcleaning
    have hw := hidle (by simp [hcleaning])
    split_ifs at h
    · exact Option.some.inj h ▸ .unlocked rfl
    · exact Option.some.inj h ▸ .unlocked hw
  · rename_i hcleaning
    have hw := hidle (by simp [hcleaning])
    split_ifs at h
    · exact Option.some.inj h ▸ .unlocked hw
    · exact Option.some.inj h ▸ .unlocked hw
  · rename_i hreopening
    have hw := hidle (by simp [hreopening])
    have hp := hinv.published_eq_none hphase (by simp [hreopening])
    have hrebuild : ∀ {u : PublicationSystem}, u.writer = none → u.published = none →
        WriterMove config s (if config.requireValidBundle then
          { u with routing := .unavailable, phase := .cleaning true }
        else { u with phase := .building, writer := some ⟨.startup, .scan⟩ }) := by
      intro u huw hup
      split_ifs
      · exact .unlocked huw
      · exact .starts hw rfl hup
    have hmissing : ∀ {answer : WriteAnswer}, WriterMove config s
        (s.onMissing config answer) := by
      intro answer
      unfold onMissing
      split
      · exact hrebuild (u := { s with catalog := _ }) hw hp
      · exact .unlocked rfl
    unfold reopenStep at h
    dsimp only at h
    split at h
    · exact Option.some.inj h ▸ hmissing
    · exact Option.some.inj h ▸ hrebuild hw hp
    · split at h
      · split at h
        · exact Option.some.inj h ▸ .unlocked hw
        · exact Option.some.inj h ▸ hmissing
      · exact Option.some.inj h ▸ hmissing
  · exact writerStep_move h
  · cases h

/-- Every step moves the writer in one of these ways. -/
lemma step_move (hinv : Inv config s t) (h : (publication config).step s action = some (s', ())) :
    WriterMove config s s' := by
  simp only [publication] at h
  split at h
  · cases h
    exact .unlocked rfl
  · split at h
    · obtain ⟨u, hu, heq⟩ := Option.map_eq_some_iff.1 h
      cases heq
      exact runningStep_move hu
    · rename_i hphase
      obtain ⟨u, hu, heq⟩ := Option.map_eq_some_iff.1 h
      cases heq
      exact startupStep_move hinv hphase hu

/-! ## When nobody waits -/

/-- Past the wait for capacity the published image has no lease besides its own handle, or there is
room for its bundle. -/
structure Unhindered (config : PublicationConfig) (s : PublicationSystem) : Prop where
  awaited : ∀ w, s.writer = some w → w.stage.awaited = true → ∀ image,
    s.published = some image → s.executionLeaseCount ≤ 1 ∨ s.hasRoom config image = true
  retire : ∀ kind bundle current enforce, s.writer = some ⟨kind, .retire bundle current enforce⟩ →
    enforce = false ∨ admits config s.retired (config.totalBytes current.graph) = true

namespace Unhindered

/-- Without a writer at these stages there is nothing to know. -/
lemma of_stage (stage : WriterStage) (hw : ∀ w, s.writer = some w → w.stage = stage)
    (hawaited : stage.awaited = false) (hretire : ∀ b c e, stage ≠ .retire b c e) :
    Unhindered config s where
  awaited w hw' hstage := by
    rw [hw w hw', hawaited] at hstage
    cases hstage
  retire kind bundle current enforce hw' := absurd (hw _ hw').symm (hretire bundle current enforce)

lemma of_none (hw : s.writer = none) : Unhindered config s :=
  of_stage .awaitCapacity (fun w hw' => by simp [hw] at hw') rfl nofun

lemma move (h : Unhindered config s) (hmove : WriterMove config s s') : Unhindered config s' := by
  have hease : ∀ image, Eases s s' → s'.published = some image →
      (∀ old, s.published = some old → s.executionLeaseCount ≤ 1 ∨ s.hasRoom config old = true) →
      s'.executionLeaseCount ≤ 1 ∨ s'.hasRoom config image = true := by
    intro image heases himage hold
    rw [heases.published] at himage
    exact (hold image himage).imp heases.leases.trans heases.hasRoom
  rcases hmove with hw' | ⟨-, hw'⟩ | ⟨-, hw', hp⟩ | ⟨hw', heases⟩ | ⟨hw, hw', heases, hroom⟩ |
    ⟨hw, hw', hstage, hstage', heases⟩ | ⟨hw, hp, heases, hw'⟩ | hw'
  · exact of_none hw'
  · refine of_stage .awaitCapacity (fun w h' => ?_) rfl fun _ _ _ h => by cases h
    rw [hw'] at h'
    cases h'
    rfl
  · refine ⟨fun w _ _ image himage => ?_, fun kind bundle current enforce h' => ?_⟩
    · rw [hp] at himage
      cases himage
    · rw [hw'] at h'
      cases h'
  · refine ⟨fun w h' hstage image himage => ?_, fun kind bundle current enforce h' => ?_⟩
    · exact hease image heases himage (h.awaited w (hw' ▸ h') hstage)
    · exact (h.retire kind bundle current enforce (hw' ▸ h')).imp_right
        (admits_of_sublist heases.retired)
  · refine ⟨fun w _ _ image himage => ?_, fun kind bundle current enforce h' => ?_⟩
    · rw [heases.published] at himage
      exact (hroom image himage).imp_left heases.leases.trans
    · rename_i writerKind
      rw [hw'] at h'
      rcases writerKind with _ | _ | _ <;> cases h'
  · refine ⟨fun w _ _ image himage => ?_, fun kind bundle current enforce h' => ?_⟩
    · exact hease image heases himage (h.awaited _ hw hstage)
    · rw [hw'] at h'
      cases h'
      cases hstage'
  · refine ⟨fun w h' hstage => ?_, fun kind bundle current enforce h' => ?_⟩
    · rw [hw'] at h'
      cases h'
      cases hstage
    · rw [hw'] at h'
      cases h'
      rcases h.awaited _ hw rfl _ hp with hcount | hroom
      · exact .inl (decide_eq_false (by omega))
      · exact .inr (heases.hasRoom hroom)
  · rename_i bundle
    refine of_stage (.swap bundle) (fun w h' => ?_) rfl fun _ _ _ h => by cases h
    rw [hw'] at h'
    cases h'
    rfl

/-- In `retire` nobody waits. -/
lemma not_waits {kind : WriterKind} {bundle current : BundleHandle} {enforce : Bool}
    (h : Unhindered config s) (hw : s.writer = some ⟨kind, .retire bundle current enforce⟩) :
    ¬ s.Waits config failing := by
  rintro ⟨s', hturn, hsame⟩
  simp only [waitTurn, hw] at hturn
  obtain rfl := Option.some.inj hturn
  rw [hw] at hsame
  unfold retireStep at hsame
  dsimp only at hsame
  split_ifs at hsame with hany hroom
  · cases hsame
  · cases hsame
  · rw [Bool.or_eq_true, not_or, Bool.not_eq_true', Bool.not_eq_false] at hroom
    rcases h.retire _ _ _ _ hw with henforce | hadmits
    · exact absurd (hroom.2.symm.trans henforce) (by simp)
    · exact hroom.1 (admits_of_sublist (s.reap_retired_sublist failing) hadmits)

end Unhindered

/-- Who waits for capacity finds another lease of the published image, and no room for its
bundle. -/
lemma waits_awaitCapacity {kind : WriterKind} (hw : s.writer = some ⟨kind, .awaitCapacity⟩)
    (h : s.Waits config failing) : ∃ image, s.published = some image ∧ 1 < s.executionLeaseCount ∧
      (s.reap failing).hasRoom config image = false := by
  obtain ⟨s', hturn, hsame⟩ := h
  simp only [waitTurn, hw] at hturn
  obtain rfl := Option.some.inj hturn
  have hmoved : ∀ {u : PublicationSystem}, (u.setStage kind (afterAwait kind)).writer ≠
      some ⟨kind, .awaitCapacity⟩ := by
    intro u heq
    rcases kind with _ | _ | _ <;> cases heq
  rw [hw] at hsame
  unfold awaitCapacityStep at hsame
  split at hsame
  · exact absurd hsame hmoved
  · rename_i image hp
    split_ifs at hsame with hcount
    · dsimp only at hsame
      split_ifs at hsame with hroom
      · exact absurd hsame hmoved
      · exact ⟨image, hp, hcount, Bool.eq_false_iff.2 hroom⟩
    · exact absurd hsame hmoved

/-- Waits happen nowhere else. -/
lemma Waits.stage (h : s.Waits config failing) : ∃ kind, s.writer = some ⟨kind, .awaitCapacity⟩ ∨
    ∃ bundle current enforce, s.writer = some ⟨kind, .retire bundle current enforce⟩ := by
  obtain ⟨s', hturn, -⟩ := h
  unfold waitTurn at hturn
  split at hturn
  · exact ⟨_, .inl ‹_›⟩
  · exact ⟨_, .inr ⟨_, _, _, ‹_›⟩⟩
  · cases hturn

/-- What the start of a rebuild does. -/
lemma beginRebuild_eq_some (h : (publication config).step s .beginRebuild = some (s', ())) :
    s.writer = none ∧ s' = s.setStage .rebuild .awaitCapacity := by
  simp only [publication] at h
  split at h
  · obtain ⟨u, hu, heq⟩ := Option.map_eq_some_iff.1 h
    cases heq
    simp only [runningStep] at hu
    split_ifs at hu with hfree
    simp only [Bool.and_eq_true, Option.isNone_iff_eq_none] at hfree
    exact ⟨hfree.1, (Option.some.inj hu).symm⟩
  · obtain ⟨u, hu, -⟩ := Option.map_eq_some_iff.1 h
    rcases hphase : s.phase with _ | _ | _ | _ | _ <;> simp [startupStep, hphase] at hu

lemma reap_all_retired (s : PublicationSystem) :
    (s.reap (s.retired.map RetiredBundle.path)).retired = s.retired := by
  simp only [reap, reapLoop_eq]
  refine List.filter_eq_self.2 fun e he => ?_
  rw [List.contains_iff_mem.2 (List.mem_map_of_mem he), Bool.or_true]

/-- Who finds another lease and no room waits, at least while no deletion succeeds. -/
lemma waits_of_leased {kind : WriterKind} {image : ExecutionImage}
    (hw : s.writer = some ⟨kind, .awaitCapacity⟩) (hp : s.published = some image)
    (hcount : 1 < s.executionLeaseCount) (hroom : s.hasRoom config image = false) :
    s.Waits config (s.retired.map RetiredBundle.path) := by
  refine ⟨s.reap (s.retired.map RetiredBundle.path), ?_, rfl⟩
  have hadmits : ¬ admits config (s.reap (s.retired.map RetiredBundle.path)).retired
      (config.totalBytes image.bundle.graph) = true := by
    rw [reap_all_retired]
    exact Bool.eq_false_iff.1 hroom
  simp only [waitTurn, hw, awaitCapacityStep, hp]
  rw [if_pos hcount, if_neg hadmits]

end PublicationSystem

/-! ## Recoveries -/

namespace RecoverySystem

variable {config : PublicationConfig} {s s' : RecoverySystem}

/-- The thread of the recovering route waits while its own lease is one of those counted, for some
deletions that fail in the reap before the room is measured. -/
def WaitsForItself (config : PublicationConfig) (s : RecoverySystem) : Prop :=
  ∃ own image failing, s.recovering = some own ∧ s.engine.published = some image ∧
    image.address = own.address ∧ s.engine.Waits config failing

/-- A route recovers from an image that is no longer published, or there is room for its bundle.
The room is that beside the bundles tracked as the recovery begins: the reap that
`capacity_available` makes first is left out, for its deletions can fail. -/
def recoversFreely (config : PublicationConfig) (s : RecoverySystem) : RecoveryAction → Bool
  | .engine _ => true
  | .recover index =>
    match s.engine.leases[index]?, s.engine.published with
    | some own, some image =>
      decide (image.address ≠ own.address) || s.engine.hasRoom config image
    | _, _ => true

/-- The invariant of recoveries: the recovering route is the writer, and while it waits for capacity
there is room for the image it holds. -/
structure RecoveryInv (config : PublicationConfig) (s : RecoverySystem) : Prop where
  engine : ∃ t, PublicationSystem.Inv config s.engine t
  unhindered : PublicationSystem.Unhindered config s.engine
  rebuilding : s.recovering ≠ none → s.engine.writer ≠ none
  room : ∀ own kind image, s.recovering = some own →
    s.engine.writer = some ⟨kind, .awaitCapacity⟩ → s.engine.published = some image →
      image.address = own.address → s.engine.hasRoom config image = true

namespace RecoveryInv

/-- With the invariant a recovering route does not wait for itself. -/
lemma not_waitsForItself (h : RecoveryInv config s) : ¬ s.WaitsForItself config := by
  rintro ⟨own, image, failing, hown, hp, haddress, hwaits⟩
  obtain ⟨kind, hw | ⟨bundle, current, enforce, hw⟩⟩ := hwaits.stage
  · obtain ⟨image', hp', -, hroom⟩ := PublicationSystem.waits_awaitCapacity hw hwaits
    obtain rfl := Option.some.inj (hp.symm.trans hp')
    have hreaped := (PublicationSystem.Eases.reap s.engine failing).hasRoom
      (h.room own kind image hown hw hp haddress)
    exact absurd (hroom.symm.trans hreaped) (by simp)
  · exact h.unhindered.not_waits hw hwaits

/-- When all other routes have finished, a recovering route goes on. -/
lemma not_waits_alone (h : RecoveryInv config s) {own : ExecutionImage}
    (hown : s.recovering = some own) (halone : s.engine.leases = [own]) (failing : List String) :
    ¬ s.engine.Waits config failing := by
  intro hwaits
  obtain ⟨kind, hw | ⟨bundle, current, enforce, hw⟩⟩ := hwaits.stage
  · obtain ⟨image, hp, hcount, -⟩ := PublicationSystem.waits_awaitCapacity hw hwaits
    refine h.not_waitsForItself ⟨own, image, failing, hown, hp, ?_, hwaits⟩
    by_contra hne
    have hother : decide (own.address = image.address) = false := decide_eq_false (Ne.symm hne)
    simp [PublicationSystem.executionLeaseCount, hp, halone, hother] at hcount
  · exact h.unhindered.not_waits hw hwaits

/-- The engine takes a step. -/
lemma engineStep (h : RecoveryInv config s) {action : PublicationAction} {u : PublicationSystem}
    (hstep : (publication config).step s.engine action = some (u, ())) :
    RecoveryInv config (s.settle u) := by
  obtain ⟨t, hinv⟩ := h.engine
  have hmove := PublicationSystem.step_move hinv hstep
  refine ⟨hinv.micros (PublicationSystem.step_micros hstep), h.unhindered.move hmove, ?_, ?_⟩
  · intro hrecovering
    rw [settle] at hrecovering
    split_ifs at hrecovering with hsome
    · exact Option.isSome_iff_ne_none.1 hsome
    · exact absurd rfl hrecovering
  · intro own kind image hown hw hp haddress
    have hwriter : u.writer = some ⟨kind, .awaitCapacity⟩ := hw
    rw [settle, hwriter] at hown
    have hold : s.recovering = some own := hown
    have hne := h.rebuilding (by simp [hold])
    rcases hmove with hw' | ⟨hnone, -⟩ | ⟨hnone, -⟩ | ⟨hw', heases⟩ | ⟨-, hw', -, -⟩ |
      ⟨-, hw', -, hstage', -⟩ | ⟨-, -, -, hw'⟩ | hw'
    · simp [hw'] at hwriter
    · exact absurd hnone hne
    · exact absurd hnone hne
    · refine heases.hasRoom (h.room own kind image hold (hw' ▸ hwriter) ?_ haddress)
      exact heases.published ▸ hp
    · rename_i writerKind
      rw [hw'] at hwriter
      rcases writerKind with _ | _ | _ <;> cases hwriter
    · rw [hw'] at hwriter
      cases hwriter
      cases hstage'
    · rw [hw'] at hwriter
      cases hwriter
    · rw [hw'] at hwriter
      cases hwriter

/-- Every step that recovers freely keeps the invariant. -/
lemma step (h : RecoveryInv config s) {action : RecoveryAction}
    (hfree : recoversFreely config s action = true)
    (hstep : (recovery config).step s action = some (s', ())) : RecoveryInv config s' := by
  rcases action with action | index
  · simp only [recovery] at hstep
    split_ifs at hstep
    obtain ⟨⟨u, v⟩, hu, heq⟩ := Option.map_eq_some_iff.1 hstep
    cases heq
    exact h.engineStep hu
  · simp only [recovery] at hstep
    split at hstep
    · cases hstep
    · rename_i own hown
      obtain ⟨⟨u, v⟩, hu, heq⟩ := Option.map_eq_some_iff.1 hstep
      cases heq
      obtain ⟨t, hinv⟩ := h.engine
      have hmove := PublicationSystem.step_move hinv hu
      obtain ⟨hw, rfl⟩ := PublicationSystem.beginRebuild_eq_some hu
      refine ⟨hinv.micros (PublicationSystem.step_micros hu), h.unhindered.move hmove,
        fun _ => Option.some_ne_none _, fun own' kind image hown' _ hp haddress => ?_⟩
      obtain rfl := Option.some.inj hown'
      have hpublished : s.engine.published = some image := hp
      simp only [recoversFreely, hown, hpublished, Bool.or_eq_true, decide_eq_true_eq] at hfree
      exact hfree.resolve_left fun hne => hne haddress

end RecoveryInv

/-- A route that recovers without room waits for itself at once. -/
lemma waitsForItself_of_recover {index : ℕ}
    (hfree : recoversFreely config s (.recover index) = false)
    (hstep : (recovery config).step s (.recover index) = some (s', ())) :
    s'.WaitsForItself config := by
  unfold recoversFreely at hfree
  dsimp only at hfree
  split at hfree
  · rename_i own image hown hp
    simp only [recovery, hown] at hstep
    obtain ⟨⟨u, v⟩, hu, heq⟩ := Option.map_eq_some_iff.1 hstep
    cases heq
    obtain ⟨hw, rfl⟩ := PublicationSystem.beginRebuild_eq_some hu
    simp only [Bool.or_eq_false_iff, decide_eq_false_iff_not, not_not] at hfree
    obtain ⟨haddress, hroom⟩ := hfree
    refine ⟨own, image, s.engine.retired.map RetiredBundle.path, rfl, hp, haddress, ?_⟩
    have hcount := PublicationSystem.executionLeaseCount_of_lease hp (List.mem_of_getElem? hown)
      haddress.symm
    exact PublicationSystem.waits_of_leased rfl hp hcount hroom
  · cases hfree

/-- In every run whose recoveries start from an image that is no longer published, or with room for
its bundle, no recovering route waits while its own lease is counted, whatever deletions fail, and
one goes on when all other routes have finished; in `retire` no writer waits at all.  A recovery
that starts otherwise waits for itself at once, unless the reap that comes first can delete
enough. -/
theorem recovery_waits_for_others {s₀ : PublicationSystem} {actions : List RecoveryAction}
    {os : List Unit} (hstart : s₀.Initial)
    (hguard : (recovery config).Guarded (fun s a => recoversFreely config s a = true) ⟨s₀, none⟩
      actions)
    (hrun : (recovery config).run ⟨s₀, none⟩ actions = some (s, os)) :
    ¬ s.WaitsForItself config ∧
    (∀ own failing, s.recovering = some own → s.engine.leases = [own] →
      ¬ s.engine.Waits config failing) ∧
    (∀ kind bundle current enforce failing,
      s.engine.writer = some ⟨kind, .retire bundle current enforce⟩ →
        ¬ s.engine.Waits config failing) ∧
    ∀ index s', (recovery config).step s (.recover index) = some (s', ()) →
      (s'.WaitsForItself config ↔ recoversFreely config s (.recover index) = false) := by
  have hnone : s₀.writer = none := by
    rw [← hstart.closed]
    rfl
  have hinv₀ : RecoveryInv config ⟨s₀, none⟩ :=
    ⟨⟨_, hstart.inv⟩, .of_none hnone, fun hne => absurd rfl hne, nofun⟩
  have hinv : RecoveryInv config s :=
    (Machine.run_guarded (P := fun _ => True)
      (fun _ _ _ _ hs hfree hstep => ⟨hs.step hfree hstep, trivial⟩) hinv₀ hguard hrun).1
  refine ⟨hinv.not_waitsForItself, fun own failing hown halone => ?_,
    fun kind bundle current enforce failing hw => hinv.unhindered.not_waits hw,
    fun index s' hstep => ⟨fun hwaits => ?_, fun hfree => ?_⟩⟩
  · exact hinv.not_waits_alone hown halone failing
  · by_contra hfree
    exact (hinv.step (Bool.not_eq_false _ ▸ hfree) hstep).not_waitsForItself hwaits
  · exact waitsForItself_of_recover hfree hstep

/-- A route takes a lease, fails to read its image, and begins to rebuild it. -/
def recoverActions : List RecoveryAction :=
  (PublicationSystem.startActions ++ [PublicationAction.lease]).map .engine ++ [.recover 0]

/-- It goes on until it publishes the new image. -/
def rebuiltActions : List RecoveryAction :=
  recoverActions ++ [.engine (.awaitCapacity [])] ++
    List.replicate 9 (.engine (.build .succeeds 1 .written)) ++ [.engine (.retire [])]

/-- The bundle of the route is retired while the route still holds its lease. -/
theorem recovery_waits_for_others_rebuilt : ∃ s os,
    (recovery PublicationSystem.smallConfig).run ⟨PublicationSystem.fresh, none⟩ rebuiltActions =
      some (s, os) ∧ s.recovering.isSome = true ∧ s.engine.retired.length = 1 ∧
      ¬ s.WaitsForItself PublicationSystem.smallConfig := by
  have hguard : (recovery PublicationSystem.smallConfig).Guarded
      (fun s a => recoversFreely PublicationSystem.smallConfig s a = true)
      ⟨PublicationSystem.fresh, none⟩ rebuiltActions := by
    decide +kernel
  have hrebuilt : ((recovery PublicationSystem.smallConfig).run ⟨PublicationSystem.fresh, none⟩
      rebuiltActions).map (fun r => (r.1.recovering.isSome, r.1.engine.retired.length)) =
        some (true, 1) := by
    decide +kernel
  obtain ⟨⟨s, os⟩, hrun, hs⟩ := Option.map_eq_some_iff.1 hrebuilt
  simp only [Prod.mk.injEq] at hs
  exact ⟨s, os, hrun, hs.1, hs.2,
    (recovery_waits_for_others PublicationSystem.fresh_initial hguard hrun).1⟩

/-- The bytes of retired bundles are limited below those of one bundle. -/
def tightConfig : PublicationConfig :=
  { PublicationSystem.smallConfig with maximumRetiredBundleBytes := 4 }

/-- Without room a turn of the wait changes nothing when no bundle is tracked. -/
lemma awaitCapacity_step_self {kind : WriterKind} {image : ExecutionImage}
    (hphase : s.engine.phase = .running) (hw : s.engine.writer = some ⟨kind, .awaitCapacity⟩)
    (hp : s.engine.published = some image) (hcount : 1 < s.engine.executionLeaseCount)
    (hretired : s.engine.retired = []) (hroom : s.engine.hasRoom config image = false)
    (failing : List String) :
    (recovery config).step s (.engine (.awaitCapacity failing)) = some (s, ()) := by
  have hreap : s.engine.reap failing = s.engine := by
    simp only [PublicationSystem.reap, hretired, PublicationSystem.reapLoop]
    rw [← hretired]
  have hadmits : ¬ PublicationSystem.admits config s.engine.retired
      (config.totalBytes image.bundle.graph) = true := Bool.eq_false_iff.1 hroom
  have hturn : s.engine.awaitCapacityStep config kind failing = s.engine := by
    simp only [PublicationSystem.awaitCapacityStep, hp, hreap]
    rw [if_pos hcount, if_neg hadmits]
  have hstep : (publication config).step s.engine (.awaitCapacity failing) =
      some (s.engine, ()) := by
    simp only [publication, hphase, PublicationSystem.runningStep, PublicationSystem.writerStep, hw,
      hturn, Option.map_some]
  simp only [recovery, keepsOwn, hstep, if_true, Option.map_some, settle, hw, Option.isSome_some]

/-- Whether the writer waits for room. -/
def awaitsCapacity (s : PublicationSystem) : Bool :=
  match s.writer with
  | some ⟨_, .awaitCapacity⟩ => true
  | _ => false

lemma awaitsCapacity_iff {s : PublicationSystem} :
    awaitsCapacity s = true ↔ ∃ kind, s.writer = some ⟨kind, .awaitCapacity⟩ := by
  unfold awaitsCapacity
  split
  · rename_i kind hw
    exact iff_of_true rfl ⟨kind, hw⟩
  · rename_i hw
    exact iff_of_false Bool.false_ne_true fun ⟨kind, hkind⟩ => hw kind hkind

/-- The only route of an engine recovers from its image.  The wait of its thread never ends: no
other lease is left, and every turn leads back to the same state. -/
theorem recovery_waits_forever : ∃ s os,
    (recovery tightConfig).run ⟨PublicationSystem.fresh, none⟩ recoverActions = some (s, os) ∧
    s.WaitsForItself tightConfig ∧ (∃ own, s.recovering = some own ∧ s.engine.leases = [own]) ∧
    ∀ failing, (recovery tightConfig).step s (.engine (.awaitCapacity failing)) = some (s, ()) := by
  have hstuck : ((recovery tightConfig).run ⟨PublicationSystem.fresh, none⟩ recoverActions).map
      (fun r => (decide (r.1.recovering.toList = r.1.engine.leases),
        decide (r.1.recovering = r.1.engine.published), r.1.recovering.map fun own =>
          r.1.engine.hasRoom tightConfig own)) = some (true, true, some false) := by
    decide +kernel
  have hwaiting : ((recovery tightConfig).run ⟨PublicationSystem.fresh, none⟩ recoverActions).map
      (fun r => (r.1.engine.phase, decide (1 < r.1.engine.executionLeaseCount),
        r.1.engine.retired, awaitsCapacity r.1.engine)) = some (.running, true, [], true) := by
    decide +kernel
  obtain ⟨⟨s, os⟩, hrun, hs⟩ := Option.map_eq_some_iff.1 hstuck
  rw [hrun, Option.map_some, Option.some.injEq] at hwaiting
  simp only [Prod.mk.injEq, decide_eq_true_eq] at hs hwaiting
  obtain ⟨hleases, hpublished, hroom⟩ := hs
  obtain ⟨hphase, hcount, hretired, hw⟩ := hwaiting
  obtain ⟨own, hown, hroom⟩ := Option.map_eq_some_iff.1 hroom
  obtain ⟨kind, hw⟩ := awaitsCapacity_iff.1 hw
  have hp : s.engine.published = some own := hpublished ▸ hown
  have hwaits := PublicationSystem.waits_of_leased hw hp hcount hroom
  refine ⟨s, os, hrun, ⟨own, own, _, hown, hp, rfl, hwaits⟩, ⟨own, hown, ?_⟩, fun failing => ?_⟩
  · rw [← hleases, hown]
    rfl
  · exact awaitCapacity_step_self hphase hw hp hcount hretired hroom failing

end RecoverySystem

end PathHydra
