import Mathlib.Data.List.Forall2
import Mathlib.Data.List.Pairwise
import PathHydra.Construction.Store.Paths

/-!
# Do the paths of operations denote disjoint directories?

A resolved path is the real place of the longest ancestor that exists, followed by names.  The first
of these names does not exist as far as the operating system can follow it, but it may be a link
whose target is missing.  Such a link leads elsewhere, and the comparison of the resolved paths does
not see where.  A resolved path denotes what the path denotes (`resolve_denotes`), and itself unless
there is a broken link (`eq_of_denotes`); so broken links are all that the comparison misses.
-/

namespace PathHydra

/-- Neither place is inside the other, and they are not the same. -/
def Apart (a b : Place) : Prop := ¬ a <+: b ∧ ¬ b <+: a

lemma Apart.symm {a b : Place} (h : Apart a b) : Apart b a := ⟨h.2, h.1⟩

/-! ## Resolved paths -/

namespace OperatingSystem

variable {os : OperatingSystem}

lemma pathExists_iff {path : Place} :
    os.pathExists path = true ↔ ∃ place, os.canonicalize path = .ok place := by
  rw [pathExists]
  rcases os.canonicalize path with e | place <;> simp

/-- The first component of a path that does not exist is a link. -/
def BrokenLink (os : OperatingSystem) (path : Place) : Prop :=
  ∃ ancestor name below place text, path = ancestor ++ name :: below ∧
    os.canonicalize ancestor = .ok place ∧ os.pathExists (ancestor ++ [name]) = false ∧
    os.tree.entry (place ++ [name]) = some (.link text)

/-- Where a path leads from the root. -/
def Denotes (os : OperatingSystem) (path place : Place) : Prop :=
  os.tree.Leads [] (normals path) place

/-- The loop finds the longest ancestor that exists, with the names below it from the last one. -/
lemma existingAncestor_eq_ok {reversed missing missing' : List String} {ancestor : Place}
    (h : os.existingAncestor reversed missing = .ok (ancestor, missing')) :
    os.pathExists ancestor = true ∧ ∃ below, reversed.reverse = ancestor ++ below ∧
      missing' = missing ++ below.reverse ∧
      ∀ name rest, below = name :: rest → os.pathExists (ancestor ++ [name]) = false := by
  induction reversed generalizing missing with
  | nil =>
    rw [existingAncestor] at h
    split_ifs at h with hexists
    cases h
    exact ⟨hexists, [], rfl, (List.append_nil _).symm, nofun⟩
  | cons name up ih =>
    rw [existingAncestor] at h
    split_ifs at h with hexists
    · cases h
      exact ⟨hexists, [], (List.append_nil _).symm, (List.append_nil _).symm, nofun⟩
    · obtain ⟨hancestor, below, hsplit, rfl, hfirst⟩ := ih h
      refine ⟨hancestor, below ++ [name], ?_, ?_, fun name' rest hbelow => ?_⟩
      · rw [List.reverse_cons, hsplit, List.append_assoc]
      · rw [List.reverse_append, List.append_assoc]
        rfl
      · rcases below with _ | ⟨top, below⟩
        · cases hbelow
          rw [List.append_nil] at hsplit
          rw [← hsplit, ← List.reverse_cons]
          exact Bool.not_eq_true _ ▸ hexists
        · cases hbelow
          exact hfirst _ _ rfl

/-- A resolved path is the real place of an ancestor, followed by names that do not exist. -/
lemma resolve_eq_ok {path resolved : Place} (h : os.resolveExistingAncestors path = .ok resolved) :
    ∃ ancestor below place, path = ancestor ++ below ∧ os.canonicalize ancestor = .ok place ∧
      resolved = place ++ below ∧
      ∀ name rest, below = name :: rest → os.pathExists (ancestor ++ [name]) = false := by
  rw [resolveExistingAncestors] at h
  split_ifs at h with hexists
  · exact ⟨path, [], resolved, (List.append_nil _).symm, mapErr_eq_ok.1 h,
      (List.append_nil _).symm, nofun⟩
  · obtain ⟨⟨ancestor, missing⟩, hancestor, h⟩ := bind_eq_ok.1 h
    obtain ⟨place, hplace, h⟩ := bind_eq_ok.1 h
    cases h
    obtain ⟨-, below, hsplit, rfl, hfirst⟩ := existingAncestor_eq_ok hancestor
    rw [List.reverse_reverse] at hsplit
    refine ⟨ancestor, below, place, hsplit, mapErr_eq_ok.1 hplace, ?_, hfirst⟩
    rw [List.nil_append, List.reverse_reverse]

/-- What the operating system arrives at is a directory or a file. -/
lemma canonicalize_entry {path place : Place} (h : os.canonicalize path = .ok place) :
    os.tree.entry place = some .directory ∨ os.tree.entry place = some .file :=
  (FileTree.walks_of_walk h).entry os.tree.root

/-- A resolved path leads where the path leads. -/
lemma resolve_denotes {path resolved : Place}
    (h : os.resolveExistingAncestors path = .ok resolved) (place : Place) :
    os.Denotes resolved place ↔ os.Denotes path place := by
  obtain ⟨ancestor, below, real, rfl, hancestor, rfl, -⟩ := resolve_eq_ok h
  have hwalk := (FileTree.walks_of_walk hancestor).leads below place
  rw [Denotes, Denotes, FileTree.leads_place (canonicalize_entry hancestor), ← hwalk, normals,
    normals, normals, List.map_append]

/-- Without a broken link a resolved path denotes itself. -/
lemma eq_of_denotes {path resolved place : Place}
    (h : os.resolveExistingAncestors path = .ok resolved) (hlink : ¬ os.BrokenLink path)
    (hplace : os.Denotes resolved place) : place = resolved := by
  obtain ⟨ancestor, below, real, rfl, hancestor, rfl, hfirst⟩ := resolve_eq_ok h
  rw [Denotes, FileTree.leads_place (canonicalize_entry hancestor)] at hplace
  rcases below with _ | ⟨name, below⟩
  · rw [List.append_nil]
    exact FileTree.leads_nil.1 hplace
  have hmissing := hfirst name below rfl
  have hreaches : ∀ entry, os.tree.entry (real ++ [name]) = some entry →
      entry ≠ .directory ∧ entry ≠ .file := by
    intro entry hentry
    have hreal : os.tree.entry real = some .directory :=
      os.tree.parent real name (by rw [hentry]; rfl)
    obtain ⟨left, hleft⟩ := (FileTree.walks_of_walk hancestor).walk_append hreal
    have hstep : os.canonicalize (ancestor ++ [name]) =
        os.tree.walk left real [.normal name] := by
      rw [canonicalize, normals, List.map_append]
      exact hleft _
    have hnot : ∀ q, os.tree.walk left real [.normal name] ≠ .ok q := by
      intro q hq
      rw [pathExists_iff.2 ⟨q, hstep.trans hq⟩] at hmissing
      cases hmissing
    constructor
    · rintro rfl
      refine hnot (real ++ [name]) ((FileTree.walk_directory hentry).trans ?_)
      rcases left with _ | left <;> rfl
    · rintro rfl
      exact hnot _ (FileTree.walk_file hentry)
  rcases hentry : os.tree.entry (real ++ [name]) with _ | _ | _ | text
  · exact ((FileTree.leads_missing hentry).1 hplace).2
  · exact absurd rfl (hreaches _ hentry).1
  · exact absurd rfl (hreaches _ hentry).2
  · exact absurd ⟨ancestor, name, below, real, text, rfl, hancestor, hmissing, hentry⟩ hlink

/-- What the checks of one target establish. -/
lemma resolveTarget_eq_ok {kind : ResourceKind} {target : PathTarget} {resolved : Place}
    (h : os.resolveTarget kind target = .ok resolved) : ∃ root path,
      os.canonicalExisting target.root = .ok root ∧ os.absoluteLexical target.path = .ok path ∧
      os.resolveExistingAncestors path = .ok resolved ∧ root <+: resolved ∧ resolved ≠ root ∧
      (target.mustExist = true → os.isDir resolved = true) ∧
      (target.mustBeFresh = true → os.pathExists resolved = false ∨
        os.isDir resolved = true ∧ os.readDir resolved = []) := by
  obtain ⟨root, hroot, h⟩ := bind_eq_ok.1 h
  split_ifs at h with hfilesystem
  obtain ⟨path, hpath, h⟩ := bind_eq_ok.1 h
  obtain ⟨resolved', hresolved, h⟩ := bind_eq_ok.1 h
  have hfields : resolved' = resolved ∧ root <+: resolved' ∧ resolved' ≠ root ∧
      (target.mustExist = true → os.isDir resolved' = true) ∧
      (target.mustBeFresh = true → os.pathExists resolved' = false ∨
        os.isDir resolved' = true ∧ os.readDir resolved' = []) := by
    split_ifs at h with hstrict hexist hfresh hdirectory hempty
    all_goals
      rw [not_or, not_not] at hstrict
      refine ⟨Except.ok.inj h, hstrict.2, hstrict.1, fun hmust => ?_, fun hmust => ?_⟩
    · simpa [hmust] using hexist
    · exact .inr ⟨by simpa using hdirectory, by simpa using hempty⟩
    · simpa [hmust] using hexist
    · exact .inl (by simpa [hmust] using hfresh)
  obtain ⟨rfl, hfields⟩ := hfields
  exact ⟨root, path, mapErr_eq_ok.1 hroot, mapErr_eq_ok.1 hpath, mapErr_eq_ok.1 hresolved, hfields⟩

/-- A target that runs into no broken link denotes a strict descendant of its root. -/
lemma resolveTarget_denotes {kind : ResourceKind} {target : PathTarget} {resolved place : Place}
    (h : os.resolveTarget kind target = .ok resolved)
    (hlink : ∀ path, os.absoluteLexical target.path = .ok path → ¬ os.BrokenLink path)
    (hplace : os.Denotes resolved place) : ∃ root, os.canonicalExisting target.root = .ok root ∧
      root <+: place ∧ place ≠ root := by
  obtain ⟨root, path, hroot, hpath, hresolved, hbelow, hne, -⟩ := resolveTarget_eq_ok h
  obtain rfl := eq_of_denotes hresolved (hlink path hpath) hplace
  exact ⟨root, hroot, hbelow, hne⟩

end OperatingSystem

/-! ## Requests -/

/-- The comparison passes when no two paths are equal or nested. -/
lemma checkPairs_eq_ok {paths : List (ResourceKind × Place)} :
    checkPairs paths = .ok () ↔ paths.Pairwise fun left right => Apart left.2 right.2 := by
  have hpair : ∀ left right : ResourceKind × Place,
      checkPair left right = .ok () ↔ Apart left.2 right.2 := by
    intro left right
    rw [checkPair]
    split_ifs with hnested
    · refine iff_of_false nofun fun hapart => ?_
      rcases hnested with heq | hinside | hinside
      · exact hapart.1 (heq ▸ List.prefix_refl _)
      · exact hapart.2 hinside
      · exact hapart.1 hinside
    · exact iff_of_true rfl ⟨fun hinside => hnested (.inr (.inr hinside)),
        fun hinside => hnested (.inr (.inl hinside))⟩
  induction paths with
  | nil => exact iff_of_true rfl .nil
  | cons left rest ih =>
    rw [checkPairs, check_bind_eq_ok, List.pairwise_cons]
    refine and_congr ⟨fun h right hright => ?_, fun h => ?_⟩ ih
    · exact (hpair left right).1 (forM_ok_mem h hright)
    · exact forM_eq_ok rest fun right hright => (hpair left right).2 (h right hright)

/-- What a validated request is meant to have: resolved paths that are strict descendants of the
real roots, that are there or fresh as demanded, and that denote places apart from each other.
Where it is and whether it is fresh are said of the resolved path; through a broken link it can
denote a place outside its root (`resolveTarget_outside_root`), and only there
(`resolveTarget_denotes`). -/
structure SafePaths (os : OperatingSystem) (request : OperationalPathRequest)
    (paths : List (ResourceKind × Place)) : Prop where
  target : ∀ kind target, (kind, target) ∈ request.targets → ∃ root resolved,
    os.canonicalExisting target.root = .ok root ∧ (kind, resolved) ∈ paths ∧
    root <+: resolved ∧ resolved ≠ root ∧
    (target.mustExist = true → os.isDir resolved = true) ∧
    (target.mustBeFresh = true → os.pathExists resolved = false ∨
      os.isDir resolved = true ∧ os.readDir resolved = [])
  apart : ∀ kind resolved kind' resolved', (kind, resolved) ∈ paths → (kind', resolved') ∈ paths →
    kind ≠ kind' → ∀ place place', os.Denotes resolved place → os.Denotes resolved' place' →
    Apart place place'

/-- Where a target of the request runs into a broken link, the place the link leads to is apart from
the places of the other targets. -/
def BrokenLinksApart (os : OperatingSystem) (request : OperationalPathRequest) : Prop :=
  ∀ kind target kind' target', (kind, target) ∈ request.targets →
    (kind', target') ∈ request.targets → kind ≠ kind' → ∀ path path',
    os.absoluteLexical target.path = .ok path → os.absoluteLexical target'.path = .ok path' →
    os.BrokenLink path → ∀ place place', os.Denotes path place → os.Denotes path' place' →
    Apart place place'

/-- The paths of an accepted request are its resolved targets, pairwise apart as texts. -/
lemma validateOperationalPaths_eq_ok {os : OperatingSystem} {request : OperationalPathRequest}
    {paths : List (ResourceKind × Place)} (h : validateOperationalPaths os request = .ok paths) :
    (∀ kind target, (kind, target) ∈ request.targets → ∃ resolved, (kind, resolved) ∈ paths ∧
      os.resolveTarget kind target = .ok resolved) ∧
    (∀ kind resolved, (kind, resolved) ∈ paths → ∃ target, (kind, target) ∈ request.targets ∧
      os.resolveTarget kind target = .ok resolved) ∧
    ∀ kind resolved kind' resolved', (kind, resolved) ∈ paths → (kind', resolved') ∈ paths →
      kind ≠ kind' → Apart resolved resolved' := by
  obtain ⟨paths', hresolve, h⟩ := bind_eq_ok.1 h
  obtain ⟨hpairs, h⟩ := check_bind_eq_ok.1 h
  cases h
  have hall := mapM_ok_forall₂ hresolve
  refine ⟨fun kind target hmem => ?_, fun kind resolved hmem => ?_, ?_⟩
  · obtain ⟨e, he, hone⟩ := forall₂_exists_of_mem hall hmem
    obtain ⟨resolved, hresolved, hone⟩ := bind_eq_ok.1 hone
    cases hone
    exact ⟨resolved, he, hresolved⟩
  · obtain ⟨⟨kind', target⟩, he, hone⟩ := forall₂_exists_of_mem hall.flip hmem
    obtain ⟨resolved', hresolved, hone⟩ := bind_eq_ok.1 hone
    cases hone
    exact ⟨target, he, hresolved⟩
  · intro kind resolved kind' resolved' hmem hmem' hne
    have hsymm : Std.Symm fun left right : ResourceKind × Place => Apart left.2 right.2 :=
      ⟨fun _ _ => Apart.symm⟩
    exact (checkPairs_eq_ok.1 hpairs).forall hmem hmem' fun heq => hne (congrArg Prod.fst heq)

/-- For every tree and every request that is accepted, the targets are safe exactly when those that
run into a broken link denote places apart from the others. -/
theorem operationalPaths_safe_iff {os : OperatingSystem} {request : OperationalPathRequest}
    {paths : List (ResourceKind × Place)} (h : validateOperationalPaths os request = .ok paths) :
    SafePaths os request paths ↔ BrokenLinksApart os request := by
  obtain ⟨hforth, hback, htexts⟩ := validateOperationalPaths_eq_ok h
  constructor
  · intro hsafe kind target kind' target' hmem hmem' hne path path' hpath hpath' _ place place'
      hplace hplace'
    obtain ⟨resolved, hthere, hresolve⟩ := hforth kind target hmem
    obtain ⟨resolved', hthere', hresolve'⟩ := hforth kind' target' hmem'
    obtain ⟨-, q, -, hq, hresolved, -⟩ := OperatingSystem.resolveTarget_eq_ok hresolve
    obtain ⟨-, q', -, hq', hresolved', -⟩ := OperatingSystem.resolveTarget_eq_ok hresolve'
    obtain rfl : q = path := Except.ok.inj (hq.symm.trans hpath)
    obtain rfl : q' = path' := Except.ok.inj (hq'.symm.trans hpath')
    exact hsafe.apart kind resolved kind' resolved' hthere hthere' hne place place'
      ((OperatingSystem.resolve_denotes hresolved place).2 hplace)
      ((OperatingSystem.resolve_denotes hresolved' place').2 hplace')
  · intro hlinks
    refine ⟨fun kind target hmem => ?_, ?_⟩
    · obtain ⟨resolved, hthere, hresolve⟩ := hforth kind target hmem
      obtain ⟨root, -, hroot, -, -, hfields⟩ := OperatingSystem.resolveTarget_eq_ok hresolve
      exact ⟨root, resolved, hroot, hthere, hfields⟩
    · intro kind resolved kind' resolved' hthere hthere' hne place place' hplace hplace'
      obtain ⟨target, hmem, hresolve⟩ := hback kind resolved hthere
      obtain ⟨target', hmem', hresolve'⟩ := hback kind' resolved' hthere'
      obtain ⟨-, path, -, hpath, hresolved, -⟩ := OperatingSystem.resolveTarget_eq_ok hresolve
      obtain ⟨-, path', -, hpath', hresolved', -⟩ := OperatingSystem.resolveTarget_eq_ok hresolve'
      have hleads := (OperatingSystem.resolve_denotes hresolved place).1 hplace
      have hleads' := (OperatingSystem.resolve_denotes hresolved' place').1 hplace'
      by_cases hbroken : os.BrokenLink path
      · exact hlinks kind target kind' target' hmem hmem' hne path path' hpath hpath' hbroken place
          place' hleads hleads'
      by_cases hbroken' : os.BrokenLink path'
      · exact (hlinks kind' target' kind target hmem' hmem hne.symm path' path hpath' hpath hbroken'
          place' place hleads' hleads).symm
      · -- both denote themselves, and the texts were compared
        rw [OperatingSystem.eq_of_denotes hresolved hbroken hplace,
          OperatingSystem.eq_of_denotes hresolved' hbroken' hplace']
        exact htexts kind resolved kind' resolved' hthere hthere' hne

/-- A directory `r` below the root, with something under the name `a`. -/
def rootEntry (a : Option FileEntry) (place : Place) : Option FileEntry :=
  if place = [] ∨ place = ["r"] then some .directory
  else if place = ["r"] ++ ["a"] then a
  else none

lemma rootEntry_below {a : Option FileEntry} {place : Place} (hroot : place ≠ [])
    (hr : place ≠ ["r"]) (name : String) : rootEntry a (place ++ [name]) = none := by
  have hentry : ¬ (place ++ [name] = [] ∨ place ++ [name] = ["r"]) := by
    simp [List.append_eq_cons_iff, hroot]
  have hbelow : place ++ [name] ≠ ["r"] ++ ["a"] := fun heq =>
    hr (List.append_inj_left' heq rfl)
  rw [rootEntry, if_neg hentry, if_neg hbelow]

def rootTree (a : Option FileEntry) : FileTree where
  entry := rootEntry a
  root := rfl
  parent place name h := by
    refine if_pos (not_not.1 fun hplace => ?_)
    rw [not_or] at hplace
    rw [rootEntry_below hplace.1 hplace.2] at h
    cases h
  names place := if place = [] then ["r"] else if place = ["r"] ∧ a.isSome then ["a"] else []
  mem_names place name := by
    by_cases hroot : place = []
    · subst hroot
      by_cases hname : name = "r" <;> simp [rootEntry, hname]
    by_cases hr : place = ["r"]
    · subst hr
      by_cases hname : name = "a" <;> simp [rootEntry, hname]
    · rw [rootEntry_below hroot hr]
      simp [hroot, hr]

/-- A checkpoint at `/r/a` and a restore to `/r/b`, both fresh. -/
def twoFresh : OperationalPathRequest where
  database := none
  routingImages := none
  checkpoint := some ⟨⟨true, normals ["r"]⟩, ⟨true, normals ["r", "a"]⟩, false, true⟩
  restore := some ⟨⟨true, normals ["r"]⟩, ⟨true, normals ["r", "b"]⟩, false, true⟩
  scratch := none

/-- The system with that tree. -/
def rootSystem (a : Option FileEntry) : OperatingSystem := ⟨rootTree a, .ok [], 40⟩

theorem operationalPaths_safe_iff_absent : SafePaths (rootSystem none) twoFresh
    [(.checkpoint, ["r", "a"]), (.restore, ["r", "b"])] := by
  have hok : validateOperationalPaths (rootSystem none) twoFresh =
      .ok [(.checkpoint, ["r", "a"]), (.restore, ["r", "b"])] := by decide +kernel
  refine (operationalPaths_safe_iff hok).2 fun _ _ _ _ _ _ _ _ _ _ _ hbroken => ?_
  -- there is no link at all
  obtain ⟨-, name, -, place, text, -, -, -, hentry⟩ := hbroken
  have hnone : rootEntry none (place ++ [name]) ≠ some (.link text) := by
    rw [rootEntry]
    split_ifs <;> simp
  exact absurd hentry hnone

/-- `a` is a link to the absent `b` beside `r`: the path is accepted as a descendant of `r`, and
what it denotes is not one. -/
lemma resolveTarget_outside_root :
    let os := rootSystem (some (.link ⟨true, normals ["b"]⟩))
    os.resolveTarget .checkpoint ⟨⟨true, normals ["r"]⟩, ⟨true, normals ["r", "a"]⟩, false, true⟩ =
        .ok ["r", "a"] ∧
      os.canonicalExisting ⟨true, normals ["r"]⟩ = .ok ["r"] ∧
      os.Denotes ["r", "a"] ["b"] ∧ ¬ ["r"] <+: ["b"] := by
  intro os
  have hlink : os.tree.entry (["r"] ++ ["a"]) = some (.link ⟨true, normals ["b"]⟩) := rfl
  have ha : os.Denotes ["r", "a"] ["b"] :=
    (FileTree.leads_directory rfl).2 ((FileTree.leads_link hlink).2
      ((FileTree.leads_missing rfl).2 ⟨rfl, rfl⟩))
  refine ⟨by decide +kernel, by decide +kernel, ha, by decide⟩

/-- `a` is a link to the absent `b`: both paths are accepted, and they denote the same place. -/
theorem operationalPaths_same_place :
    let os := rootSystem (some (.link ⟨true, normals ["r", "b"]⟩))
    validateOperationalPaths os twoFresh =
      .ok [(.checkpoint, ["r", "a"]), (.restore, ["r", "b"])] ∧
    ¬ SafePaths os twoFresh [(.checkpoint, ["r", "a"]), (.restore, ["r", "b"])] := by
  intro os
  refine ⟨by decide +kernel, fun hsafe => ?_⟩
  have hb : os.Denotes ["r", "b"] ["r", "b"] :=
    (FileTree.leads_directory rfl).2 ((FileTree.leads_missing rfl).2 ⟨rfl, rfl⟩)
  have hlink : os.tree.entry (["r"] ++ ["a"]) = some (.link ⟨true, normals ["r", "b"]⟩) := rfl
  have ha : os.Denotes ["r", "a"] ["r", "b"] :=
    (FileTree.leads_directory rfl).2 ((FileTree.leads_link hlink).2 hb)
  exact (hsafe.apart .checkpoint ["r", "a"] .restore ["r", "b"] (by decide) (by decide) (by decide)
    _ _ ha hb).1 (List.prefix_refl _)

end PathHydra
