import Mathlib.Data.List.Infix
import PathHydra.Framework.Outcome

/-!
# Trees of directories and symbolic links

A tree says what stands at each place.  `walk` follows a path from a place as an operating system
does: it stops at what does not exist, and after so many links.  `Leads` follows a path further, to
the place where it would be created: through every link, and then along names alone.

A path below what a walk arrives at leads where it leads from there (`Walks.leads`), and so does the
path that writes the place of arrival (`leads_place`).
-/

namespace PathHydra

/-- A component of a written path. -/
inductive PathComponent
  | currentDir
  | parentDir
  | normal (name : String)
  deriving DecidableEq

/-- A path as it is written. -/
structure PathText where
  absolute : Bool
  components : List PathComponent
  deriving DecidableEq

/-- A place in a tree: the names from the root. -/
abbrev Place := List String

/-- The path that writes these names. -/
def normals (names : List String) : List PathComponent := names.map .normal

lemma normals_injective : Function.Injective normals :=
  List.map_injective_iff.2 fun _ _ h => PathComponent.normal.inj h

/-- What stands at a place. -/
inductive FileEntry
  | directory
  | file
  | link (target : PathText)
  deriving DecidableEq

/-- A tree: only a directory has something below it. -/
structure FileTree where
  entry : Place → Option FileEntry
  root : entry [] = some .directory
  parent : ∀ place name, (entry (place ++ [name])).isSome = true → entry place = some .directory
  names : Place → List String
  mem_names : ∀ place name, name ∈ names place ↔ (entry (place ++ [name])).isSome = true

/-- Why a path cannot be followed. -/
inductive WalkError
  | notFound
  | notDirectory
  | tooManyLinks
  deriving DecidableEq

namespace FileTree

variable (tree : FileTree)

/-- Follows a path up to its first link, which is left to `follow`. -/
def walkThrough (follow : Place → List PathComponent → Except WalkError Place) :
    Place → List PathComponent → Except WalkError Place
  | place, [] => .ok place
  | place, .currentDir :: rest => walkThrough follow place rest
  | place, .parentDir :: rest => walkThrough follow place.dropLast rest
  | place, .normal name :: rest =>
    match tree.entry (place ++ [name]) with
    | none => .error .notFound
    | some .directory => walkThrough follow (place ++ [name]) rest
    | some .file => if rest = [] then .ok (place ++ [name]) else .error .notDirectory
    | some (.link target) =>
      follow (if target.absolute then [] else place) (target.components ++ rest)

/-- Follows a path through so many links at most. -/
def walk : ℕ → Place → List PathComponent → Except WalkError Place
  | 0 => tree.walkThrough fun _ _ => .error .tooManyLinks
  | links + 1 => tree.walkThrough (walk links)

/-- The place that a path from a place stands for, whether or not there is something. -/
inductive Leads : Place → List PathComponent → Place → Prop
  | done (place) : Leads place [] place
  | currentDir {place rest target} : Leads place rest target →
      Leads place (.currentDir :: rest) target
  | parentDir {place rest target} : Leads place.dropLast rest target →
      Leads place (.parentDir :: rest) target
  | directory {place name rest target} : tree.entry (place ++ [name]) = some .directory →
      Leads (place ++ [name]) rest target → Leads place (.normal name :: rest) target
  | file {place name} : tree.entry (place ++ [name]) = some .file →
      Leads place [.normal name] (place ++ [name])
  | link {place name text rest target} : tree.entry (place ++ [name]) = some (.link text) →
      Leads (if text.absolute then [] else place) (text.components ++ rest) target →
      Leads place (.normal name :: rest) target
  | missing {place name rest} : tree.entry place = some .directory →
      tree.entry (place ++ [name]) = none →
      Leads place (.normal name :: normals rest) (place ++ name :: rest)

variable {tree}

/-! ## Walks -/

lemma entry_dropLast {place : Place} (h : tree.entry place = some .directory) :
    tree.entry place.dropLast = some .directory := by
  rcases List.eq_nil_or_concat place with rfl | ⟨front, last, rfl⟩
  · exact h
  · rw [List.concat_eq_append] at h ⊢
    rw [List.dropLast_concat]
    exact tree.parent front last (by rw [h]; rfl)

/-- Only a directory has something below it. -/
lemma entry_below {place : Place} (h : tree.entry place ≠ some .directory) {name : String} :
    tree.entry (place ++ [name]) = none := by
  rcases hentry : tree.entry (place ++ [name]) with _ | entry
  · rfl
  · exact absurd (tree.parent place name (by rw [hentry]; rfl)) h

/-- The steps of a walk that arrives. -/
inductive Walks (tree : FileTree) : ℕ → Place → List PathComponent → Place → Prop
  | done (links place) : Walks tree links place [] place
  | currentDir {links place rest q} : Walks tree links place rest q →
      Walks tree links place (.currentDir :: rest) q
  | parentDir {links place rest q} : Walks tree links place.dropLast rest q →
      Walks tree links place (.parentDir :: rest) q
  | directory {links place name rest q} : tree.entry (place ++ [name]) = some .directory →
      Walks tree links (place ++ [name]) rest q → Walks tree links place (.normal name :: rest) q
  | file {links place name} : tree.entry (place ++ [name]) = some .file →
      Walks tree links place [.normal name] (place ++ [name])
  | link {links place name text rest q} : tree.entry (place ++ [name]) = some (.link text) →
      Walks tree links (if text.absolute then [] else place) (text.components ++ rest) q →
      Walks tree (links + 1) place (.normal name :: rest) q

lemma walks_of_walkThrough {links : ℕ}
    {follow : Place → List PathComponent → Except WalkError Place} {q : Place}
    (hfollow : ∀ place name text rest, tree.entry (place ++ [name]) = some (.link text) →
      follow (if text.absolute then [] else place) (text.components ++ rest) = .ok q →
      Walks tree links place (.normal name :: rest) q) {path : List PathComponent} {place : Place}
    (h : tree.walkThrough follow place path = .ok q) : Walks tree links place path q := by
  induction path generalizing place with
  | nil =>
    cases h
    exact .done _ _
  | cons component rest ih =>
    rcases component with _ | _ | name
    · exact .currentDir (ih h)
    · exact .parentDir (ih h)
    · rw [walkThrough] at h
      rcases hentry : tree.entry (place ++ [name]) with _ | _ | _ | text
      · rw [hentry] at h
        cases h
      · rw [hentry] at h
        exact .directory hentry (ih h)
      · rw [hentry] at h
        dsimp only at h
        split_ifs at h with hrest
        cases h
        rw [hrest]
        exact .file hentry
      · rw [hentry] at h
        exact hfollow place name text rest hentry h

lemma walks_of_walk {links : ℕ} {place q : Place} {path : List PathComponent}
    (h : tree.walk links place path = .ok q) : Walks tree links place path q := by
  induction links generalizing place path with
  | zero => exact walks_of_walkThrough (fun _ _ _ _ _ hfollow => by cases hfollow) h
  | succ links ih =>
    exact walks_of_walkThrough (fun _ _ _ _ hentry hfollow => .link hentry (ih hfollow)) h

section Equations

variable {links : ℕ} {place : Place} {name : String} {rest : List PathComponent}

lemma walk_currentDir :
    tree.walk links place (.currentDir :: rest) = tree.walk links place rest := by
  rcases links with _ | links <;> rfl

lemma walk_parentDir :
    tree.walk links place (.parentDir :: rest) = tree.walk links place.dropLast rest := by
  rcases links with _ | links <;> rfl

lemma walk_directory (h : tree.entry (place ++ [name]) = some .directory) :
    tree.walk links place (.normal name :: rest) = tree.walk links (place ++ [name]) rest := by
  rcases links with _ | links <;> simp only [walk, walkThrough, h]

lemma walk_file (h : tree.entry (place ++ [name]) = some .file) :
    tree.walk links place [.normal name] = .ok (place ++ [name]) := by
  rcases links with _ | links <;> simp only [walk, walkThrough, h, if_true]

lemma walk_link {text : PathText} (h : tree.entry (place ++ [name]) = some (.link text)) :
    tree.walk (links + 1) place (.normal name :: rest) =
      tree.walk links (if text.absolute then [] else place) (text.components ++ rest) := by
  simp only [walk, walkThrough, h]

end Equations

/-- What a walk arrives at is no link. -/
lemma Walks.entry {links : ℕ} {place q : Place} {path : List PathComponent}
    (h : Walks tree links place path q) (hplace : tree.entry place = some .directory) :
    tree.entry q = some .directory ∨ tree.entry q = some .file := by
  induction h with
  | done => exact .inl hplace
  | currentDir _ ih => exact ih hplace
  | parentDir _ ih => exact ih (entry_dropLast hplace)
  | directory hentry _ ih => exact ih hentry
  | file hentry => exact .inr hentry
  | @link _ place _ text _ _ _ _ ih =>
    refine ih ?_
    split_ifs
    · exact tree.root
    · exact hplace

/-- A walk goes on from where it arrives, with the links that are left. -/
lemma Walks.walk_append {links : ℕ} {place q : Place} {path : List PathComponent}
    (h : Walks tree links place path q) (hq : tree.entry q = some .directory) :
    ∃ left, ∀ rest, tree.walk links place (path ++ rest) = tree.walk left q rest := by
  induction h with
  | done links place => exact ⟨links, fun _ => rfl⟩
  | currentDir _ ih =>
    obtain ⟨left, hleft⟩ := ih hq
    exact ⟨left, fun rest => walk_currentDir.trans (hleft rest)⟩
  | parentDir _ ih =>
    obtain ⟨left, hleft⟩ := ih hq
    exact ⟨left, fun rest => walk_parentDir.trans (hleft rest)⟩
  | directory hentry _ ih =>
    obtain ⟨left, hleft⟩ := ih hq
    exact ⟨left, fun rest => (walk_directory hentry).trans (hleft rest)⟩
  | file hentry => cases hentry.symm.trans hq
  | link hentry _ ih =>
    obtain ⟨left, hleft⟩ := ih hq
    refine ⟨left, fun rest => (walk_link hentry).trans ?_⟩
    show tree.walk _ _ (_ ++ (_ ++ rest)) = _
    rw [← List.append_assoc, hleft]

/-! ## Where a path leads -/

section Leads

variable {place target : Place} {name : String} {rest : List PathComponent}

lemma leads_nil : tree.Leads place [] target ↔ target = place := by
  constructor
  · rintro ⟨⟩
    rfl
  · rintro rfl
    exact .done _

lemma leads_currentDir :
    tree.Leads place (.currentDir :: rest) target ↔ tree.Leads place rest target := by
  constructor
  · rintro (_ | h)
    exact h
  · exact .currentDir

lemma leads_parentDir :
    tree.Leads place (.parentDir :: rest) target ↔ tree.Leads place.dropLast rest target := by
  constructor
  · rintro (_ | _ | h)
    exact h
  · exact .parentDir

lemma leads_directory (hentry : tree.entry (place ++ [name]) = some .directory) :
    tree.Leads place (.normal name :: rest) target ↔ tree.Leads (place ++ [name]) rest target := by
  constructor
  · intro h
    rcases h with _ | _ | _ | ⟨-, h⟩ | hfile | ⟨hlink, -⟩ | ⟨-, hmissing⟩
    · exact h
    · cases hentry.symm.trans hfile
    · cases hentry.symm.trans hlink
    · cases hentry.symm.trans hmissing
  · exact .directory hentry

lemma leads_file (hentry : tree.entry (place ++ [name]) = some .file) :
    tree.Leads place (.normal name :: rest) target ↔ rest = [] ∧ target = place ++ [name] := by
  constructor
  · intro h
    rcases h with _ | _ | _ | ⟨hdirectory, -⟩ | _ | ⟨hlink, -⟩ | ⟨-, hmissing⟩
    · cases hentry.symm.trans hdirectory
    · exact ⟨rfl, rfl⟩
    · cases hentry.symm.trans hlink
    · cases hentry.symm.trans hmissing
  · rintro ⟨rfl, rfl⟩
    exact .file hentry

lemma leads_link {text : PathText} (hentry : tree.entry (place ++ [name]) = some (.link text)) :
    tree.Leads place (.normal name :: rest) target ↔
      tree.Leads (if text.absolute then [] else place) (text.components ++ rest) target := by
  constructor
  · intro h
    rcases h with _ | _ | _ | ⟨hdirectory, -⟩ | hfile | ⟨hlink, h⟩ | ⟨-, hmissing⟩
    · cases hentry.symm.trans hdirectory
    · cases hentry.symm.trans hfile
    · cases hentry.symm.trans hlink
      exact h
    · cases hentry.symm.trans hmissing
  · exact .link hentry

lemma leads_missing (hentry : tree.entry (place ++ [name]) = none) {names : List String} :
    tree.Leads place (.normal name :: normals names) target ↔
      tree.entry place = some .directory ∧ target = place ++ name :: names := by
  constructor
  · intro h
    generalize hrest : normals names = rest at h
    rcases h with _ | _ | _ | ⟨hdirectory, -⟩ | hfile | ⟨hlink, -⟩ | ⟨hplace, -⟩
    · cases hentry.symm.trans hdirectory
    · cases hentry.symm.trans hfile
    · cases hentry.symm.trans hlink
    · exact ⟨hplace, by rw [normals_injective hrest]⟩
  · rintro ⟨hplace, rfl⟩
    exact .missing hplace hentry

end Leads

/-- A path below what a walk arrives at leads where it leads from there. -/
lemma Walks.leads {links : ℕ} {place q : Place} {path : List PathComponent}
    (h : Walks tree links place path q) (names : List String) (target : Place) :
    tree.Leads place (path ++ normals names) target ↔ tree.Leads q (normals names) target := by
  induction h with
  | done => exact Iff.rfl
  | currentDir _ ih => exact leads_currentDir.trans ih
  | parentDir _ ih => exact leads_parentDir.trans ih
  | directory hentry _ ih => exact (leads_directory hentry).trans ih
  | @file _ place name hentry =>
    refine (leads_file hentry).trans ?_
    rcases names with _ | ⟨below, names⟩
    · exact (and_iff_right rfl).trans leads_nil.symm
    · have hnone : tree.entry (place ++ [name] ++ [below]) = none :=
        entry_below fun hdirectory => nomatch hentry.symm.trans hdirectory
      refine iff_of_false (fun h => nomatch h.1) fun h => ?_
      cases hentry.symm.trans ((leads_missing hnone).1 h).1
  | link hentry _ ih =>
    refine (leads_link hentry).trans ?_
    show tree.Leads _ (_ ++ (_ ++ _)) _ ↔ _
    rw [← List.append_assoc, ih]

/-- The path that writes the place of a directory leads on as from there. -/
lemma leads_real {q : Place} (hq : tree.entry q = some .directory) (rest : List PathComponent)
    (target : Place) : tree.Leads [] (normals q ++ rest) target ↔ tree.Leads q rest target := by
  induction q using List.reverseRecOn generalizing rest with
  | nil => exact Iff.rfl
  | append_singleton q name ih =>
    rw [normals, List.map_append, List.append_assoc]
    exact (ih (tree.parent q name (by rw [hq]; rfl)) _).trans (leads_directory hq)

/-- The same for the place that a walk arrives at, which may be a file. -/
lemma leads_place {q : Place} (hq : tree.entry q = some .directory ∨ tree.entry q = some .file)
    (names : List String) (target : Place) :
    tree.Leads [] (normals (q ++ names)) target ↔ tree.Leads q (normals names) target := by
  have hsplit : normals (q ++ names) = normals q ++ normals names := List.map_append
  rw [hsplit]
  rcases hq with hq | hq
  · exact leads_real hq _ _
  · rcases List.eq_nil_or_concat q with rfl | ⟨front, last, rfl⟩
    · cases tree.root.symm.trans hq
    rw [List.concat_eq_append] at hq ⊢
    have hfront : tree.entry front = some .directory := tree.parent front last (by rw [hq]; rfl)
    have hwalk : Walks tree 0 front [.normal last] (front ++ [last]) := .file hq
    rw [← hwalk.leads, normals, List.map_append, List.append_assoc]
    exact leads_real hfront _ _

end FileTree

end PathHydra
