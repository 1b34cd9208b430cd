import MdxPress.Proofs.Files.Rooted

/-!
What writing changes, apart from the tree it is done in.

* `FileTree.Alike` says that two trees look the same to one who follows a path;
  `FileTree.readText_congr` is what follows for reading;
* a `FileTree.Patch` tells for every place what is put there, if anything;
  `FileTree.exists_patch` finds the one that writing to a path puts on every tree that looks the same
  along the path;
* `FileTree.Patch.Fits.alike` says that a patch is not seen along a path apart from its own, and
  `FileTree.Patch.Fits.comm` that two patches for paths apart may be put on in either order.

This is why folders made on the way do no harm: they are made where no file stands, and whether a
folder is there makes no difference to reading or writing elsewhere.
-/

namespace MdxPress

/-- Neither of two paths is the other or leads to a folder around it. -/
def Path.Apart (p q : Text) : Prop :=
  ¬ Path.Covers p q ∧ ¬ Path.Covers q p

instance (p q : Text) : Decidable (Path.Apart p q) :=
  inferInstanceAs (Decidable (_ ∧ _))

theorem Path.Apart.symm {p q : Text} (apart : Path.Apart p q) : Path.Apart q p :=
  ⟨apart.2, apart.1⟩

namespace FileTree

/-- Two trees look the same along a path: they have the same at its end, and the same files on its
way.  They may differ in the folders on the way. -/
def Alike (t u : FileTree) (path : Text) : Prop :=
  Path.isAbsolute path = false → t.get? (Path.parts path) = u.get? (Path.parts path) ∧
    ∀ place, place <+: Path.parts path → t.file? place = u.file? place

section Alike

variable {t u : FileTree} {path : Text}

theorem alike_of_get? (same : ∀ place, t.get? place = u.get? place) (path : Text) :
    t.Alike u path := by
  intro _
  refine ⟨same _, fun place _ => ?_⟩
  rw [file?, file?, same]

theorem Alike.open_iff (alike : t.Alike u path) (relative : Path.isAbsolute path = false) :
    t.Open (way path) ↔ u.Open (way path) := by
  have files : ∀ place, place <+: way path → t.file? place = u.file? place := fun place above =>
    (alike relative).2 place (above.trans (List.dropLast_prefix _))
  constructor
  · intro open_ place above
    rw [← files place above]
    exact open_ place above
  · intro open_ place above
    rw [files place above]
    exact open_ place above

theorem inside_of_not_outside (inside : ¬ (path = [] ∨ Path.isAbsolute path = true)) :
    path ≠ [] ∧ Path.isAbsolute path = false := by
  simpa using inside

/-- Reading gives the same in trees that look the same along the path. -/
theorem readText_congr (straight : Path.Straight path) (rooted : t.Rooted) (rooted' : u.Rooted)
    (alike : t.Alike u path) : t.readText path = u.readText path := by
  by_cases outside : path = [] ∨ Path.isAbsolute path = true
  · rw [readText_outside outside, readText_outside outside]
  · obtain ⟨filled, relative⟩ := inside_of_not_outside outside
    have same := alike.open_iff relative
    by_cases open_ : t.Open (way path)
    · rw [readText_open relative filled straight rooted open_,
        readText_open relative filled straight rooted' (same.1 open_), (alike relative).1]
    · rw [readText_shut relative filled straight rooted open_,
        readText_shut relative filled straight rooted' (fun h => open_ (same.2 h))]

end Alike

/-! ## Patches -/

/-- What is put at each place, if anything. -/
def Patch := List Text → Option FileNode

namespace Patch

/-- A patch leads from one tree to another. -/
def Leads (p : Patch) (t u : FileTree) : Prop :=
  ∀ place, u.get? place = (p place).or (t.get? place)

/-- What a patch may be that comes from writing to a path of a tree. -/
structure Fits (p : Patch) (t : FileTree) (path : Text) : Prop where
  /-- It touches nothing but the path and what is around it. -/
  within : ∀ {place}, p place ≠ none →
    Path.isAbsolute path = false ∧ place <+: Path.parts path
  /-- Above the end of the path it makes folders only. -/
  above : ∀ {place}, place ≠ Path.parts path → p place ≠ none → p place = some .folder
  /-- It makes all folders around what it puts. -/
  around : ∀ {place name}, p (place ++ [name]) ≠ none → p place = some .folder
  /-- It makes no folder of a file, -/
  sparesFiles : ∀ {place}, p place = some .folder → t.file? place = none
  /-- and no file of a folder. -/
  sparesFolders : ∀ {place}, t.get? place = some .folder → p place ≠ none → p place = some .folder

section Fits

variable {p q : Patch} {t u v w x : FileTree} {path other : Text}

theorem Fits.rooted (fits : p.Fits t path) (leads : p.Leads t u) (rooted : t.Rooted) : u.Rooted := by
  intro place name there
  rw [leads] at there ⊢
  by_cases put : p (place ++ [name]) = none
  · rw [put, Option.none_or] at there
    have folder := rooted place name there
    by_cases above : p place = none
    · rw [above, Option.none_or, folder]
    · rw [fits.sparesFolders folder above, Option.some_or]
  · rw [fits.around put, Option.some_or]

/-- **A patch is not seen along a path apart from its own.** -/
theorem Fits.alike (fits : p.Fits t path) (leads : p.Leads t u) (apart : Path.Apart path other) :
    t.Alike u other := by
  intro relative
  have notAround {place : List Text} (put : p place ≠ none) :
      ¬ Path.parts other <+: Path.parts path ∧ ¬ Path.parts path <+: Path.parts other := by
    have same := (fits.within put).1.trans relative.symm
    exact ⟨fun h => apart.2 ⟨same.symm, h⟩, fun h => apart.1 ⟨same, h⟩⟩
  constructor
  · rw [leads]
    by_cases put : p (Path.parts other) = none
    · rw [put, Option.none_or]
    · exact absurd (fits.within put).2 (notAround put).1
  · intro place above
    by_cases put : p place = none
    · rw [file?, file?, leads, put, Option.none_or]
    · have differ : place ≠ Path.parts path := fun same => (notAround put).2 (same ▸ above)
      have folder := fits.above differ put
      rw [fits.sparesFiles folder, file?, leads, folder]
      rfl

/-- **Patches for paths apart may be put on in either order.** -/
theorem Fits.comm (fits : p.Fits t path) (fits' : q.Fits t other) (apart : Path.Apart path other)
    (first : p.Leads t u) (second : q.Leads u v) (first' : q.Leads t w) (second' : p.Leads w x)
    (place : List Text) : v.get? place = x.get? place := by
  rw [second, first, second', first']
  by_cases own : p place = none
  · rw [own, Option.none_or, Option.none_or]
  · by_cases own' : q place = none
    · rw [own', Option.none_or, Option.none_or]
    · -- a place that both put something at is a folder around both paths
      obtain ⟨relative, above⟩ := fits.within own
      obtain ⟨relative', above'⟩ := fits'.within own'
      have same := relative.trans relative'.symm
      have differ : place ≠ Path.parts path := fun here => apart.1 ⟨same, here ▸ above'⟩
      have differ' : place ≠ Path.parts other := fun here => apart.2 ⟨same.symm, here ▸ above⟩
      rw [fits.above differ own, fits'.above differ' own', Option.some_or]

end Fits
end Patch

/-! ## The patch of a write -/

section Write

variable {t : FileTree} {path : Text}

/-- Nothing is put anywhere. -/
def Patch.nothing : Patch :=
  fun _ => none

/-- The folders on the way of a path, and the file at its end, if one is put there. -/
def Patch.along (path : Text) (end_ : Option FileContent) : Patch := fun place =>
  if place <+: way path then some .folder
  else if place = Path.parts path then end_.map .file else none

theorem Patch.fits_nothing (t : FileTree) (path : Text) : Patch.nothing.Fits t path where
  within put := absurd rfl put
  above _ put := absurd rfl put
  around put := absurd rfl put
  sparesFiles put := by cases put
  sparesFolders _ put := absurd rfl put

theorem Patch.fits_along {end_ : Option FileContent} (relative : Path.isAbsolute path = false)
    (open_ : t.Open (way path)) (free : end_ ≠ none → t.get? (Path.parts path) ≠ some .folder) :
    (Patch.along path end_).Fits t path where
  within {place} put := by
    refine ⟨relative, ?_⟩
    by_cases onTheWay : place <+: way path
    · exact onTheWay.trans (List.dropLast_prefix _)
    · rw [along, if_neg onTheWay] at put
      by_cases here : place = Path.parts path
      · exact here ▸ List.prefix_rfl
      · exact absurd (if_neg here) put
  above {place} differ put := by
    by_cases onTheWay : place <+: way path
    · exact if_pos onTheWay
    · rw [along, if_neg onTheWay, if_neg differ] at put
      exact absurd rfl put
  around {place name} put := by
    apply if_pos
    by_cases onTheWay : place ++ [name] <+: way path
    · exact (List.prefix_append _ _).trans onTheWay
    · rw [along, if_neg onTheWay] at put
      by_cases here : place ++ [name] = Path.parts path
      · rw [way, ← here, List.dropLast_concat]
      · exact absurd (if_neg here) put
  sparesFiles {place} folder := by
    by_cases onTheWay : place <+: way path
    · exact open_ place onTheWay
    · rw [along, if_neg onTheWay] at folder
      split at folder
      case isTrue => cases end_ <;> cases folder
      case isFalse => cases folder
  sparesFolders {place} folder put := by
    by_cases onTheWay : place <+: way path
    · exact if_pos onTheWay
    · rw [along, if_neg onTheWay] at put
      by_cases here : place = Path.parts path
      · rw [if_pos here] at put
        exact absurd (here ▸ folder) (free fun none_ => put (by rw [none_]; rfl))
      · exact absurd (if_neg here) put

/-- The content that writing puts at the end of an open way. -/
def landed (t : FileTree) (path text : Text) : Option FileContent :=
  match verdict (t.get? (Path.parts path)) (asksFolder path) with
  | .ok () => some (.text text)
  | .error _ => none

theorem not_folder_of_landed {text : Text} (lands : t.landed path text ≠ none) :
    t.get? (Path.parts path) ≠ some .folder := by
  intro folder
  rw [landed, folder] at lands
  exact lands rfl

/-- What writing to an open way leaves, as a patch. -/
theorem leads_along (relative : Path.isAbsolute path = false) (filled : path ≠ [])
    (straight : Path.Straight path) (text : Text) (open_ : t.Open (way path)) :
    (Patch.along path (t.landed path text)).Leads t (t.writeText path text).1 := by
  intro place
  have free : t.landed path text ≠ none → t.get? (Path.parts path) ≠ some .folder :=
    not_folder_of_landed
  rw [(writeText_open relative filled straight text open_).2, Patch.along]
  unfold landed at free ⊢
  cases result : verdict (t.get? (Path.parts path)) (asksFolder path) with
  | error e =>
    rw [if_neg (by simp)]
    split
    case isTrue => rfl
    case isFalse => split <;> rfl
  | ok u =>
    rw [result] at free
    by_cases here : place = Path.parts path
    · have below := ne_root_of_get? (free (by simp))
      have beyond : ¬ place <+: way path := here ▸ not_prefix_dropLast below
      rw [if_pos ⟨here, rfl⟩, if_neg beyond, if_pos here]
      rfl
    · rw [if_neg (fun h => here h.1), if_neg here]
      split <;> rfl

/-- **Writing puts one patch on all trees that look the same along the path**, and the same comes of
it in all of them. -/
theorem exists_patch (rooted : t.Rooted) (straight : Path.Straight path) (text : Text) :
    ∃ p : Patch, p.Fits t path ∧ ∀ u : FileTree, u.Rooted → t.Alike u path →
      (u.writeText path text).2 = (t.writeText path text).2 ∧
        p.Leads u (u.writeText path text).1 := by
  by_cases outside : path = [] ∨ Path.isAbsolute path = true
  · refine ⟨.nothing, Patch.fits_nothing t path, fun u _ _ => ?_⟩
    rw [writeText_outside outside, writeText_outside outside]
    exact ⟨rfl, fun _ => rfl⟩
  · obtain ⟨filled, relative⟩ := inside_of_not_outside outside
    by_cases open_ : t.Open (way path)
    · refine ⟨.along path (t.landed path text),
        Patch.fits_along relative open_ not_folder_of_landed, fun u _ alike => ?_⟩
      have open' := (alike.open_iff relative).1 open_
      have same : t.landed path text = u.landed path text := by
        rw [landed, landed, (alike relative).1]
      rw [same, (writeText_open relative filled straight text open_).1, (alike relative).1]
      exact ⟨(writeText_open relative filled straight text open').1,
        leads_along relative filled straight text open'⟩
    · refine ⟨.nothing, Patch.fits_nothing t path, fun u rooted' alike => ?_⟩
      have shut' := fun h => open_ ((alike.open_iff relative).2 h)
      rw [writeText_shut relative straight rooted text open_,
        writeText_shut relative straight rooted' text shut',
        (alike relative).2 (way path) (List.dropLast_prefix _)]
      exact ⟨rfl, fun _ => rfl⟩

end Write

end FileTree
end MdxPress
