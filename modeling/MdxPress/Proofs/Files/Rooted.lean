import MdxPress.Proofs.Files.Path
import MdxPress.Proofs.Files.Tree
import Mathlib.Data.List.Infix

/-!
Reading and writing told from what stands at the places of a path.

* `FileTree.Rooted` holds of a tree in which everything stands in a folder, as on a disk;
* `FileTree.Open` says that no file stands in a way: folders can then be made along it;
* `FileTree.readText_open` and `FileTree.readText_shut` are what reading gives, for a path whose way
  is open and for one that leads through a file;
* `FileTree.writeText_open` and `FileTree.writeText_shut` are what writing gives and leaves.

All four are about paths that go down only.  A path that starts at the root, or an empty one, leads
nowhere, and `FileTree.writeText_outside` says that writing there leaves the tree as it is.
-/

namespace MdxPress.FileTree

/-- Everything in the tree stands in a folder. -/
def Rooted (t : FileTree) : Prop :=
  ∀ place name, t.get? (place ++ [name]) ≠ none → t.get? place = some .folder

/-- No file stands in a way, nor at its end. -/
def Open (t : FileTree) (way : List Text) : Prop :=
  ∀ place, place <+: way → t.file? place = none

section Places

variable {t : FileTree} {place other start names way : List Text} {path : Text}

/-- Whether a tree is rooted is decided on what is listed. -/
theorem rooted_of_nodes (listed : ∀ e ∈ t.nodes, t.get? e.1.dropLast = some .folder) :
    t.Rooted := by
  intro place name there
  have found : ∃ n, t.nodes.lookup (place ++ [name]) = some n := by
    apply Option.ne_none_iff_exists'.1
    simpa [get?] using there
  obtain ⟨n, found⟩ := found
  obtain ⟨before, behind, nodes, -⟩ := List.lookup_eq_some_iff.1 found
  have mem : (place ++ [name], n) ∈ t.nodes := by rw [nodes]; simp
  simpa using listed _ mem

/-- What is above something in a rooted tree is a folder. -/
theorem Rooted.folder_above (rooted : t.Rooted) (above : place <+: other) (differ : place ≠ other)
    (there : t.get? other ≠ none) : t.get? place = some .folder := by
  obtain ⟨names, rfl⟩ := above
  induction names using List.reverseRecOn with
  | nil => simp at differ
  | append_singleton names name ih =>
    rw [← List.append_assoc] at there
    have around := rooted _ _ there
    by_cases empty : names = []
    · subst empty
      simpa using around
    · apply ih
      · simpa using empty
      · rw [around]
        simp

theorem Rooted.not_above_file (rooted : t.Rooted) (above : place <+: other)
    (there : t.get? other ≠ none) (file : t.file? place ≠ none) : place = other := by
  by_contra differ
  have folder := rooted.folder_above above differ there
  rw [file?, folder] at file
  exact file rfl

theorem get?_of_file? (file : t.file? place ≠ none) : ∃ c, t.get? place = some (.file c) := by
  unfold file? at file
  split at file
  case h_1 c here => exact ⟨c, here⟩
  case h_2 => exact absurd rfl file

theorem Open.get?_ne_file {c : FileContent} (open_ : t.Open way) (above : place <+: way) :
    t.get? place ≠ some (.file c) := by
  intro here
  have none_ := open_ place above
  rw [file?, here] at none_
  cases none_

theorem exists_file_of_not_open (shut : ¬ t.Open way) :
    ∃ place, place <+: way ∧ t.file? place ≠ none := by
  unfold Open at shut
  push Not at shut
  exact shut

theorem concat_prefix_of_ne {a b : List Text} {name : Text} {names : List Text} (above : a <+: b)
    (differ : a ≠ b) (below : b <+: a ++ name :: names) : a ++ [name] <+: b := by
  obtain ⟨rest, rfl⟩ := above
  cases rest with
  | nil => simp at differ
  | cons n rest =>
    have inner := (List.prefix_append_right_inj a).1 below
    obtain ⟨rfl, -⟩ := List.cons_prefix_cons.1 inner
    exact ⟨rest, by simp⟩

/-! ## The place of a path -/

/-- A walk ends in an error when it would lead through a file. -/
theorem walk_shut (rooted : t.Rooted) (straight : ['.', '.'] ∉ names) (above : start <+: other)
    (below : other <+: start ++ names) (inside : other ≠ start ++ names)
    (file : t.file? other ≠ none) : t.walk start names = .error .notFolder := by
  obtain ⟨c, here⟩ := get?_of_file? file
  induction names generalizing start with
  | nil =>
    rw [List.append_nil] at below inside
    exact absurd (below.eq_of_length_le above.length_le) inside
  | cons name names ih =>
    rw [walk]
    by_cases same : start = other
    · rw [same, here]
    · have folder := rooted.folder_above above same (by rw [here]; simp)
      have down : name ≠ ['.', '.'] := fun up => straight (up ▸ .head _)
      rw [folder]
      dsimp only
      rw [if_neg down]
      apply ih (fun mem => straight (.tail _ mem)) (concat_prefix_of_ne above same below)
      · simpa using below
      · simpa using inside

/-- A walk along folders leads to its end. -/
theorem walk_of_folders (straight : ['.', '.'] ∉ names)
    (folders : ∀ place, start <+: place → place <+: start ++ names → place ≠ start ++ names →
      t.get? place = some .folder) : t.walk start names = .ok (start ++ names) := by
  induction names generalizing start with
  | nil => rw [walk, List.append_nil]
  | cons name names ih =>
    have down : name ≠ ['.', '.'] := fun up => straight (up ▸ .head _)
    rw [walk, folders start List.prefix_rfl (List.prefix_append _ _) (by simp)]
    dsimp only
    rw [if_neg down, ih (fun mem => straight (.tail _ mem))]
    · simp
    · intro place above below inside
      apply folders place ((List.prefix_append _ _).trans above)
      · simpa using below
      · simpa using inside

/-- A walk in an open way leads to its end, or to nothing, and then nothing stands at its end. -/
theorem walk_open (rooted : t.Rooted) (straight : ['.', '.'] ∉ names)
    (open_ : ∀ place, place <+: start ++ names → place ≠ start ++ names → t.file? place = none) :
    t.walk start names = .ok (start ++ names) ∨
      t.walk start names = .error .notFound ∧ t.get? (start ++ names) = none := by
  induction names generalizing start with
  | nil => exact .inl (by rw [walk, List.append_nil])
  | cons name names ih =>
    have above : start <+: start ++ name :: names := List.prefix_append _ _
    have down : name ≠ ['.', '.'] := fun up => straight (up ▸ .head _)
    cases here : t.get? start with
    | none =>
      refine .inr ⟨by rw [walk, here], ?_⟩
      by_contra there
      rw [rooted.folder_above above (by simp) there] at here
      cases here
    | some n =>
      cases n with
      | file c =>
        have free := open_ start above (by simp)
        rw [file?, here] at free
        cases free
      | folder =>
        have further := @ih (start ++ [name]) (fun mem => straight (.tail _ mem))
          (by simpa using open_)
        rw [walk, here]
        dsimp only
        rw [if_neg down]
        simpa using further

/-- What stands above the end of a way stands on the way to it. -/
theorem prefix_dropLast (above : other <+: names) (inside : other ≠ names) :
    other <+: names.dropLast := by
  rcases List.eq_nil_or_concat names with rfl | ⟨front, last, rfl⟩
  · simpa using above
  · rw [List.concat_eq_append] at above inside
    rw [List.concat_eq_append, List.dropLast_concat]
    exact (List.prefix_concat_iff.1 above).resolve_left inside

theorem not_prefix_dropLast (below : names ≠ []) : ¬ names <+: names.dropLast := by
  intro above
  have length := above.length_le
  have some_ := List.length_pos_of_ne_nil below
  rw [List.length_dropLast] at length
  omega

/-! ## Folders -/

/-- Where a file stands in the way, no folder is made. -/
theorem makeFolders_shut (rooted : t.Rooted) (straight : ['.', '.'] ∉ names)
    (above : start <+: other) (differ : start ≠ other) (below : other <+: start ++ names)
    (file : t.file? other ≠ none) :
    t.makeFolders start names =
      (t, .error (if other = start ++ names then .isFile else .notFolder)) := by
  obtain ⟨c, here⟩ := get?_of_file? file
  induction names generalizing start with
  | nil =>
    rw [List.append_nil] at below
    exact absurd (above.eq_of_length_le below.length_le) differ
  | cons name names ih =>
    have down : name ≠ ['.', '.'] := fun up => straight (up ▸ .head _)
    have next := concat_prefix_of_ne above differ below
    rw [makeFolders, if_neg down]
    by_cases same : start ++ [name] = other
    · subst same
      rw [here]
      cases names <;> simp
    · rw [rooted.folder_above next same (by rw [here]; simp)]
      dsimp only
      rw [ih (fun mem => straight (.tail _ mem)) next same (by simpa using below),
        List.append_assoc, List.singleton_append]

/-- In an open way all folders are there, once they are made, and nothing else has changed. -/
theorem makeFolders_open (straight : ['.', '.'] ∉ names) (open_ : t.Open (start ++ names)) :
    (t.makeFolders start names).2 = .ok () ∧
      ∀ place, (t.makeFolders start names).1.get? place =
        if place <+: start ++ names ∧ ¬ place <+: start then some .folder else t.get? place := by
  induction names generalizing t start with
  | nil =>
    refine ⟨rfl, fun place => ?_⟩
    rw [List.append_nil, if_neg (fun h => h.2 h.1), makeFolders]
  | cons name names ih =>
    have down : name ≠ ['.', '.'] := fun up => straight (up ▸ .head _)
    have onTheWay : start ++ [name] <+: start ++ name :: names := ⟨names, by simp⟩
    have split_ : start ++ name :: names = start ++ [name] ++ names := by simp
    -- what stands in the way is told apart at the next folder only
    have agree (place : List Text) (differ : place ≠ start ++ [name]) :
        (place <+: start ++ [name] ++ names ∧ ¬ place <+: start ++ [name]) ↔
          (place <+: start ++ name :: names ∧ ¬ place <+: start) := by
      rw [split_, List.prefix_concat_iff]
      simp [differ]
    rw [makeFolders, if_neg down]
    cases here : t.get? (start ++ [name]) with
    | none =>
      have free := file?_put_folder here
      have further := @ih (t.put (start ++ [name]) .folder) (start ++ [name])
        (fun mem => straight (.tail _ mem))
        (fun place above => (free place).trans (open_ place (split_ ▸ above)))
      refine ⟨further.1, fun place => (further.2 place).trans ?_⟩
      by_cases same : place = start ++ [name]
      · subst same
        have beyond : ¬ start ++ [name] <+: start := fun h =>
          absurd h.length_le (by rw [List.length_append, List.length_singleton]; omega)
        rw [if_neg (fun h => h.2 List.prefix_rfl), get?_put_self (by simp), if_pos ⟨onTheWay, beyond⟩]
      · simp only [agree place same, get?_put_of_ne same]
    | some n =>
      cases n with
      | file c => exact absurd here (open_.get?_ne_file onTheWay)
      | folder =>
        have further := @ih t (start ++ [name]) (fun mem => straight (.tail _ mem)) (split_ ▸ open_)
        refine ⟨further.1, fun place => (further.2 place).trans ?_⟩
        by_cases same : place = start ++ [name]
        · subst same
          rw [if_neg (fun h => h.2 List.prefix_rfl), here]
          split <;> rfl
        · simp only [agree place same]

end Places

/-! ## Paths that go down -/

/-- The folders on the way of a path. -/
def way (path : Text) : List Text :=
  (Path.parts path).dropLast

/-- What reading gives at the end of an open way. -/
def shown (n : Option FileNode) (asks : Bool) : Except FileError Text :=
  match n with
  | none => .error .notFound
  | some .folder => .error .isFolder
  | some (.file (.text s)) => if asks then .error .notFolder else .ok s
  | some (.file (.octets _)) => if asks then .error .notFolder else .error .noText

/-- What comes of writing at the end of an open way. -/
def verdict (n : Option FileNode) (asks : Bool) : Except FileError Unit :=
  match n with
  | none => if asks then .error .isFolder else .ok ()
  | some .folder => .error .isFolder
  | some (.file _) => if asks then .error .notFolder else .ok ()

/-- What comes of writing where a file stands in the way: at its end, or before. -/
def refusal (n : Option FileContent) : FileError :=
  if n.isSome then .isFile else .notFolder

theorem write_of_place {t : FileTree} {path : Text} {place : List Text} (content : FileContent)
    (leads : t.place path = .ok place) :
    t.write path content = match verdict (t.get? place) (asksFolder path) with
      | .error e => .error e
      | .ok () => .ok (t.put place (.file content)) := by
  rw [write, leads]
  dsimp only [Except.bind]
  rcases t.get? place with _ | _ | _ <;> cases asksFolder path <;> rfl

section Outside

variable {path : Text} (outside : path = [] ∨ Path.isAbsolute path = true)
include outside

theorem readText_outside (t : FileTree) : t.readText path = .error .notFound := by
  have nowhere : t.place path = .error .notFound := by
    rw [place, if_pos (by simpa using outside)]
  rw [readText, node, nowhere]
  rfl

theorem writeText_outside (t : FileTree) (text : Text) :
    t.writeText path text = (t, .error .notFound) := by
  have nowhere : t.place path = .error .notFound := by
    rw [place, if_pos (by simpa using outside)]
  have way : t.makeWay path = (t, .ok ()) ∨ t.makeWay path = (t, .error .notFound) := by
    rw [makeWay]
    rcases Path.parent?_cases path with ⟨none_, -⟩ | ⟨around, some_, same, -⟩
    · rw [none_]
      exact .inl rfl
    · rcases outside with rfl | root
      · cases some_
      · rw [some_]
        dsimp only
        rw [if_pos (same.trans root)]
        exact .inr rfl
  rw [writeText_eq]
  rcases way with way | way
  · rw [way]
    dsimp only
    rw [write, nowhere]
    rfl
  · rw [way]

end Outside

section Inside

variable {t : FileTree} {path : Text} (relative : Path.isAbsolute path = false)
include relative

theorem place_inside (filled : path ≠ []) : t.place path = t.walk [] (Path.parts path) := by
  rw [place, if_neg (by simp [filled, relative])]

theorem makeWay_inside : t.makeWay path = t.makeFolders [] (way path) := by
  rw [makeWay]
  rcases Path.parent?_cases path with ⟨none_, parts⟩ | ⟨around, some_, same, parts⟩
  · rw [none_, way, parts]
    rfl
  · rw [some_, way, ← parts]
    dsimp only
    rw [if_neg (by simp [same, relative])]

variable (filled : path ≠ []) (straight : Path.Straight path) (rooted : t.Rooted)
include filled straight rooted

/-- A path through a file cannot be read. -/
theorem readText_shut (shut : ¬ t.Open (way path)) : t.readText path = .error .notFolder := by
  obtain ⟨place, above, file⟩ := exists_file_of_not_open shut
  have below : place ≠ Path.parts path := by
    rintro rfl
    have root : Path.parts path = [] := by
      by_contra some_
      exact not_prefix_dropLast some_ above
    rw [root] at file
    exact file rfl
  rw [readText, node, place_inside relative filled,
    walk_shut rooted straight List.nil_prefix (above.trans (List.dropLast_prefix _)) below file]
  rfl

/-- Reading a path whose way is open tells what stands at its end. -/
theorem readText_open (open_ : t.Open (way path)) :
    t.readText path = shown (t.get? (Path.parts path)) (asksFolder path) := by
  rw [readText, node, place_inside relative filled]
  have free : ∀ place, place <+: [] ++ Path.parts path → place ≠ [] ++ Path.parts path →
      t.file? place = none :=
    fun place above inside => open_ place (prefix_dropLast above inside)
  rcases walk_open rooted straight free with leads | ⟨ends, none_⟩
  · rw [leads]
    dsimp only [Except.bind, List.nil_append]
    rcases t.get? (Path.parts path) with _ | ⟨_ | _⟩ | _ <;> cases asksFolder path <;> rfl
  · rw [ends]
    rw [List.nil_append] at none_
    rw [none_]
    rfl

omit filled in
/-- Where a file stands in the way, writing fails and changes nothing. -/
theorem writeText_shut (text : Text) (shut : ¬ t.Open (way path)) :
    t.writeText path text = (t, .error (refusal (t.file? (way path)))) := by
  obtain ⟨place, above, file⟩ := exists_file_of_not_open shut
  have differ : [] ≠ place := by
    rintro rfl
    exact file rfl
  have down : ['.', '.'] ∉ way path := fun mem => straight (List.dropLast_subset _ mem)
  have made := makeFolders_shut rooted down List.nil_prefix differ above file
  have cause : (if place = [] ++ way path then FileError.isFile else .notFolder) =
      refusal (t.file? (way path)) := by
    rw [List.nil_append, refusal]
    by_cases same : place = way path
    · rw [if_pos same, ← same, if_pos (Option.isSome_iff_ne_none.2 file)]
    · rw [if_neg same, if_neg]
      intro there
      apply same
      obtain ⟨c, here⟩ := get?_of_file? (Option.isSome_iff_ne_none.1 there)
      exact rooted.not_above_file above (by rw [here]; simp) file
  rw [writeText_eq, makeWay_inside relative, made, cause]

omit rooted in
/-- **Writing at the end of an open way.**  The folders on the way are there behind it; and unless
something at the end is against it, so is the text. -/
theorem writeText_open (text : Text) (open_ : t.Open (way path)) :
    (t.writeText path text).2 = verdict (t.get? (Path.parts path)) (asksFolder path) ∧
      ∀ place, (t.writeText path text).1.get? place =
        if place = Path.parts path ∧
            verdict (t.get? (Path.parts path)) (asksFolder path) = .ok () then
          some (.file (.text text))
        else if place <+: way path then some .folder else t.get? place := by
  have down : ['.', '.'] ∉ way path := fun mem => straight (List.dropLast_subset _ mem)
  have fromRoot : t.Open ([] ++ way path) := open_
  obtain ⟨made, folders⟩ := makeFolders_open down fromRoot
  obtain ⟨t₁, made_eq⟩ : ∃ t₁, t.makeWay path = (t₁, .ok ()) :=
    ⟨_, by rw [makeWay_inside relative, ← made]⟩
  have along (place : List Text) :
      t₁.get? place = if place <+: way path then some .folder else t.get? place := by
    have own := folders place
    rw [← makeWay_inside relative, made_eq, List.nil_append] at own
    rw [own]
    by_cases root : place = []
    · subst root
      simp
    · simp [root]
  have same : t₁.get? (Path.parts path) = t.get? (Path.parts path) := by
    rw [along]
    by_cases root : Path.parts path = []
    · rw [root]
      simp
    · rw [way, if_neg (not_prefix_dropLast root)]
  have leads : t₁.place path = .ok (Path.parts path) := by
    rw [place_inside relative filled, walk_of_folders straight, List.nil_append]
    intro place _ above inside
    have onTheWay : place <+: way path := prefix_dropLast above inside
    rw [along, if_pos onTheWay]
  rw [writeText_eq, made_eq]
  dsimp only
  rw [write_of_place _ leads, same]
  cases result : verdict (t.get? (Path.parts path)) (asksFolder path) with
  | error e => exact ⟨rfl, fun place => by simpa using along place⟩
  | ok u =>
    refine ⟨rfl, fun place => ?_⟩
    have below : Path.parts path ≠ [] := by
      intro root
      rw [root, get?_root] at result
      cases result
    by_cases here : place = Path.parts path
    · subst here
      rw [if_pos ⟨rfl, rfl⟩]
      exact get?_put_self below
    · rw [if_neg (fun h => here h.1), ← along]
      exact get?_put_of_ne here

end Inside

end MdxPress.FileTree
