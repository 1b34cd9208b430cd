import MdxPress.Files.Tree

/-!
What the operations on a file tree leave as it was.

* `FileTree.file?` is what counts for a reader: the content at a place, folders aside;
* `FileTree.file?_makeFolders` says that making folders touches no file;
* `FileTree.writeText_cases` is all that writing a text can do: the text stands at the place of the
  path and every other file is as before, or there is an error and every file is as before.
-/

namespace MdxPress.FileTree

/-- The content of the file at a place; none, where no file stands. -/
def file? (t : FileTree) (place : List Text) : Option FileContent :=
  match t.get? place with
  | some (.file c) => some c
  | _ => none

section Places

variable {t : FileTree} {place other : List Text} {n : FileNode}

@[simp]
theorem get?_root (t : FileTree) : t.get? [] = some .folder := rfl

theorem lookup_filter_place (differ : other ≠ place) (nodes : List (List Text × FileNode)) :
    (nodes.filter fun e => e.1 != place).lookup other = nodes.lookup other := by
  induction nodes with
  | nil => rfl
  | cons e nodes ih =>
    rw [List.filter_cons]
    split
    case isTrue => rw [List.lookup_cons, List.lookup_cons, ih]
    case isFalse same =>
      have here : e.1 = place := by simpa using same
      rw [ih, List.lookup_cons, here, beq_false_of_ne differ]

theorem get?_put_self (below : place ≠ []) : (t.put place n).get? place = some n := by
  rw [get?, if_neg (by simpa using below), put, List.lookup_cons_self]

theorem get?_put_of_ne (differ : other ≠ place) : (t.put place n).get? other = t.get? other := by
  unfold get?
  split
  case isTrue => rfl
  case isFalse =>
    rw [put, List.lookup_cons, beq_false_of_ne differ]
    exact lookup_filter_place differ t.nodes

theorem ne_root_of_get? (h : t.get? place ≠ some .folder) : place ≠ [] := by
  intro root
  apply h
  rw [root]
  rfl

theorem file?_of_get? {c : FileContent} (h : t.get? place = some (.file c)) :
    t.file? place = some c := by
  rw [file?, h]

theorem file?_put_of_ne (differ : other ≠ place) : (t.put place n).file? other = t.file? other := by
  rw [file?, file?, get?_put_of_ne differ]

theorem file?_put_folder (free : t.get? place = none) (other : List Text) :
    (t.put place .folder).file? other = t.file? other := by
  by_cases same : other = place
  · subst same
    have below := ne_root_of_get? (t := t) (by rw [free]; simp)
    rw [file?, file?, get?_put_self below, free]
  · exact file?_put_of_ne same

end Places

/-! ## Folders -/

/-- Making folders touches no file, whether it succeeds or not. -/
theorem file?_makeFolders (t : FileTree) (place names other : List Text) :
    (t.makeFolders place names).1.file? other = t.file? other := by
  induction names generalizing t place with
  | nil => rfl
  | cons name names ih =>
    rw [makeFolders]
    split
    case h_1 => exact ih _ _
    case h_2 => rfl
    case h_3 free => rw [ih, file?_put_folder free]

/-! ## Places of paths -/

/-- A node put at a place that is no folder does not stand in the way of that place. -/
theorem walk_put {t : FileTree} {start place names : List Text} {n : FileNode}
    (leads : t.walk start names = .ok place) (free : t.get? place ≠ some .folder) :
    (t.put place n).walk start names = .ok place := by
  induction names generalizing start with
  | nil => exact leads
  | cons name names ih =>
    rw [walk] at leads
    cases here : t.get? start with
    | none => rw [here] at leads; cases leads
    | some node =>
      cases node with
      | file c => rw [here] at leads; cases leads
      | folder =>
        have differ : start ≠ place := by
          intro same
          apply free
          rw [← same, here]
        rw [here] at leads
        rw [walk, get?_put_of_ne differ, here]
        by_cases up : name = ['.', '.']
        · simp only [up, if_true] at leads ⊢
          exact ih leads
        · simp only [up, if_false] at leads ⊢
          exact ih leads

theorem place_put {t : FileTree} {path : Text} {place : List Text} {n : FileNode}
    (leads : t.place path = .ok place) (free : t.get? place ≠ some .folder) :
    (t.put place n).place path = .ok place := by
  unfold FileTree.place at leads ⊢
  split at leads
  · cases leads
  · rename_i inside
    rw [if_neg inside]
    exact walk_put leads free

/-- A text that was put at the place of a path is read there. -/
theorem readText_put {t : FileTree} {path text : Text} {place : List Text}
    (leads : t.place path = .ok place) (free : t.get? place ≠ some .folder)
    (noFolder : asksFolder path = false) :
    (t.put place (.file (.text text))).readText path = .ok text := by
  have below := ne_root_of_get? free
  have there := place_put (n := .file (.text text)) leads free
  have here : (t.put place (.file (.text text))).get? place = some (.file (.text text)) :=
    get?_put_self below
  rw [readText, node, there]
  simp only [Except.bind, here, noFolder, Bool.false_eq_true, if_false]

/-! ## Writing -/

/-- Writing a file where a folder is asked for, or where one stands, is an error; else the content is
put at the place of the path. -/
theorem write_cases (t : FileTree) (path : Text) (content : FileContent) :
    (∃ e, t.write path content = .error e) ∨
      ∃ place, t.place path = .ok place ∧ t.get? place ≠ some .folder ∧
        asksFolder path = false ∧ t.write path content = .ok (t.put place (.file content)) := by
  cases leads : t.place path with
  | error e => exact .inl ⟨e, by rw [write, leads]; rfl⟩
  | ok place =>
    cases asks : asksFolder path with
    | true =>
      left
      cases here : t.get? place with
      | none => exact ⟨_, by rw [write, leads]; simp [Except.bind, here, asks]; rfl⟩
      | some node =>
        cases node with
        | folder => exact ⟨_, by rw [write, leads]; simp [Except.bind, here]; rfl⟩
        | file c => exact ⟨_, by rw [write, leads]; simp [Except.bind, here, asks]; rfl⟩
    | false =>
      cases here : t.get? place with
      | none =>
        exact .inr ⟨place, rfl, by rw [here]; simp, rfl, by
          rw [write, leads]; simp [Except.bind, here, asks]⟩
      | some node =>
        cases node with
        | folder => exact .inl ⟨_, by rw [write, leads]; simp [Except.bind, here]; rfl⟩
        | file c =>
          exact .inr ⟨place, rfl, by rw [here]; simp, rfl, by
            rw [write, leads]; simp [Except.bind, here, asks]⟩

/-- The folders on the way to a path, made before a text is written there. -/
def makeWay (t : FileTree) (path : Text) : FileTree × Except FileError Unit :=
  match Path.parent? path with
  | none => (t, .ok ())
  | some p => if Path.isAbsolute p then (t, .error .notFound) else t.makeFolders [] (Path.parts p)

theorem writeText_eq (t : FileTree) (path text : Text) :
    t.writeText path text =
      match t.makeWay path with
      | (t, .error e) => (t, .error e)
      | (t, .ok ()) =>
        match t.write path (.text text) with
        | .ok t => (t, .ok ())
        | .error e => (t, .error e) := rfl

theorem file?_makeWay (t : FileTree) (path : Text) (other : List Text) :
    (t.makeWay path).1.file? other = t.file? other := by
  unfold makeWay
  split
  · rfl
  · split
    · rfl
    · exact file?_makeFolders t [] _ other

/-- **All that writing a text can do.**  It fails and touches no file, or the text is read at the
path from then on, and no file at another place is touched. -/
theorem writeText_cases (t : FileTree) (path text : Text) :
    (∃ t' e, t.writeText path text = (t', .error e) ∧ ∀ other, t'.file? other = t.file? other) ∨
      ∃ t' place, t.writeText path text = (t', .ok ()) ∧ t'.readText path = .ok text ∧
        t'.place path = .ok place ∧ t'.file? place = some (.text text) ∧
        ∀ other, other ≠ place → t'.file? other = t.file? other := by
  have way := file?_makeWay t path
  rw [writeText_eq]
  cases made : t.makeWay path with
  | mk t₁ result =>
    rw [made] at way
    cases result with
    | error e => exact .inl ⟨t₁, e, rfl, way⟩
    | ok u =>
      dsimp only
      rcases write_cases t₁ path (.text text) with ⟨e, fails⟩ | ⟨place, leads, free, plain, written⟩
      · rw [fails]
        exact .inl ⟨t₁, e, rfl, way⟩
      · rw [written]
        refine .inr ⟨_, place, rfl, readText_put leads free plain, place_put leads free,
          file?_of_get? (get?_put_self (ne_root_of_get? free)), ?_⟩
        intro other differ
        rw [file?_put_of_ne differ]
        exact way other

end MdxPress.FileTree
