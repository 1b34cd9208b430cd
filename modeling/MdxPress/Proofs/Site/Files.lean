import MdxPress.Proofs.Files.Tree
import MdxPress.Proofs.Site.Pass
import MdxPress.Site.Files

/-!
The metadata pass over files, path by path.  A page is rewritten when the run reports it rewritten, and
nothing else is touched.

* `FileTree.SameLayout` says that two trees have the same folders, and files at the same places, so
  that every path leads to the same place in both;
* `FileSynthesis.Accounts` says what may come of one path, for the files before and behind it;
  `SiteRun.accounts_completeFile` is the step;
* `SiteRun.Tallied` says that counts and outcomes agree, and `SiteRun.Explains` that every file that
  differs was reported; both are kept by a step, and so by a run;
* `SiteRun.run_writes_reported` is the result, for every run and every path in it.

A path may occur more than once: each time it is read as the paths before it have left it.
-/

namespace MdxPress

/-! ## Trees with one layout -/

namespace FileTree

/-- Two trees have the same folders, and files at the same places. -/
structure SameLayout (t u : FileTree) : Prop where
  folder : ∀ place, t.get? place = some .folder ↔ u.get? place = some .folder
  free : ∀ place, t.get? place = none ↔ u.get? place = none

section Layout

variable {t u v : FileTree} {path page : Text}

theorem SameLayout.refl (t : FileTree) : t.SameLayout t :=
  ⟨fun _ => Iff.rfl, fun _ => Iff.rfl⟩

theorem SameLayout.trans (left : t.SameLayout u) (right : u.SameLayout v) : t.SameLayout v :=
  ⟨fun place => (left.folder place).trans (right.folder place),
    fun place => (left.free place).trans (right.free place)⟩

/-- A file stands where a file stood. -/
theorem SameLayout.exists_file (same : t.SameLayout u) {place : List Text} {c : FileContent}
    (here : t.get? place = some (.file c)) : ∃ d, u.get? place = some (.file d) := by
  cases there : u.get? place with
  | none =>
    rw [(same.free place).2 there] at here
    cases here
  | some node =>
    cases node with
    | folder =>
      rw [(same.folder place).2 there] at here
      cases here
    | file d => exact ⟨d, rfl⟩

theorem SameLayout.walk_eq (same : t.SameLayout u) (start names : List Text) :
    t.walk start names = u.walk start names := by
  induction names generalizing start with
  | nil => rfl
  | cons name names ih =>
    rw [walk, walk, ih, ih]
    cases here : t.get? start with
    | none => rw [(same.free start).1 here]
    | some node =>
      cases node with
      | folder => rw [(same.folder start).1 here]
      | file c =>
        obtain ⟨d, there⟩ := same.exists_file here
        rw [there]

/-- **Every path leads to the same place** in trees with one layout. -/
theorem SameLayout.place_eq (same : t.SameLayout u) (path : Text) : t.place path = u.place path := by
  rw [FileTree.place, FileTree.place, same.walk_eq]

theorem sameLayout_put {place : List Text} {c d : FileContent}
    (here : t.get? place = some (.file c)) : t.SameLayout (t.put place (.file d)) := by
  have below : place ≠ [] := ne_root_of_get? (by rw [here]; simp)
  have put (other : List Text) : other = place ∧ (t.put place (.file d)).get? other = some (.file d) ∨
      (t.put place (.file d)).get? other = t.get? other := by
    by_cases same : other = place
    · exact .inl ⟨same, by rw [same, get?_put_self below]⟩
    · exact .inr (get?_put_of_ne same)
  constructor
  all_goals
    intro other
    rcases put other with ⟨rfl, new⟩ | kept
    · rw [here, new]
      simp
    · rw [kept]

/-- What is read stands in a file at the place of the path, and the path asks for no folder. -/
theorem exists_of_readText (read : t.readText path = .ok page) :
    ∃ place, t.place path = .ok place ∧ t.get? place = some (.file (.text page)) := by
  rw [readText, node] at read
  cases leads : t.place path with
  | error e =>
    rw [leads] at read
    cases read
  | ok place =>
    rw [leads] at read
    refine ⟨place, rfl, ?_⟩
    cases here : t.get? place with
    | none => simp [Except.bind, here] at read
    | some found =>
      cases found with
      | folder => simp [Except.bind, here] at read
      | file c =>
        cases asks : asksFolder path with
        | true => simp [Except.bind, here, asks] at read
        | false =>
          cases c with
          | octets os => simp [Except.bind, here, asks] at read
          | text s => simpa [Except.bind, here, asks] using read

/-- **A page that was read is overwritten in its place**, or writing fails. -/
theorem write_of_readText (read : t.readText path = .ok page) (new : Text) :
    (∃ e, t.write path (.text new) = .error e) ∨
      ∃ place, t.place path = .ok place ∧ t.write path (.text new) = .ok (t.put place (.file (.text new))) ∧
        (t.put place (.file (.text new))).readText path = .ok new ∧
        (t.put place (.file (.text new))).get? place = some (.file (.text new)) ∧
        t.SameLayout (t.put place (.file (.text new))) := by
  obtain ⟨place, leads, here⟩ := exists_of_readText read
  rcases write_cases t path (.text new) with fails | ⟨place', leads', free, plain, written⟩
  · exact .inl fails
  · obtain rfl : place = place' := Except.ok.inj (leads.symm.trans leads')
    exact .inr ⟨place, leads, written, readText_put leads free plain,
      get?_put_self (ne_root_of_get? free), sameLayout_put here⟩

end Layout
end FileTree

/-! ## One path -/

/-- A page that was completed is updated exactly when its text is another. -/
theorem Synthesis.isUpdated_eq {c : SiteConfig} {path page : Text} {s : Synthesis}
    (completed : (ofPage c path page).2 = .ok s) : s.isUpdated = (s.text != page) := by
  rcases ofPage_cases completed with ⟨-, left⟩ | ⟨-, head, -, rfl⟩
  · rw [left.isUpdated, left.text]
    simp
  · rfl

/-- What may come of a path when the run finds the files `t` there and leaves `t'`.  A failure to read,
to write the header anew or to write the file leaves the tree as it was, and so does a page that is
completed as it stands.  A page that is rewritten holds the completed text of what was read, and all
else in the tree is as before. -/
def FileSynthesis.Accounts (c : SiteConfig) (path : Text) (t t' : FileTree) :
    Except SynthesisFailure Bool → Prop
  | .error e =>
    t' = t ∧
      ((∃ cause, t.readText path = .error cause ∧ e = .file (.read path cause)) ∨
        (∃ page cause, t.readText path = .ok page ∧ (Synthesis.ofPage c path page).2 = .error cause ∧
          e = .render path cause) ∨
        ∃ page s cause, t.readText path = .ok page ∧ (Synthesis.ofPage c path page).2 = .ok s ∧
          s.text ≠ page ∧ t.write path (.text s.text) = .error cause ∧ e = .file (.write path cause))
  | .ok false =>
    t' = t ∧ ∃ page s, t.readText path = .ok page ∧ (Synthesis.ofPage c path page).2 = .ok s ∧
      s.text = page
  | .ok true =>
    ∃ page s place, t.readText path = .ok page ∧ (Synthesis.ofPage c path page).2 = .ok s ∧
      s.text ≠ page ∧ t.place path = .ok place ∧ t'.readText path = .ok s.text ∧
      t'.get? place = some (.file (.text s.text)) ∧ ∀ other, other ≠ place → t'.get? other = t.get? other

namespace SiteRun

/-- **One path**, whatever the files it finds. -/
theorem accounts_completeFile (c : SiteConfig) (t : FileTree) (path : Text) :
    FileSynthesis.Accounts c path t (completeFile c t path).1 (completeFile c t path).2.2 ∧
      t.SameLayout (completeFile c t path).1 := by
  unfold completeFile
  cases read : t.readText path with
  | error cause => exact ⟨⟨rfl, .inl ⟨cause, read, rfl⟩⟩, .refl t⟩
  | ok page =>
    dsimp only
    cases pass : Synthesis.ofPage c path page with
    | mk log result =>
      cases result with
      | error cause => exact ⟨⟨rfl, .inr (.inl ⟨page, cause, read, by rw [pass], rfl⟩)⟩, .refl t⟩
      | ok s =>
        have completed : (Synthesis.ofPage c path page).2 = .ok s := by rw [pass]
        have differs := Synthesis.isUpdated_eq completed
        dsimp only
        cases updated : s.isUpdated with
        | false =>
          rw [updated] at differs
          simp only [Bool.false_eq_true, if_false]
          exact ⟨⟨rfl, page, s, read, completed, by simpa using differs.symm⟩, .refl t⟩
        | true =>
          rw [updated] at differs
          have new : s.text ≠ page := by simpa using differs.symm
          simp only [if_true]
          rcases FileTree.write_of_readText read s.text with
            ⟨cause, fails⟩ | ⟨place, leads, written, reads, here, layout⟩
          · rw [fails]
            exact ⟨⟨rfl, .inr (.inr ⟨page, s, cause, read, completed, new, fails, rfl⟩)⟩, .refl t⟩
          · rw [written]
            exact ⟨⟨page, s, place, read, completed, new, leads, reads, here,
              fun other differ => FileTree.get?_put_of_ne differ⟩, layout⟩

/-! ## The counts -/

end SiteRun

/-- Whether a page was rewritten. -/
def FileSynthesis.isUpdate (f : FileSynthesis) : Bool :=
  match f.result with
  | .ok updated => updated
  | .error _ => false

/-- Whether a page stayed as it was. -/
def FileSynthesis.isUnchanged (f : FileSynthesis) : Bool :=
  match f.result with
  | .ok updated => !updated
  | .error _ => false

/-- Whether a page could not be completed. -/
def FileSynthesis.isFailure (f : FileSynthesis) : Bool :=
  match f.result with
  | .ok _ => false
  | .error _ => true

/-- An outcome is of one of three kinds. -/
theorem FileSynthesis.countP_kinds (fs : List FileSynthesis) :
    fs.countP isUpdate + fs.countP isUnchanged + fs.countP isFailure = fs.length := by
  induction fs with
  | nil => rfl
  | cons f fs ih =>
    have one : (if f.isUpdate then 1 else 0) + (if f.isUnchanged then 1 else 0) +
        (if f.isFailure then 1 else 0) = 1 := by
      unfold isUpdate isUnchanged isFailure
      rcases f.result with _ | _ | _ <;> rfl
    rw [List.countP_cons, List.countP_cons, List.countP_cons, List.length_cons, ← ih]
    omega

namespace SiteRun

/-- The counts of a run on its way agree with its outcomes. -/
structure Tallied (r : SiteRun) : Prop where
  updated : r.updated = r.outcomes.countP FileSynthesis.isUpdate
  unchanged : r.unchanged = r.outcomes.countP FileSynthesis.isUnchanged
  failed : r.failed = r.outcomes.countP FileSynthesis.isFailure

variable {c : SiteConfig}

theorem tree_step (r : SiteRun) (path : Text) :
    (step c r path).tree = (completeFile c r.tree path).1 := by
  unfold step
  dsimp only
  split <;> rfl

theorem outcomes_step (r : SiteRun) (path : Text) :
    (step c r path).outcomes = r.outcomes ++ [⟨path, (completeFile c r.tree path).2.2⟩] := by
  unfold step
  dsimp only
  split <;> rfl

/-- A path is counted once, as what came of it. -/
theorem tallied_step {r : SiteRun} (tallied : r.Tallied) (path : Text) : (step c r path).Tallied := by
  obtain ⟨updated, unchanged, failed⟩ := tallied
  cases result : (completeFile c r.tree path).2.2 with
  | error e =>
    constructor <;> simp [step, result, updated, unchanged, failed, FileSynthesis.isUpdate,
      FileSynthesis.isUnchanged, FileSynthesis.isFailure]
  | ok changed =>
    cases changed <;> constructor <;> simp [step, result, updated, unchanged, failed,
      FileSynthesis.isUpdate, FileSynthesis.isUnchanged, FileSynthesis.isFailure]

/-! ## Files that differ -/

/-- A run on its way from the files `t` has kept the layout, and every file that differs is reported:
an entry that leads to it is an update. -/
structure Explains (t : FileTree) (r : SiteRun) : Prop where
  layout : t.SameLayout r.tree
  reported : ∀ place, r.tree.get? place ≠ t.get? place →
    ∃ f ∈ r.outcomes, f.result = .ok true ∧ t.place f.path = .ok place

theorem explains_step {t : FileTree} {r : SiteRun} (explains : r.Explains t) (path : Text) :
    (step c r path).Explains t := by
  obtain ⟨layout, reported⟩ := explains
  obtain ⟨accounts, kept⟩ := accounts_completeFile c r.tree path
  refine ⟨by rw [tree_step]; exact layout.trans kept, fun place differs => ?_⟩
  rw [tree_step] at differs
  rw [outcomes_step]
  -- What differed before was reported before; only an update changes anything more.
  have earlier (same : (completeFile c r.tree path).1.get? place = r.tree.get? place) :
      ∃ f : FileSynthesis, f ∈ r.outcomes ++ [⟨path, (completeFile c r.tree path).2.2⟩] ∧
        f.result = .ok true ∧ t.place f.path = .ok place := by
    obtain ⟨f, mem, update⟩ := reported place (same ▸ differs)
    exact ⟨f, List.mem_append_left _ mem, update⟩
  cases result : (completeFile c r.tree path).2.2 with
  | error e =>
    rw [result] at accounts earlier
    exact earlier (by rw [accounts.1])
  | ok changed =>
    rw [result] at accounts earlier
    cases changed with
    | false => exact earlier (by rw [accounts.1])
    | true =>
      obtain ⟨page, s, here, -, -, -, leads, -, -, others⟩ := accounts
      by_cases same : place = here
      · refine ⟨⟨path, .ok true⟩, List.mem_append_right _ (.head _), rfl, ?_⟩
        rw [same, layout.place_eq]
        exact leads
      · exact earlier (others place same)

/-! ## The run -/

/-- What a step keeps, a run keeps. -/
theorem run_induction {P : SiteRun → Prop} (t : FileTree) (begins : P (start t))
    (kept : ∀ r path, P r → P (step c r path)) (paths : List Text) : P (run c t paths) := by
  have goesOn : ∀ r, P r → P (paths.foldl (step c) r) := by
    induction paths with
    | nil => exact fun _ now => now
    | cons path paths ih => exact fun r now => ih _ (kept r path now)
  exact goesOn _ begins

theorem run_append (t : FileTree) (before behind : List Text) :
    run c t (before ++ behind) = behind.foldl (step c) (run c t before) :=
  List.foldl_append

/-- A run only adds outcomes, one for each path. -/
theorem exists_outcomes (r : SiteRun) (paths : List Text) :
    ∃ more, (paths.foldl (step c) r).outcomes = r.outcomes ++ more ∧ more.map (·.path) = paths := by
  induction paths generalizing r with
  | nil => exact ⟨[], (List.append_nil _).symm, rfl⟩
  | cons path paths ih =>
    obtain ⟨more, same, names⟩ := ih (step c r path)
    refine ⟨⟨path, (completeFile c r.tree path).2.2⟩ :: more, ?_, by rw [List.map_cons, names]⟩
    rw [List.foldl_cons, same, outcomes_step, List.append_assoc]
    rfl

theorem map_path_outcomes (t : FileTree) (paths : List Text) :
    (run c t paths).outcomes.map (·.path) = paths := by
  obtain ⟨more, same, names⟩ := exists_outcomes (c := c) (start t) paths
  rw [run, same]
  exact names

theorem length_outcomes (t : FileTree) (paths : List Text) :
    (run c t paths).outcomes.length = paths.length := by
  have names := congrArg List.length (map_path_outcomes (c := c) t paths)
  rwa [List.length_map] at names

/-- What a run over the files `t` reports: an outcome for each path in their order, counts that agree
with the outcomes and make up the number of paths, and an update for every place that differs. -/
structure Reports (r : SiteRun) (t : FileTree) (paths : List Text) : Prop where
  names : r.outcomes.map (·.path) = paths
  updated : r.updated = r.outcomes.countP FileSynthesis.isUpdate
  unchanged : r.unchanged = r.outcomes.countP FileSynthesis.isUnchanged
  failed : r.failed = r.outcomes.countP FileSynthesis.isFailure
  all : r.updated + r.unchanged + r.failed = paths.length
  changes : ∀ place, r.tree.get? place ≠ t.get? place →
    ∃ f ∈ r.outcomes, f.result = .ok true ∧ t.place f.path = .ok place

theorem reports_run (c : SiteConfig) (t : FileTree) (paths : List Text) :
    (run c t paths).Reports t paths := by
  have tallied : (run c t paths).Tallied :=
    run_induction (P := Tallied) t ⟨rfl, rfl, rfl⟩ (fun _ path now => tallied_step now path) paths
  have explains : (run c t paths).Explains t :=
    run_induction (P := Explains t) t ⟨.refl t, fun _ differs => (differs rfl).elim⟩
      (fun _ path now => explains_step now path) paths
  refine ⟨map_path_outcomes t paths, tallied.updated, tallied.unchanged, tallied.failed, ?_,
    explains.reported⟩
  rw [tallied.updated, tallied.unchanged, tallied.failed, FileSynthesis.countP_kinds, length_outcomes]

end SiteRun
end MdxPress
