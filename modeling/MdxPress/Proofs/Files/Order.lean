import MdxPress.Proofs.Files.Batch
import MdxPress.Proofs.Files.Patch

/-!
The jobs of a batch in another order.

* `Job.Spares` says that the output of a job is apart from both paths of another;
* `Batch.exists_patch_convertFile` tells what a job changes, wherever it finds the same along its
  paths;
* `Batch.convertFile_comm` is the step: two jobs that spare each other may change places;
* `Batch.run_perm` is the result for all orders of a batch.

A job may well write to its own source: only the paths of other jobs matter.
-/

namespace MdxPress

/-- Both paths of a job go down only. -/
def Job.Straight (j : Job) : Prop :=
  Path.Straight j.source ∧ Path.Straight j.output

instance (j : Job) : Decidable j.Straight :=
  inferInstanceAs (Decidable (_ ∧ _))

/-- The output of a job is apart from both paths of another. -/
def Job.Spares (j k : Job) : Prop :=
  Path.Apart j.output k.source ∧ Path.Apart j.output k.output

instance (j k : Job) : Decidable (j.Spares k) :=
  inferInstanceAs (Decidable (_ ∧ _))

namespace Batch

open FileTree

variable {o : Options} {t u : FileTree} {j k : Job} {js ks : List Job}

/-! ## One job -/

theorem convertFile_of_unread {e : FileError} (read : t.readText j.source = .error e) :
    convertFile o t j = (t, [], .error (.read j.source e)) := by
  rw [convertFile, read]

theorem convertFile_of_read {page : Text} (read : t.readText j.source = .ok page) :
    convertFile o t j =
      ((t.writeText j.output (convertPage o j.source page).text).1,
        (convertPage o j.source page).fullLog,
        match (t.writeText j.output (convertPage o j.source page).text).2 with
        | .error e => .error (.write j.output e)
        | .ok () => .ok ⟨j.output, (convertPage o j.source page).report,
            (convertPage o j.source page).diagnostics⟩) := by
  rw [convertFile, read]
  dsimp only
  rcases t.writeText j.output (convertPage o j.source page).text with ⟨t', e | _⟩ <;> rfl

/-- **What a job changes**: one patch at its output, and one result, in all trees that look the same
along its source and its output. -/
theorem exists_patch_convertFile (o : Options) (rooted : t.Rooted) (straight : j.Straight) :
    ∃ p : Patch, p.Fits t j.output ∧ ∀ u : FileTree, u.Rooted →
      t.Alike u j.source → t.Alike u j.output →
        (convertFile o u j).2 = (convertFile o t j).2 ∧ p.Leads u (convertFile o u j).1 := by
  cases read : t.readText j.source with
  | error e =>
    refine ⟨.nothing, Patch.fits_nothing t j.output, fun u rooted' source _ => ?_⟩
    have read' := (readText_congr straight.1 rooted rooted' source).symm.trans read
    rw [convertFile_of_unread read, convertFile_of_unread read']
    exact ⟨rfl, fun _ => rfl⟩
  | ok page =>
    obtain ⟨p, fits, writes⟩ :=
      exists_patch rooted straight.2 (convertPage o j.source page).text
    refine ⟨p, fits, fun u rooted' source output => ?_⟩
    have read' := (readText_congr straight.1 rooted rooted' source).symm.trans read
    obtain ⟨result, leads⟩ := writes u rooted' output
    rw [convertFile_of_read read, convertFile_of_read read', result]
    exact ⟨rfl, leads⟩

/-- A job keeps everything in a folder. -/
theorem rooted_convertFile (o : Options) (rooted : t.Rooted) (straight : j.Straight) :
    (convertFile o t j).1.Rooted := by
  obtain ⟨p, fits, changes⟩ := exists_patch_convertFile o rooted straight
  have own := alike_of_get? (t := t) (u := t) (fun _ => rfl)
  exact fits.rooted (changes t rooted (own _) (own _)).2 rooted

/-- A job does the same in trees that have the same everywhere. -/
theorem convertFile_congr (o : Options) (rooted : t.Rooted) (straight : j.Straight)
    (same : ∀ place, t.get? place = u.get? place) :
    (convertFile o t j).2 = (convertFile o u j).2 ∧
      ∀ place, (convertFile o t j).1.get? place = (convertFile o u j).1.get? place := by
  obtain ⟨p, fits, changes⟩ := exists_patch_convertFile o rooted straight
  have own := alike_of_get? (t := t) (u := t) (fun _ => rfl)
  have other := alike_of_get? same
  have rooted' : u.Rooted := by
    intro place name there
    rw [← same] at there ⊢
    exact rooted place name there
  obtain ⟨result, leads⟩ := changes u rooted' (other _) (other _)
  refine ⟨result.symm, fun place => ?_⟩
  rw [(changes t rooted (own _) (own _)).2, leads, same]

/-! ## Two jobs -/

/-- **Two jobs that spare each other may change places.** -/
theorem convertFile_comm (o : Options) (rooted : t.Rooted) (straight : j.Straight)
    (straight' : k.Straight) (spares : j.Spares k) (spares' : k.Spares j) :
    (convertFile o (convertFile o t j).1 k).2 = (convertFile o t k).2 ∧
      (convertFile o (convertFile o t k).1 j).2 = (convertFile o t j).2 ∧
      ∀ place, (convertFile o (convertFile o t j).1 k).1.get? place =
        (convertFile o (convertFile o t k).1 j).1.get? place := by
  obtain ⟨p, fits, changes⟩ := exists_patch_convertFile o rooted straight
  obtain ⟨q, fits', changes'⟩ := exists_patch_convertFile o rooted straight'
  have own := alike_of_get? (t := t) (u := t) (fun _ => rfl)
  have first := (changes t rooted (own _) (own _)).2
  have first' := (changes' t rooted (own _) (own _)).2
  obtain ⟨result', second⟩ := changes' _ (fits.rooted first rooted)
    (fits.alike first spares.1) (fits.alike first spares.2)
  obtain ⟨result, second'⟩ := changes _ (fits'.rooted first' rooted)
    (fits'.alike first' spares'.1) (fits'.alike first' spares'.2)
  exact ⟨result', result, fits.comm fits' spares.2 first second first' second'⟩

/-! ## All jobs -/

theorem run_congr (o : Options) (rooted : t.Rooted) (straight : ∀ j ∈ js, j.Straight)
    (same : ∀ place, t.get? place = u.get? place) :
    outcomesOf o t js = outcomesOf o u js ∧
      ∀ place, (treeBehind o t js).get? place = (treeBehind o u js).get? place := by
  induction js generalizing t u with
  | nil => exact ⟨rfl, same⟩
  | cons j js ih =>
    obtain ⟨result, same'⟩ := convertFile_congr o rooted (straight j (.head _)) same
    obtain ⟨outcomes, trees⟩ := ih (rooted_convertFile o rooted (straight j (.head _)))
      (fun k mem => straight k (.tail _ mem)) same'
    exact ⟨by rw [outcomesOf, outcomesOf, outcomes, result], trees⟩

/-- The step of `run_perm`, for two jobs that are run one after the other. -/
theorem outcomesOf_swap (o : Options) (rooted : t.Rooted) (straight : ∀ i ∈ j :: k :: js, i.Straight)
    (apart : j ≠ k → j.Spares k ∧ k.Spares j) :
    ((j :: k :: js).zip (outcomesOf o t (j :: k :: js))).Perm
        ((k :: j :: js).zip (outcomesOf o t (k :: j :: js))) ∧
      ∀ place, (treeBehind o t (j :: k :: js)).get? place =
        (treeBehind o t (k :: j :: js)).get? place := by
  by_cases differ : j = k
  · subst differ
    exact ⟨.refl _, fun _ => rfl⟩
  · have one := straight j (.head _)
    have two := straight k (.tail _ (.head _))
    obtain ⟨spares, spares'⟩ := apart differ
    obtain ⟨result', result, trees⟩ := convertFile_comm o rooted one two spares spares'
    obtain ⟨outcomes, behind⟩ := run_congr o
      (rooted_convertFile o (rooted_convertFile o rooted one) two)
      (fun i mem => straight i (.tail _ (.tail _ mem))) trees
    refine ⟨?_, behind⟩
    simp only [outcomesOf, List.zip_cons_cons]
    rw [result, result', outcomes]
    exact .swap _ _ _

theorem outcomesOf_perm (o : Options) (rooted : t.Rooted) (straight : ∀ j ∈ js, j.Straight)
    (apart : ∀ j ∈ js, ∀ k ∈ js, j ≠ k → j.Spares k) (perm : js.Perm ks) :
    (js.zip (outcomesOf o t js)).Perm (ks.zip (outcomesOf o t ks)) ∧
      ∀ place, (treeBehind o t js).get? place = (treeBehind o t ks).get? place := by
  induction perm generalizing t with
  | nil => exact ⟨.nil, fun _ => rfl⟩
  | cons j _ ih =>
    obtain ⟨outcomes, trees⟩ := ih (rooted_convertFile o rooted (straight j (.head _)))
      (fun k mem => straight k (.tail _ mem))
      (fun i mem k mem' => apart i (.tail _ mem) k (.tail _ mem'))
    exact ⟨outcomes.cons _, trees⟩
  | swap j k js =>
    apply outcomesOf_swap o rooted straight
    intro differ
    have mem : j ∈ k :: j :: js := .tail _ (.head _)
    exact ⟨apart k (.head _) j mem differ, apart j mem k (.head _) differ.symm⟩
  | trans first _ ih ih' =>
    obtain ⟨outcomes, trees⟩ := ih rooted straight apart
    obtain ⟨outcomes', trees'⟩ := ih' rooted
      (fun j mem => straight j (first.mem_iff.2 mem))
      (fun j mem k mem' => apart j (first.mem_iff.2 mem) k (first.mem_iff.2 mem'))
    exact ⟨outcomes.trans outcomes', fun place => (trees place).trans (trees' place)⟩

/-- Two pages in a tree without folders. -/
def twoPages : FileTree :=
  ⟨[(["a.md".toList], .file (.text "A".toList)), (["b.md".toList], .file (.text "B".toList))]⟩

/-- Two jobs that make one folder between them, and a third that finds no page. -/
def sharedFolder : List Job :=
  [⟨"a.md".toList, "out/a.md".toList⟩, ⟨"b.md".toList, "./out//b.md".toList⟩,
    ⟨"c.md".toList, "new/c.md".toList⟩]

end Batch
end MdxPress
