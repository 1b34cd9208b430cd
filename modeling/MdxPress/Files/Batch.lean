import MdxPress.Files.Tree
import MdxPress.Page.Conversion

/-!
# Batches

Many pages converted one after another.  A page that cannot be read or written is left out, and the
others are converted all the same.

* `Batch.run` runs the jobs of a batch.
-/

namespace MdxPress

/-- A page to convert, and where the result goes. -/
structure Job where
  source : Text
  output : Text
  deriving DecidableEq, Repr

/-- Why a file could not be used. -/
inductive FileFailure where
  | read (path : Text) (cause : FileError)
  | write (path : Text) (cause : FileError)
  deriving DecidableEq, Repr

namespace FileFailure

/-- The path of the file. -/
def path : FileFailure → Text
  | read p _ | write p _ => p

/-- A failure in words. -/
def message : FileFailure → Text
  | read p e => "failed to read ".toList ++ p ++ ": ".toList ++ e.message
  | write p e => "failed to write ".toList ++ p ++ ": ".toList ++ e.message

end FileFailure

/-- What a conversion that was written has to report. -/
structure Converted where
  output : Text
  report : Report
  diagnostics : List Diagnostic
  deriving DecidableEq, Repr

/-- What became of a job. -/
structure JobOutcome where
  source : Text
  result : Except FileFailure Converted

/-- Whether a job succeeded. -/
def JobOutcome.succeeded (o : JobOutcome) : Bool :=
  match o.result with
  | .ok _ => true
  | .error _ => false

/-- A batch on its way: the files, what became of the jobs so far, the counts, and the log. -/
structure Batch where
  tree : FileTree
  outcomes : List JobOutcome
  /-- The jobs handed in. -/
  total : Nat
  /-- The jobs that succeeded so far. -/
  succeeded : Nat
  /-- The jobs that failed so far. -/
  failed : Nat
  log : List LogEntry

namespace Batch

/-- Converts one page: the files behind it, and the result. -/
def convertFile (o : Options) (tree : FileTree) (j : Job) :
    FileTree × List LogEntry × Except FileFailure Converted :=
  match tree.readText j.source with
  | .error e => (tree, [], .error (.read j.source e))
  | .ok page =>
    let c := convertPage o j.source page
    match tree.writeText j.output c.text with
    | (tree, .error e) => (tree, c.fullLog, .error (.write j.output e))
    | (tree, .ok ()) => (tree, c.fullLog, .ok ⟨j.output, c.report, c.diagnostics⟩)

/-- Runs a job, and counts it. -/
def step (o : Options) (b : Batch) (j : Job) : Batch :=
  let (tree, log, result) := convertFile o b.tree j
  let outcomes : List JobOutcome := b.outcomes ++ [⟨j.source, result⟩]
  match result with
  | .ok _ =>
    { b with tree := tree, outcomes := outcomes, succeeded := b.succeeded + 1, log := b.log ++ log }
  | .error e =>
    { b with
      tree := tree
      outcomes := outcomes
      failed := b.failed + 1
      log := b.log ++ log ++ [LogEntry.warning e.message] }

/-- The outcomes that are failures, in order. -/
def failures (b : Batch) : List JobOutcome :=
  b.outcomes.filter (!·.succeeded)

/-- The line of the log for the end of a batch. -/
def finished (b : Batch) : LogEntry :=
  .debug ("batch finished: ".toList ++ Text.ofNat b.succeeded ++ '/' ::
    Text.ofNat b.total ++ " converted".toList)

/-- A batch before its first job. -/
def start (tree : FileTree) (jobs : List Job) : Batch :=
  ⟨tree, [], jobs.length, 0, 0, []⟩

/-- Runs the jobs of a batch. -/
def run (o : Options) (tree : FileTree) (jobs : List Job) : Batch :=
  let b := jobs.foldl (step o) (start tree jobs)
  { b with log := b.log ++ [b.finished] }

end Batch
end MdxPress
