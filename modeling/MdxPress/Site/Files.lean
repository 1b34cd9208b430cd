import MdxPress.Files.Batch
import MdxPress.Site.Synthesis

/-!
# Files of a site

The metadata pass over files, and the settings in a file.  A page that stays as it is is not
written, and a page that fails does not stop the others.

* `SiteRun.run` completes the pages at paths;
* `SiteConfig.load` reads the settings of a site.
-/

namespace MdxPress

/-- Why a file could not be completed. -/
inductive SynthesisFailure where
  | file (cause : FileFailure)
  /-- The entries of the header cannot be written. -/
  | render (path : Text) (cause : Yaml.Error)
  deriving DecidableEq, Repr

/-- A failure in words. -/
def SynthesisFailure.message : SynthesisFailure → Text
  | file e => e.message
  | render p e => "failed to render header for ".toList ++ p ++ ": ".toList ++ e.message

/-- What became of a file: whether it was rewritten, or why it could not be completed. -/
structure FileSynthesis where
  path : Text
  result : Except SynthesisFailure Bool

/-- A run over files: the files, what became of the pages so far, the counts, and the log. -/
structure SiteRun where
  tree : FileTree
  outcomes : List FileSynthesis
  /-- The pages rewritten so far. -/
  updated : Nat
  /-- The pages so far that stayed as they were. -/
  unchanged : Nat
  /-- The pages so far that could not be completed. -/
  failed : Nat
  log : List LogEntry

namespace SiteRun

/-- Completes the page at a path. -/
def completeFile (c : SiteConfig) (tree : FileTree) (path : Text) :
    FileTree × List LogEntry × Except SynthesisFailure Bool :=
  match tree.readText path with
  | .error e => (tree, [], .error (.file (.read path e)))
  | .ok page =>
    match Synthesis.ofPage c path page with
    | (log, .error e) => (tree, log, .error (.render path e))
    | (log, .ok s) =>
      if s.isUpdated then
        match tree.write path (.text s.text) with
        | .ok tree => (tree, log, .ok true)
        | .error e => (tree, log, .error (.file (.write path e)))
      else (tree, log, .ok false)

/-- Completes one page more, and counts it. -/
def step (c : SiteConfig) (r : SiteRun) (path : Text) : SiteRun :=
  let (tree, log, result) := completeFile c r.tree path
  let outcomes : List FileSynthesis := r.outcomes ++ [⟨path, result⟩]
  match result with
  | .ok true =>
    { r with tree := tree, outcomes := outcomes, updated := r.updated + 1, log := r.log ++ log }
  | .ok false =>
    { r with tree := tree, outcomes := outcomes, unchanged := r.unchanged + 1, log := r.log ++ log }
  | .error e =>
    { r with
      tree := tree
      outcomes := outcomes
      failed := r.failed + 1
      log := r.log ++ log ++ [LogEntry.warning e.message] }

/-- A run before its first page. -/
def start (tree : FileTree) : SiteRun :=
  ⟨tree, [], 0, 0, 0, []⟩

/-- Completes the pages at paths. -/
def run (c : SiteConfig) (tree : FileTree) (paths : List Text) : SiteRun :=
  paths.foldl (step c) (start tree)

end SiteRun

/-- Why the settings of a site could not be read. -/
inductive ConfigError where
  | file (path : Text) (cause : FileError)
  | yaml
  | json
  /-- The name of the file tells no format that is known. -/
  | unsupportedFormat (path : Text)
  deriving DecidableEq, Repr

/-- An error in words. -/
def ConfigError.message : ConfigError → Text
  | file p e => "failed to read config ".toList ++ p ++ ": ".toList ++ e.message
  | yaml => "invalid YAML config".toList
  | json => "invalid JSON config".toList
  | unsupportedFormat p => "unsupported config format: ".toList ++ p

/-- Reads the settings in a file, whose extension tells the format. -/
def SiteConfig.load (tree : FileTree) (path : Text) : Except ConfigError SiteConfig :=
  match tree.readText path with
  | .error e => .error (.file path e)
  | .ok t =>
    let isA := fun format : String => Path.extension? path == some format.toList
    if isA "yaml" || isA "yml" then
      match SiteConfig.ofYaml? t with
      | some c => .ok c
      | none => .error .yaml
    else if isA "json" then
      match SiteConfig.ofJson? t with
      | some c => .ok c
      | none => .error .json
    else .error (.unsupportedFormat path)

end MdxPress
