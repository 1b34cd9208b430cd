import MdxPress.Files.Path

/-!
# File trees

The files and folders below one folder, and what the system does with paths in it: which paths lead
somewhere, and which errors the others give.

* `FileTree.readText`, `FileTree.write` and `FileTree.makeFolders` are the operations;
* a path leads through folders only; `..` leads to the folder around a folder.
-/

namespace MdxPress

/-- The content of a file: a text, or octets that are none. -/
inductive FileContent where
  | text (t : Text)
  | octets (os : List UInt8)
  deriving DecidableEq, Repr

/-- The content with given octets. -/
def FileContent.ofOctets (os : List UInt8) : FileContent :=
  match String.fromUTF8? ⟨os.toArray⟩ with
  | some s => .text s.toList
  | none => .octets os

/-- What a name leads to. -/
inductive FileNode where
  | file (content : FileContent)
  | folder
  deriving DecidableEq, Repr

/-- Why an operation fails. -/
inductive FileError where
  | notFound
  | isFolder
  | isFile
  | notFolder
  /-- The octets of a file are no text. -/
  | noText
  deriving DecidableEq, Repr

/-- An error in the words of the system. -/
def FileError.message : FileError → Text
  | notFound => "No such file or directory (os error 2)".toList
  | isFolder => "Is a directory (os error 21)".toList
  | isFile => "File exists (os error 17)".toList
  | notFolder => "Not a directory (os error 20)".toList
  | noText => "stream did not contain valid UTF-8".toList

/-- Files and folders by their places: the names that lead there from the root of the tree.  The
root itself is a folder and not listed. -/
structure FileTree where
  nodes : List (List Text × FileNode)
  deriving DecidableEq, Repr

namespace FileTree

/-- A tree without files. -/
def empty : FileTree := ⟨[]⟩

/-- What stands at a place. -/
def get? (t : FileTree) (place : List Text) : Option FileNode :=
  if place.isEmpty then some .folder else t.nodes.lookup place

/-- Puts a node at a place. -/
def put (t : FileTree) (place : List Text) (n : FileNode) : FileTree :=
  ⟨(place, n) :: t.nodes.filter fun e => e.1 != place⟩

/-- The place that names lead to from a place on; all names but the last have to lead to folders. -/
def walk (t : FileTree) (place : List Text) : List Text → Except FileError (List Text)
  | [] => .ok place
  | name :: names =>
    match t.get? place with
    | some .folder =>
      if name = ['.', '.'] then walk t place.dropLast names else walk t (place ++ [name]) names
    | some (.file _) => .error .notFolder
    | none => .error .notFound

/-- Whether a path asks for a folder: it ends with a slash or a dot. -/
def asksFolder (path : Text) : Bool :=
  let last := (path.splitOn (· = '/')).getLast?
  last == some [] || last == some ['.']

/-- The place of a path.  Nothing lies outside the tree. -/
def place (t : FileTree) (path : Text) : Except FileError (List Text) :=
  if path.isEmpty || Path.isAbsolute path then .error .notFound else t.walk [] (Path.parts path)

/-- What a path leads to. -/
def node (t : FileTree) (path : Text) : Except FileError FileNode :=
  (t.place path).bind fun p =>
    match t.get? p with
    | some .folder => .ok .folder
    | some n => if asksFolder path then .error .notFolder else .ok n
    | none => .error .notFound

/-- Whether a path leads to a folder. -/
def isFolder (t : FileTree) (path : Text) : Bool :=
  match t.node path with
  | .ok .folder => true
  | _ => false

/-- The text of the file at a path. -/
def readText (t : FileTree) (path : Text) : Except FileError Text :=
  (t.node path).bind fun n =>
    match n with
    | .file (.text s) => .ok s
    | .file (.octets _) => .error .noText
    | .folder => .error .isFolder

/-- Writes a file at a path, in a folder that is there. -/
def write (t : FileTree) (path : Text) (content : FileContent) : Except FileError FileTree :=
  (t.place path).bind fun p =>
    match t.get? p with
    | some .folder => .error .isFolder
    | some (.file _) => if asksFolder path then .error .notFolder else .ok (t.put p (.file content))
    | none => if asksFolder path then .error .isFolder else .ok (t.put p (.file content))

/-- Makes the folders that names lead to from a place on, as far as they are missing.  The folders
made before an error stay. -/
def makeFolders (t : FileTree) (place : List Text) :
    List Text → FileTree × Except FileError Unit
  | [] => (t, .ok ())
  | name :: names =>
    let next := if name = ['.', '.'] then place.dropLast else place ++ [name]
    match t.get? next with
    | some .folder => makeFolders t next names
    | some (.file _) => (t, .error (if names.isEmpty then .isFile else .notFolder))
    | none => makeFolders (t.put next .folder) next names

/-- Writes a text at a path, and makes the folders on the way. -/
def writeText (t : FileTree) (path text : Text) : FileTree × Except FileError Unit :=
  let made : FileTree × Except FileError Unit :=
    match Path.parent? path with
    | none => (t, .ok ())
    | some p => if Path.isAbsolute p then (t, .error .notFound) else t.makeFolders [] (Path.parts p)
  match made with
  | (t, .error e) => (t, .error e)
  | (t, .ok ()) =>
    match t.write path (.text text) with
    | .ok t => (t, .ok ())
    | .error e => (t, .error e)

/-- The order of the octets of texts. -/
def precedes (a b : Text) : Bool :=
  match a, b with
  | _, [] => false
  | [], _ :: _ => true
  | c :: r, d :: s => if c = d then precedes r s else c.toNat < d.toNat

/-- The files of a tree with their paths, in the order of these. -/
def files (t : FileTree) : List (Text × FileContent) :=
  let all := t.nodes.filterMap fun (p, n) =>
    match n with
    | .file c => some (Text.joinWith ['/'] p, c)
    | .folder => none
  all.mergeSort fun a b => !precedes b.1 a.1

end FileTree
end MdxPress
