import MdxPress.Text.Blank
import MdxPress.Text.Case

/-!
# Languages

The highlighting language of a block of code, guessed from the name of a file, from the title of a
tab, or from the code itself.  In each table the first row that applies wins.
-/

namespace MdxPress.Language

/-- The endings of file names, and the language of each. -/
def fileEndings : List (List Text × Text) :=
  [([".fbs"].map String.toList, "fbs".toList),
   ([".cpp", ".hpp"].map String.toList, "cpp".toList),
   ([".c", ".h"].map String.toList, "c".toList),
   ([".cmake"].map String.toList, "cmake".toList)]

/-- The endings of file names that are looked at last. -/
def scriptEndings : List (List Text × Text) :=
  [([".sh", ".bash"].map String.toList, "sh".toList),
   ([".py"].map String.toList, "python".toList),
   ([".js"].map String.toList, "javascript".toList),
   ([".go"].map String.toList, "go".toList)]

/-- The language of the first row with an ending of `name`. -/
def ofEnding? (rows : List (List Text × Text)) (name : Text) : Option Text :=
  (rows.find? fun row => row.1.any fun e => Text.endsWith name e).map (·.2)

/-- The language of a file, from its name. -/
def ofFile? (title : Text) : Option Text :=
  let name := Text.lower title.trim
  match ofEnding? fileEndings name with
  | some l => some l
  | none =>
    if title.contains "CMake".toList then some "cmake".toList else ofEnding? scriptEndings name

/-- Whether one of the words stands in a text. -/
def mentions (t : Text) (needles : List String) : Bool :=
  needles.any fun n => t.contains n.toList

/-- The language of a piece of code, from words that tell. -/
def ofCode? (content : Text) : Option Text :=
  let code := content.trim
  let lowered := Text.lower code
  if mentions lowered ["cmake_minimum_required", "project(", "target_link_libraries",
      "add_executable", "find_package", "fetchcontent"] then some "cmake".toList
  else if mentions code ["std::", "namespace ", "cout", "template<", "class "] then
    some "cpp".toList
  else if mentions code ["#include", "int main(", "printf(", "return 0"] then some "c".toList
  else if mentions lowered ["npm install", "yarn add", "package.json"]
      || mentions code ["curl ", "wget ", "sudo ", "./configure"]
      || code.startsWith ['$'] || code.startsWith "./".toList then some "bash".toList
  else none

/-- The words of a tab title: stretches of letters, numbers and plus signs. -/
def titleWords (t : Text) : List Text :=
  (Text.splitOn (fun c => !(Text.isLetterOrNumber c || c == '+')) t).filter fun w => !w.isEmpty

/-- Languages that a tab title may mention, each with the texts that mention it. -/
def tabWords : List (List String × String) :=
  [(["cmake"], "cmake"), (["bash", "shell"], "bash"), (["python"], "python"),
   (["javascript"], "javascript"), (["java"], "java"), (["swift"], "swift"),
   (["kotlin"], "kotlin"), (["dart"], "dart")]

/-- The language that the title of a tab stands for. -/
def ofTab? (title : Text) : Option Text :=
  let name := Text.lower title.trim
  if name = "c++".toList || name = "cpp".toList then some "cpp".toList
  else if name = ['c'] || Text.contains name "c without".toList then some "c".toList
  else
    match tabWords.find? fun row => mentions name row.1 with
    | some row => some row.2.toList
    | none =>
      if (titleWords name).contains "go".toList || Text.contains name "golang".toList then
        some "go".toList
      else none

end MdxPress.Language
