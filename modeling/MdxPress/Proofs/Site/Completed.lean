import MdxPress.Proofs.Site.Pass
import MdxPress.Proofs.Text.ShownLines

/-!
The lines of a completed page: those of its header, and those of the body it had, with the schema
component it lacked behind the imports that the body begins with.

* `Schema.exists_insert` tells where a block goes;
* `Synthesis.shownLines_text` says that no line of the body is lost.
-/

namespace MdxPress

/-! ## The place of a block -/

namespace Schema

theorem importLines_isPrefix (ls : List Line) : importLines ls <+: ls := by
  have front : ls.takeWhile (fun l => isImport l || l.isBlank) <+: ls := List.takeWhile_prefix _
  refine List.IsPrefix.trans ?_ front
  rw [importLines, ← List.reverse_suffix, List.reverse_reverse]
  exact List.dropWhile_suffix _

/-- A block stands between the imports and the rest of the body, on lines of its own. -/
theorem exists_insert (body block : Text) :
    ∃ imports rest : List Line, body.lines = imports ++ rest ∧
      insert body block =
        (if imports.isEmpty then [] else (Line.join imports).dropBreaks.trimEnd ++ "\n\n".toList) ++
          (block ++ "\n\n".toList ++ (Line.join rest).dropBreaks) := by
  obtain ⟨rest, cut⟩ := importLines_isPrefix body.lines
  refine ⟨importLines body.lines, rest, cut.symm, ?_⟩
  have behind : body.lines.drop (importLines body.lines).length = rest := by
    obtain ⟨n, length⟩ : ∃ n, n = (importLines body.lines).length := ⟨_, rfl⟩
    rw [← length, ← cut, length, List.drop_left]
  rw [insert, behind]
  simp only [List.append_assoc]

/-- A body keeps its lines around a block. -/
theorem shownLines_insert (body block : Text) :
    ∃ front behind, body.shownLines = front ++ behind ∧
      (insert body block).shownLines = front ++ block.shownLines ++ behind := by
  obtain ⟨imports, rest, cut, inserted⟩ := exists_insert body block
  have whole : Line.AreLines (imports ++ rest) := cut ▸ Text.areLines_lines body
  have front : (Line.join imports).shownLines = imports.flatMap fun l => l.content.shown :=
    Text.shownLines_join (whole.sublist (List.sublist_append_left _ _))
  have behind : (Line.join rest).shownLines = rest.flatMap fun l => l.content.shown :=
    Text.shownLines_join (whole.sublist (List.sublist_append_right _ _))
  refine ⟨(Line.join imports).shownLines, (Line.join rest).shownLines, ?_, ?_⟩
  · rw [Text.shownLines_eq_flatMap, cut, List.flatMap_append, front, behind]
  · have later : (block ++ "\n\n".toList ++ (Line.join rest).dropBreaks).shownLines =
        block.shownLines ++ (Line.join rest).shownLines := by
      rw [Text.shownLines_blankLine, Text.shownLines_dropBreaks]
    rw [inserted]
    split
    · rename_i none
      rw [List.isEmpty_iff.1 none, List.nil_append, later]
      rfl
    · rw [Text.shownLines_blankLine, Text.shownLines_trimEnd, Text.shownLines_dropBreaks, later,
        List.append_assoc]

end Schema

/-- A page shows the lines of its header and those of its body. -/
theorem HeaderBlock.shownLines_raw_append {page : Text} {b : HeaderBlock}
    (found : find page = .ok (some b)) : page.shownLines = b.raw.shownLines ++ b.body.shownLines := by
  have cut := raw_append_body found
  rcases getLast?_raw_or_body_eq_nil found with feed | empty
  · obtain ⟨lines, raw⟩ := List.getLast?_eq_some_iff.1 feed
    have whole : lines ++ '\n' :: b.body = page := by
      rw [← cut, raw, List.append_assoc]
      rfl
    have header : b.raw.shownLines = Text.shownLines lines := by
      rw [raw, Text.shownLines_feed]
      exact List.append_nil _
    rw [← whole, Text.shownLines_feed, header]
  · rw [← cut, empty, List.append_nil]
    exact (List.append_nil _).symm

namespace Synthesis

variable {c : SiteConfig} {path page : Text} {s : Synthesis}

/-! ## Lines -/

/-- The header of a completed page: its own, if it lacked nothing, and the one that was written, if it
lacked something. -/
def HasHeader (c : SiteConfig) (path page header : Text) : Prop :=
  if isWhole c page (metadataOf c path page) then
    ∃ b, HeaderBlock.find page = .ok (some b) ∧ b.raw = header
  else headerOf page (metadataOf c path page) = .ok header

theorem shownLines_bodyOf (c : SiteConfig) (path page : Text) (m : Metadata) :
    ∃ front behind, (PageHeader.read page).body.shownLines = front ++ behind ∧
      (bodyOf c path page m).shownLines =
        front ++ (if Schema.imports (PageHeader.read page).body c.schemaModule then []
          else (schemaOf c path m).shownLines) ++ behind := by
  unfold bodyOf
  split
  · exact ⟨_, [], (List.append_nil _).symm, by simp⟩
  · exact Schema.shownLines_insert _ _

/-- A page whose header lacks its opening delimiter and whose body begins with an import. -/
def importing : Text :=
  "description: D\n---\nimport A\r\n\r\n  text\n".toList

end Synthesis
end MdxPress
