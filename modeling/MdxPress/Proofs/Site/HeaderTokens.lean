import MdxPress.Proofs.Yaml.Draft
import MdxPress.Proofs.Yaml.Entry
import MdxPress.Proofs.Yaml.Tree
import MdxPress.Site.Metadata

/-!
The tokens of a header of metadata, and the entries they make.
-/

namespace MdxPress

open Yaml

/-! ## Entries -/

namespace Yaml.Reader

/-- A key with a value between quotation marks, in front of another line at the left. -/
theorem run_quotedEntry {blocks : List Nat} (top : blocks = [] ∨ blocks = [0]) {name : Text}
    (bare : IsBare name) (short : name.length ≤ 1024) {t : Text} (kept : ∀ c ∈ t, isKept c = true)
    {r : Text} (visible : isVisible r = true) {ts : List Token}
    (runs : (stand [0] 0 true r).run = .ok ts) :
    (stand blocks 0 true (name ++ ':' :: ' ' :: (Metadata.quoted t ++ '\n' :: r))).run =
      .ok ((if blocks = [] then [Token.blockMappingStart] else []) ++
        [Token.key, .scalar true name, .value, .scalar false t] ++ ts) := by
  have value : (stand [0] (name.length + 1) false
      (' ' :: ('"' :: escaped t ++ ['"']) ++ '\n' :: (spaces 0 ++ r))).run = _ :=
    run_quoted_feed kept (by simp) (by simp) 0 visible runs
  rw [run_key top bare short rfl]
  have same : ' ' :: (Metadata.quoted t ++ '\n' :: r) =
    ' ' :: ('"' :: escaped t ++ ['"']) ++ '\n' :: (spaces 0 ++ r) := rfl
  rw [same, value]
  simp [Except.map, closing]

end Yaml.Reader

namespace Metadata

/-- A keyword as it is written. -/
def keywordText (k : Text) : Text :=
  if isBare k then k else quoted k

theorem keywordLine_eq (k : Text) : keywordLine k = "  - ".toList ++ keywordText k ++ ['\n'] := rfl

theorem isBare_iff {t : Text} : isBare t = true ↔ IsBare t := by
  rw [isBare, Bool.and_eq_true, Bool.and_eq_true, List.all_eq_true, bne_iff_ne]
  exact ⟨fun ⟨⟨first, last⟩, chars⟩ => ⟨chars, first, last⟩,
    fun ⟨chars, first, last⟩ => ⟨⟨first, last⟩, chars⟩⟩

/-- What stands behind the keywords: nothing, or lines of other entries with their tokens. -/
inductive Ends : Text → List Token → Prop
  | nil : Ends [] [.blockEnd]
  | feed {r : Text} {ts : List Token} (visible : isVisible r = true)
    (runs : (Reader.stand [0] 0 true r).run = .ok ts) : Ends ('\n' :: r) ts

theorem run_keyword_feed {k : Text} (kept : ∀ c ∈ k, isKept c = true) {n : Nat} (left : n ≤ 2)
    {r : Text} (visible : isVisible r = true) {ts : List Token}
    (runs : (Reader.stand ([2, 0].dropWhile (n < ·)) n true r).run = .ok ts) :
    (Reader.stand [2, 0] 3 true (' ' :: keywordText k ++ '\n' :: (spaces n ++ r))).run =
      .ok (.scalar (isBare k) k :: (Reader.closing [2, 0] n ++ ts)) := by
  unfold keywordText
  split
  · rename_i bare
    rw [Reader.run_plain_feed (isBare_iff.1 bare) (by simp) rfl (by decide) left visible, runs, bare]
    rfl
  · rename_i quotes
    rw [Bool.eq_false_iff.2 quotes]
    exact Reader.run_quoted_feed kept (by simp) (by decide) n visible runs

theorem run_keyword_end {k : Text} (kept : ∀ c ∈ k, isKept c = true) :
    (Reader.stand [2, 0] 3 true (' ' :: keywordText k)).run =
      .ok [.scalar (isBare k) k, .blockEnd, .blockEnd] := by
  unfold keywordText
  split
  · rename_i bare
    rw [Reader.run_plain_end (isBare_iff.1 bare) (by simp) (by decide), bare]
    rfl
  · rename_i quotes
    rw [Bool.eq_false_iff.2 quotes]
    exact Reader.run_quoted_end kept (by simp) (by decide)

/-- The keywords behind the first, each on a line of its own. -/
def keywordLines (ks : List Text) : Text :=
  ks.flatMap fun k => '\n' :: (spaces 2 ++ '-' :: ' ' :: keywordText k)

theorem keywordLines_cons (k : Text) (ks : List Text) (r : Text) :
    keywordLines (k :: ks) ++ r =
      '\n' :: (spaces 2 ++ '-' :: (' ' :: keywordText k ++ (keywordLines ks ++ r))) := by
  simp [keywordLines]

/-- The tokens of the keywords behind the first. -/
def keywordTokens (ks : List Text) : List Token :=
  ks.flatMap fun k => [.blockEntry, .scalar (isBare k) k]

/-- The keywords from the first on, with what stands behind them. -/
theorem run_keywords {k : Text} {ks : List Text} (kept : ∀ k' ∈ k :: ks, ∀ c ∈ k', isKept c = true)
    {r : Text} {ts : List Token} (ends : Ends r ts) :
    (Reader.stand [2, 0] 3 true (' ' :: keywordText k ++ (keywordLines ks ++ r))).run =
      .ok (.scalar (isBare k) k :: (keywordTokens ks ++ .blockEnd :: ts)) := by
  have first := kept k (.head _)
  induction ks generalizing k with
  | nil =>
    cases ends with
    | nil =>
      rw [keywordLines, List.flatMap_nil, List.nil_append, List.append_nil, run_keyword_end first]
      rfl
    | feed visible runs =>
      exact run_keyword_feed first (Nat.zero_le 2) visible runs
  | cons k' ks ih =>
    have later := ih (fun k'' mem => kept k'' (.tail _ mem)) (kept k' (.tail _ (.head _)))
    have dash : (Reader.stand [2, 0] 2 true
        ('-' :: (' ' :: keywordText k' ++ (keywordLines ks ++ r)))).run = _ :=
      Reader.run_dash (by decide) rfl [0]
    rw [later] at dash
    have here := run_keyword_feed first (Nat.le_refl 2) rfl dash
    rw [keywordLines_cons, here]
    simp [Reader.closing, keywordTokens]

/-! ## The header -/

/-- The entries of a header up to the keywords, without the line break behind them. -/
def headText (m : Metadata) : Text :=
  "title: ".toList ++ quoted m.title.value ++ "\ndescription: ".toList ++
    quoted m.description.value ++ "\nkeywords:".toList ++ keywordLines m.keywords.value

/-- A header entry by entry. -/
theorem headText_append {m : Metadata} {k : Text} {ks : List Text}
    (keywords : m.keywords.value = k :: ks) (r : Text) :
    headText m ++ r = "title".toList ++ ':' :: ' ' :: (quoted m.title.value ++ '\n' ::
      ("description".toList ++ ':' :: ' ' :: (quoted m.description.value ++ '\n' ::
        ("keywords".toList ++ ':' :: '\n' ::
          (spaces 2 ++ '-' :: (' ' :: keywordText k ++ (keywordLines ks ++ r))))))) := by
  have title (x : Text) : "title: ".toList ++ x = "title".toList ++ ':' :: ' ' :: x := by simp
  have description (x : Text) : "\ndescription: ".toList ++ x =
      '\n' :: ("description".toList ++ ':' :: ' ' :: x) := by simp
  have keywordsName (x : Text) : "\nkeywords:".toList ++ x =
      '\n' :: ("keywords".toList ++ ':' :: x) := by simp
  unfold headText
  simp only [keywords, List.append_assoc, List.cons_append, title, description, keywordsName,
    keywordLines_cons]

/-- The tokens of the entries of a header up to the keywords. -/
def headTokens (m : Metadata) : List Token :=
  [Token.blockMappingStart, .key, .scalar true "title".toList, .value, .scalar false m.title.value,
    .key, .scalar true "description".toList, .value, .scalar false m.description.value,
    .key, .scalar true "keywords".toList, .value, .blockSequenceStart] ++
    keywordTokens m.keywords.value ++ [Token.blockEnd]

/-- Metadata whose characters come back from a header. -/
structure IsKept (m : Metadata) : Prop where
  title : ∀ c ∈ m.title.value, isKept c = true
  description : ∀ c ∈ m.description.value, isKept c = true
  keywords : ∀ k ∈ m.keywords.value, ∀ c ∈ k, isKept c = true

theorem run_headText {m : Metadata} (kept : m.IsKept) (some_ : m.keywords.value ≠ []) {r : Text}
    {ts : List Token} (ends : Ends r ts) :
    (Reader.start (headText m ++ r)).run = .ok (headTokens m ++ ts) := by
  obtain ⟨k, ks, keywords⟩ := List.exists_cons_of_ne_nil some_
  have keptKeywords := kept.keywords
  rw [keywords] at keptKeywords
  have dash : (Reader.stand [0] 2 true
      ('-' :: (' ' :: keywordText k ++ (keywordLines ks ++ r)))).run = _ :=
    Reader.run_dash_open (by decide) rfl (by decide)
  rw [run_keywords keptKeywords ends] at dash
  have title : IsBare "title".toList := isBare_iff.1 (by decide)
  have description : IsBare "description".toList := isBare_iff.1 (by decide)
  have keywordsName : IsBare "keywords".toList := isBare_iff.1 (by decide)
  have third : (Reader.stand [0] 0 true ("keywords".toList ++ ':' :: '\n' ::
      (spaces 2 ++ '-' :: (' ' :: keywordText k ++ (keywordLines ks ++ r))))).run = _ :=
    Reader.run_key (.inr rfl) keywordsName (by decide) rfl
  rw [Reader.run_feed [0] _ false 2 rfl dash] at third
  have second := Reader.run_quotedEntry (.inr rfl) description (by decide) kept.description
    (keywordsName.isVisible_append _) third
  have first := Reader.run_quotedEntry (.inl rfl) title (by decide) kept.title
    (description.isVisible_append _) second
  rw [headText_append keywords]
  refine first.trans ?_
  simp [headTokens, keywords, keywordTokens, Reader.closing]

/-! ## The entries -/

/-- The node of a keyword. -/
def keywordNode (k : Text) : Node :=
  .scalar .none (isBare k) k

/-- The entries of a header up to the keywords. -/
def headEntries (m : Metadata) : List (Node × Node) :=
  [(.scalar .none true "title".toList, .scalar .none false m.title.value),
    (.scalar .none true "description".toList, .scalar .none false m.description.value),
    (.scalar .none true "keywords".toList, .sequence .none (m.keywords.value.map keywordNode))]

theorem foldlM_keywordTokens (hs : Handles) (ks : List Text) (items : List Node) (os : List OpenNode) :
    (keywordTokens ks).foldlM (Draft.step hs) ⟨.sequence .none .block items false :: os, none, []⟩ =
      .ok ⟨.sequence .none .block (items ++ ks.map keywordNode) false :: os, none, []⟩ := by
  induction ks generalizing items with
  | nil => rw [List.map_nil, List.append_nil]; rfl
  | cons k ks ih =>
    have step : [Token.blockEntry, .scalar (isBare k) k].foldlM (Draft.step hs)
        ⟨.sequence .none .block items false :: os, none, []⟩ =
          .ok ⟨.sequence .none .block (items ++ [keywordNode k]) false :: os, none, []⟩ := rfl
    have tokens : keywordTokens (k :: ks) = [Token.blockEntry, .scalar (isBare k) k] ++ keywordTokens ks := rfl
    rw [tokens, List.foldlM_append, step]
    refine (ih _).trans ?_
    rw [List.map_cons, List.append_assoc, List.singleton_append]

/-- The tokens of a header open a mapping with its entries. -/
theorem foldlM_headTokens (hs : Handles) (m : Metadata) :
    (headTokens m).foldlM (Draft.step hs) Draft.start =
      .ok ⟨[.mapping .none false (headEntries m) .key, .root none], none, []⟩ := by
  let mapping : OpenNode := .mapping .none false
    [(.scalar .none true "title".toList, .scalar .none false m.title.value),
      (.scalar .none true "description".toList, .scalar .none false m.description.value)]
    (.valueNode (.scalar .none true "keywords".toList))
  have opened : List.foldlM (Draft.step hs) Draft.start
      [.blockMappingStart, .key, .scalar true "title".toList, .value, .scalar false m.title.value,
        .key, .scalar true "description".toList, .value, .scalar false m.description.value,
        .key, .scalar true "keywords".toList, .value, .blockSequenceStart] =
      .ok ⟨[.sequence .none .block [] false, mapping, .root none], none, []⟩ := rfl
  have filled := foldlM_keywordTokens hs m.keywords.value [] [mapping, .root none]
  have closed : List.foldlM (Draft.step hs)
      ⟨[.sequence .none .block ([] ++ m.keywords.value.map keywordNode) false, mapping, .root none], none,
        []⟩ [.blockEnd] = .ok ⟨[.mapping .none false (headEntries m) .key, .root none], none, []⟩ := rfl
  rw [headTokens, List.foldlM_append, List.foldlM_append, opened]
  exact (congrArg (Except.bind · fun d => [Token.blockEnd].foldlM (Draft.step hs) d) filled).trans closed

/-! ## What the entries say -/

/-- The trees of the entries. -/
def headTrees (m : Metadata) : List (Tree × Tree) :=
  [(.scalar none true "title".toList, .scalar none false m.title.value),
    (.scalar none true "description".toList, .scalar none false m.description.value),
    (.scalar none true "keywords".toList,
      .sequence none (m.keywords.value.map fun k => .scalar none (isBare k) k))]

theorem mapM_keywordNode (anchors : List (Nat × Node)) (depth : Nat) (ks : List Text) (budget : Nat) :
    (ks.map keywordNode).mapM (Tree.expand anchors (depth + 1)) budget =
      (ks.map fun k => .scalar none (isBare k) k, budget) := by
  induction ks with
  | nil => rfl
  | cons k ks ih =>
    have first : Tree.expand anchors (depth + 1) (keywordNode k) budget =
        (.scalar none (isBare k) k, budget) := rfl
    rw [List.map_cons, List.mapM_cons]
    simp only [Tree.run_bind, Tree.run_pure, first, ih]
    rfl

theorem steady_headEntries (m : Metadata) : Tree.Steady (headEntries m) (headTrees m) where
  anchors := by
    have none : itemAnchors (m.keywords.value.map keywordNode) = [] := by
      induction m.keywords.value with
      | nil => rfl
      | cons k ks ih => rw [List.map_cons, itemAnchors, ih]; rfl
    simp [headEntries, entryAnchors, Node.anchors, none, Props.anchored, Props.none]
  expands anchors budget := by
    have keywords : Tree.expandEntry anchors 127
        (.scalar .none true "keywords".toList, .sequence .none (m.keywords.value.map keywordNode)) budget =
          ((.scalar none true "keywords".toList,
            .sequence none (m.keywords.value.map fun k => .scalar none (isBare k) k)), budget) := by
      have items := mapM_keywordNode anchors 125 m.keywords.value budget
      have sequence : Tree.expand anchors 127 (.sequence .none (m.keywords.value.map keywordNode)) =
          (m.keywords.value.map keywordNode).mapM (Tree.expand anchors 126) >>= fun ts =>
            pure (.sequence none ts) := rfl
      have name : Tree.expand anchors 127 (.scalar .none true "keywords".toList) budget =
        (.scalar none true "keywords".toList, budget) := rfl
      simp only [Tree.expandEntry, sequence, Tree.run_bind, Tree.run_pure, name, items]
    have scalar (name value : Text) :
        Tree.expandEntry anchors 127 (.scalar .none true name, .scalar .none false value) budget =
          ((.scalar none true name, .scalar none false value), budget) := rfl
    simp only [headEntries, List.mapM_cons, List.mapM_nil, Tree.run_bind, Tree.run_pure, scalar,
      keywords]
    rfl

theorem entryParts_headEntries (m : Metadata) : 6 ≤ entryParts (headEntries m) := by
  simp only [headEntries, entryParts, Node.parts]
  omega

/-- The values of keywords as they are read.  One without quotation marks may also be read as null, a
boolean or a number, and it may be a number that no value holds. -/
def keywordValues (ks : List Text) : Except Error (List Value) :=
  Value.ofItems (ks.map fun k => .scalar none (isBare k) k)

theorem keywordValues_cons (k : Text) (ks : List Text) :
    keywordValues (k :: ks) =
      (Value.ofUntagged (isBare k) k).bind fun v => (keywordValues ks).map (v :: ·) := rfl

/-- What the entries of a header say, given the values of the keywords. -/
def headMapping (m : Metadata) (vs : List Value) : Mapping :=
  [(.string "title".toList, .string m.title.value),
    (.string "description".toList, .string m.description.value),
    (.string "keywords".toList, .sequence vs)]

/-- A word without quotation marks. -/
theorem ofTree_word (word : Text) (text : Plain.ofText word = .text) :
    Value.ofTree (.scalar none true word) = .ok (.string word) := by
  simp [Value.ofTree, Value.ofScalar, Value.ofUntagged, Value.ofPlain, text]

/-- The entries say what was written. -/
theorem ofEntries_headTrees (m : Metadata) :
    Value.ofEntries (headTrees m) = (keywordValues m.keywords.value).map (headMapping m) := by
  have quoted (t : Text) : Value.ofTree (.scalar none false t) = .ok (.string t) := by
    simp [Value.ofTree, Value.ofScalar, Value.ofUntagged]
  have sequence : Value.ofTree
      (.sequence none (m.keywords.value.map fun k => .scalar none (isBare k) k)) =
        (keywordValues m.keywords.value).map .sequence := by
    rw [Value.ofTree, keywordValues]
    rfl
  have title := ofTree_word "title".toList (by decide +kernel)
  have description := ofTree_word "description".toList (by decide +kernel)
  have keywords := ofTree_word "keywords".toList (by decide +kernel)
  simp only [headTrees, Value.ofEntries, title, description, keywords, quoted, sequence, Except.bind,
    Except.map]
  cases keywordValues m.keywords.value <;> rfl

end Metadata
end MdxPress
