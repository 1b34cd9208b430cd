import MdxPress.Proofs.Site.HeaderTokens

/-!
What the YAML of a header of metadata says: the metadata that were written, and behind them the other
entries as they are read behind any entry.
-/

namespace MdxPress

open Yaml

/-! ## Keys of other entries -/

namespace Yaml

/-- Only a string is the same key as a string. -/
theorem Value.eq_of_same_string {name : Text} {k : Value} (same : (Value.string name).same k = true) :
    k = .string name := by
  cases k with
  | string s =>
    have texts : name = s := by simpa [Value.same] using same
    rw [texts]
  | _ => simp [Value.same] at same

end Yaml

namespace Metadata

/-- Entries none of which is metadata. -/
theorem any_same_eq_false {extra : Mapping} (lacks : extraEntries extra = extra) (name : String)
    (key : name ∈ ["title", "description", "keywords"]) :
    (extra.any fun e => (Value.string name.toList).same e.1) = false := by
  rw [Bool.eq_false_iff]
  intro found
  obtain ⟨e, mem, same⟩ := List.any_eq_true.1 found
  rw [← lacks] at mem
  have kept := (List.mem_filter.1 mem).2
  rw [Value.eq_of_same_string same] at kept
  have listed : (["title", "description", "keywords"].any fun n => n.toList == name.toList) = true :=
    List.any_eq_true.2 ⟨name, key, by simp⟩
  simp only [Value.asText?, Value.untag, Value.text?, Option.any_some, listed] at kept
  cases kept

/-- Metadata in front of other entries repeat no key. -/
theorem hasDuplicateKey_metadata {extra : Mapping} (lacks : extraEntries extra = extra)
    (single : hasDuplicateKey extra = false) (m : Metadata) (vs : List Value) :
    hasDuplicateKey (headMapping m vs ++ extra) = false := by
  have noTitle := any_same_eq_false lacks "title" (by simp)
  have noDescription := any_same_eq_false lacks "description" (by simp)
  have noKeywords := any_same_eq_false lacks "keywords" (by simp)
  have apart : ("title".toList == "description".toList) = false ∧
      ("title".toList == "keywords".toList) = false ∧
        ("description".toList == "keywords".toList) = false := by decide
  simp only [headMapping, List.cons_append, List.nil_append, hasDuplicateKey, List.any_cons, Value.same, apart,
    noTitle, noDescription, noKeywords, single, Bool.or_self]

/-! ## Documents -/

/-- The tokens of an entry in front of other entries. -/
def sampleTokens : List Token :=
  [.key, .scalar true "title".toList, .value, .scalar true "T".toList]

/-- What stands behind one entry is read alike behind any entry. -/
theorem exists_of_sample {r : Text} (visible : isVisible r = true) {v : Value}
    (read : Value.ofText ("title: T\n".toList ++ r) = .ok v) :
    (∀ c ∈ r, isAllowed c = true) ∧ ∃ ts, (Reader.stand [0] 0 true r).run = .ok ts ∧
      ∃ n, Node.ofTokens (.blockMappingStart :: sampleTokens ++ ts) = .ok (some n) ∧
        Value.ofTree (Tree.ofNode n) = .ok v := by
  have title : IsBare "title".toList := isBare_iff.1 (by decide)
  have value : IsBare "T".toList := isBare_iff.1 (by decide)
  have text : "title: T\n".toList ++ r =
      "title".toList ++ ':' :: (' ' :: "T".toList ++ '\n' :: (spaces 0 ++ r)) := by simp [spaces]
  have line := Reader.run_key (.inl rfl) title (by decide)
    (show atGap (' ' :: "T".toList ++ '\n' :: (spaces 0 ++ r)) = true from rfl)
  rw [Reader.run_plain_feed value (by simp) rfl (by decide) (Nat.le_refl 0) visible] at line
  rw [Value.ofText, Tree.ofText, Node.ofText, tokens, text] at read
  split at read
  case isFalse => cases read
  case isTrue allowed =>
    have inside : ∀ c ∈ r, isAllowed c = true := fun c mem =>
      List.all_eq_true.1 allowed c (by simp [mem])
    have start (t : Text) : Reader.start t = Reader.stand [] 0 true t := rfl
    rw [start, line] at read
    cases runs : (Reader.stand [0] 0 true r).run with
    | error e =>
      rw [show ([0].dropWhile (0 < ·) : List Nat) = [0] from rfl, runs] at read
      cases read
    | ok ts =>
      rw [show ([0].dropWhile (0 < ·) : List Nat) = [0] from rfl, runs] at read
      refine ⟨inside, ts, rfl, ?_⟩
      change ((Node.ofTokens (.blockMappingStart :: sampleTokens ++ ts)).map fun n =>
        Tree.ofNode (n.getD (.empty .none))).bind Value.ofTree = .ok v at read
      cases whole : Node.ofTokens (.blockMappingStart :: sampleTokens ++ ts) with
      | error e => rw [whole] at read; cases read
      | ok n =>
        obtain ⟨n, rfl⟩ := Node.eq_some_of_ofTokens_opened (by decide) whole
        rw [whole] at read
        exact ⟨n, rfl, read⟩

/-- The characters of a header are those a document may hold. -/
theorem isAllowed_of_mem_headText {m : Metadata} (kept : m.IsKept) :
    ∀ c ∈ headText m, isAllowed c = true := by
  have quote : isAllowed '"' = true := by decide
  have quotedText {t : Text} (kept : ∀ c ∈ t, isKept c = true) : ∀ c ∈ quoted t, isAllowed c = true := by
    have inside : ∀ c ∈ escaped t, isAllowed c = true :=
      fun c mem => (isBreak_of_mem_escaped kept c mem).2
    have last : ∀ c ∈ ['"'], isAllowed c = true := by decide
    exact List.forall_mem_append.2 ⟨List.forall_mem_cons.2 ⟨quote, inside⟩, last⟩
  have keyword {k : Text} (kept : ∀ c ∈ k, isKept c = true) :
      ∀ c ∈ keywordText k, isAllowed c = true := by
    unfold keywordText
    split
    · exact fun c mem => (Bool.and_eq_true_iff.1 (kept c mem)).1
    · exact quotedText kept
  have lines : ∀ c ∈ keywordLines m.keywords.value, isAllowed c = true := by
    intro c mem
    obtain ⟨k, listed, mem⟩ := List.mem_flatMap.1 mem
    have dash : ∀ c ∈ "\n  - ".toList, isAllowed c = true := by decide
    have line : '\n' :: (spaces 2 ++ '-' :: ' ' :: keywordText k) = "\n  - ".toList ++ keywordText k := rfl
    rw [line] at mem
    exact List.forall_mem_append.2 ⟨dash, keyword (kept.keywords k listed)⟩ c mem
  have title : ∀ c ∈ "title: ".toList, isAllowed c = true := by decide
  have description : ∀ c ∈ "\ndescription: ".toList, isAllowed c = true := by decide
  have keywords : ∀ c ∈ "\nkeywords:".toList, isAllowed c = true := by decide
  intro c mem
  unfold headText at mem
  simp only [List.mem_append] at mem
  rcases mem with ((((mem | mem) | mem) | mem) | mem) | mem
  · exact title c mem
  · exact quotedText kept.title c mem
  · exact description c mem
  · exact quotedText kept.description c mem
  · exact keywords c mem
  · exact lines c mem

/-- The tokens of a header belong to one document. -/
theorem isBoundary_of_mem_headTokens (m : Metadata) :
    ∀ t ∈ headTokens m, isBoundary t = false := by
  have keywords : ∀ t ∈ keywordTokens m.keywords.value, isBoundary t = false := by
    intro t mem
    obtain ⟨k, -, mem⟩ := List.mem_flatMap.1 mem
    rcases List.mem_cons.1 mem with rfl | mem
    · rfl
    · rw [List.mem_singleton.1 mem]; rfl
  simp only [headTokens, List.forall_mem_append]
  refine ⟨⟨?_, keywords⟩, by decide⟩
  simp [isBoundary, isDirective]

theorem tokens_headText {m : Metadata} (kept : m.IsKept) (some_ : m.keywords.value ≠ []) {r : Text}
    (allowed : ∀ c ∈ r, isAllowed c = true) {ts : List Token} (ends : Ends r ts) :
    tokens (headText m ++ r) = .ok (headTokens m ++ ts) := by
  have all : (headText m ++ r).all isAllowed = true :=
    List.all_eq_true.2 (List.forall_mem_append.2 ⟨isAllowed_of_mem_headText kept, allowed⟩)
  rw [tokens, if_pos all, run_headText kept some_ ends]

/-- A header without other entries. -/
theorem ofText_headText {m : Metadata} (kept : m.IsKept) (some_ : m.keywords.value ≠ []) :
    Value.ofText (headText m) =
      (keywordValues m.keywords.value).map fun vs => .mapping (headMapping m vs) := by
  have content : Node.ofContent Handles.standard (headTokens m ++ [Token.blockEnd]) =
      .ok (.mapping .none (headEntries m)) := by
    rw [Node.ofContent, List.foldlM_append, foldlM_headTokens]
    rfl
  have whole : Node.ofTokens (headTokens m ++ [Token.blockEnd]) = .ok (some (.mapping .none (headEntries m))) := by
    have opened := Node.ofTokens_opened (headTokens m).tail
      (fun t mem => isBoundary_of_mem_headTokens m t (List.mem_of_mem_tail mem)) [.blockEnd]
    have begins : Token.blockMappingStart :: (headTokens m).tail = headTokens m := rfl
    have last : [Token.blockEnd].takeWhile (!isBoundary ·) = [.blockEnd] := rfl
    rw [begins, last, content] at opened
    exact opened
  have tree := Tree.ofNode_mapping (steady_headEntries m) []
  rw [List.append_nil] at tree
  have text := tokens_headText kept some_ (r := []) (by simp) .nil
  rw [List.append_nil] at text
  rw [Value.ofText, Tree.ofText, Node.ofText, text]
  simp only [Except.bind, whole, Except.map, Option.getD_some, tree]
  change Value.ofTree (.mapping none (headTrees m ++ [])) = _
  rw [List.append_nil, Value.ofTree, ofEntries_headTrees]
  cases keywordValues m.keywords.value with
  | error e => rfl
  | ok vs =>
    have single : hasDuplicateKey (headMapping m vs) = false :=
      hasDuplicateKey_metadata (show extraEntries [] = [] from rfl) rfl m vs
    simp only [Except.bind, Except.map, single, Bool.false_eq_true, if_false]
    rfl

/-- **A header says the metadata, and behind them the entries that are read behind one entry.** -/
theorem ofText_headText_append {m : Metadata} (kept : m.IsKept) (some_ : m.keywords.value ≠ [])
    {r : Text} (visible : isVisible r = true) {extra : Mapping} (lacks : extraEntries extra = extra)
    (read : Value.ofText ("title: T\n".toList ++ r) =
      .ok (.mapping ((.string "title".toList, .string "T".toList) :: extra))) :
    Value.ofText (headText m ++ '\n' :: r) =
      (keywordValues m.keywords.value).map fun vs => .mapping (headMapping m vs ++ extra) := by
  obtain ⟨allowed, ts, runs, n, sample, tree⟩ := exists_of_sample visible read
  have begins : Token.blockMappingStart :: (headTokens m).tail = headTokens m := rfl
  have noBoundary : ∀ t ∈ sampleTokens ++ (headTokens m).tail, isBoundary t = false :=
    List.forall_mem_append.2 ⟨by decide, fun t mem =>
      isBoundary_of_mem_headTokens m t (List.mem_of_mem_tail mem)⟩
  let entry : Node × Node := (.scalar .none true "title".toList, .scalar .none true "T".toList)
  have opened (hs : Handles) : (Token.blockMappingStart :: sampleTokens).foldlM (Draft.step hs) Draft.start =
      .ok ⟨[.mapping .none false [entry] .key, .root none], none, []⟩ := rfl
  obtain ⟨later, rfl, swapped⟩ :=
    Node.ofTokens_swap noBoundary opened (fun hs => foldlM_headTokens hs m) sample
  rw [begins] at swapped
  let tree' : Tree × Tree := (.scalar none true "title".toList, .scalar none true "T".toList)
  have steady : Tree.Steady [entry] [tree'] := ⟨rfl, fun _ _ => rfl⟩
  have before : Value.ofEntries [tree'] = .ok [(.string "title".toList, .string "T".toList)] := by
    have title := ofTree_word "title".toList (by decide +kernel)
    have value := ofTree_word "T".toList (by decide +kernel)
    simp only [tree', Value.ofEntries, title, value, Except.bind, Except.map]
  have fewer : entryParts [entry] ≤ entryParts (headEntries m) :=
    Nat.le_trans (by decide) (entryParts_headEntries m)
  have distinct (m' : Mapping) (made : Value.ofEntries (headTrees m) = .ok m')
      (single : hasDuplicateKey ([(Value.string "title".toList, .string "T".toList)] ++ extra) = false) :
      hasDuplicateKey (m' ++ extra) = false := by
    rw [ofEntries_headTrees] at made
    cases read : keywordValues m.keywords.value with
    | error e => rw [read] at made; cases made
    | ok vs =>
      rw [read] at made
      cases made
      exact hasDuplicateKey_metadata lacks (Bool.or_eq_false_iff.1 single).2 m vs
  have value := Value.ofTree_swap steady (steady_headEntries m) fewer before distinct tree
  rw [Value.ofText, Tree.ofText, Node.ofText,
    tokens_headText kept some_ (List.forall_mem_cons.2 ⟨by decide, allowed⟩) (.feed visible runs)]
  simp only [Except.bind, swapped, Except.map, Option.getD_some, value, ofEntries_headTrees]
  cases keywordValues m.keywords.value <;> rfl

end Metadata
end MdxPress
