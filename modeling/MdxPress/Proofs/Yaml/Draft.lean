import MdxPress.Yaml.Node.Document

/-!
Entries that stand in a mapping do not matter for those that follow: a mapping that begins with other
entries takes the same tokens, and ends with the same entries behind its own.

* `Draft.Swaps` relates two drafts whose outermost mappings begin with different entries;
* `Draft.Swaps.step` is one token, `Node.ofContent_swap` a document.
-/

namespace MdxPress.Yaml

/-- Where the first succeeds, the second does, with a result that is related. -/
def Follows {α β : Type} (related : α → β → Prop) (x : Except Error α) (y : Except Error β) : Prop :=
  ∀ a, x = .ok a → ∃ b, y = .ok b ∧ related a b

namespace Follows

variable {α β α' β' : Type} {related : α → β → Prop} {related' : α' → β' → Prop}

theorem ok {a : α} {b : β} (same : related a b) : Follows related (.ok a) (.ok b) := by
  rintro a' ⟨⟩
  exact ⟨b, rfl, same⟩

theorem error {e : Error} {y : Except Error β} : Follows related (.error e) y := by
  rintro a ⟨⟩

theorem bind {x : Except Error α} {y : Except Error β} {f : α → Except Error α'}
    {g : β → Except Error β'} (first : Follows related x y)
    (later : ∀ a b, related a b → Follows related' (f a) (g b)) :
    Follows related' (x.bind f) (y.bind g) := by
  intro a' result
  cases x with
  | error e => cases result
  | ok a =>
    obtain ⟨b, rfl, same⟩ := first a rfl
    exact later a b same a' result

theorem map {x : Except Error α} {y : Except Error β} {f : α → α'} {g : β → β'}
    (first : Follows related x y) (later : ∀ a b, related a b → related' (f a) (g b)) :
    Follows related' (x.map f) (y.map g) := by
  intro a' result
  cases x with
  | error e => cases result
  | ok a =>
    obtain ⟨b, rfl, same⟩ := first a rfl
    cases result
    exact ⟨g b, rfl, later a b same⟩

end Follows

/-- Open nodes whose outermost is a mapping that begins with the entries `es` on the one side and
`fs` on the other. -/
inductive SwapsOpen (es fs : List (Node × Node)) : List OpenNode → List OpenNode → Prop
  /-- The mapping is open. -/
  | mapping (later : List (Node × Node)) (slot : Slot) :
    SwapsOpen es fs [.mapping .none false (es ++ later) slot, .root none]
      [.mapping .none false (fs ++ later) slot, .root none]
  /-- The mapping is ended. -/
  | ended (later : List (Node × Node)) :
    SwapsOpen es fs [.root (some (.mapping .none (es ++ later)))]
      [.root (some (.mapping .none (fs ++ later)))]
  /-- Another node is open inside. -/
  | inside (o : OpenNode) {os ps : List OpenNode} (swaps : SwapsOpen es fs os ps) :
    SwapsOpen es fs (o :: os) (o :: ps)

variable {es fs : List (Node × Node)}

/-- One entry more. -/
theorem SwapsOpen.append (later : List (Node × Node)) (entry : Node × Node) (slot : Slot) :
    SwapsOpen es fs [.mapping .none false (es ++ later ++ [entry]) slot, .root none]
      [.mapping .none false (fs ++ later ++ [entry]) slot, .root none] := by
  rw [List.append_assoc, List.append_assoc]
  exact .mapping (later ++ [entry]) slot

/-- A complete node finds its place alike. -/
theorem SwapsOpen.place {os ps : List OpenNode} (swaps : SwapsOpen es fs os ps) (n : Node) :
    Follows (SwapsOpen es fs) (place n os) (place n ps) := by
  cases swaps with
  | mapping later slot =>
    cases slot with
    | keyNode => exact .ok (.mapping later (.value n))
    | valueNode k => exact .ok (.append later (k, n) .key)
    | key | value k | comma => exact .error
  | ended later => exact .error
  | inside o swaps =>
    cases o with
    | root m =>
      cases m with
      | none => exact .ok (.inside _ swaps)
      | some m => exact .error
    | sequence p s items isDue =>
      cases isDue with
      | true => exact .ok (.inside _ swaps)
      | false => exact .error
    | mapping p f entries slot =>
      cases slot with
      | keyNode | valueNode k => exact .ok (.inside _ swaps)
      | key =>
        cases f with
        | true => exact .ok (.inside _ swaps)
        | false => exact .error
      | value k | comma => exact .error
    | pair slot =>
      cases slot with
      | keyNode => exact .ok (.inside _ swaps)
      | valueNode k =>
        cases swaps with
        | mapping | ended => exact .error
        | inside o swaps =>
          cases o with
          | sequence p s items isDue =>
            cases isDue with
            | true => exact .ok (.inside _ swaps)
            | false => exact .error
          | root | mapping | pair => exact .error
      | key | value k | comma => exact .error

namespace Draft

/-- Drafts that differ in the entries their outermost mapping begins with. -/
structure Swaps (es fs : List (Node × Node)) (d e : Draft) : Prop where
  opens : SwapsOpen es fs d.opens e.opens
  props : d.props = e.props
  names : d.names = e.names

namespace Swaps

variable {d e : Draft} (swaps : Swaps es fs d e)

include swaps

theorem nextProps : d.nextProps = e.nextProps := by
  rw [Draft.nextProps, swaps.props, Draft.nextProps]

/-- What a draft takes next depends on its innermost node, and not on entries. -/
theorem awaitsNode : d.awaitsNode = e.awaitsNode := by
  obtain ⟨opens, props, names⟩ := d
  obtain ⟨opens', props', names'⟩ := e
  cases swaps.opens with
  | mapping later slot => cases slot <;> rfl
  | ended => rfl
  | inside o =>
    rcases o with (_ | m) | ⟨p, s, items, isDue⟩ | ⟨p, _ | _, entries, slot⟩ | slot
    any_goals rfl
    all_goals cases slot <;> rfl

theorem awaitsIndentless : d.awaitsIndentless = e.awaitsIndentless := by
  obtain ⟨opens, props, names⟩ := d
  obtain ⟨opens', props', names'⟩ := e
  cases swaps.opens with
  | mapping later slot => cases slot <;> rfl
  | ended => rfl
  | inside o =>
    rcases o with (_ | m) | ⟨p, s, items, isDue⟩ | ⟨p, _ | _, entries, slot⟩ | slot
    any_goals rfl
    all_goals cases slot <;> rfl

theorem isOmitted (t : Token) : d.isOmitted t = e.isOmitted t := by
  obtain ⟨opens, props, names⟩ := d
  obtain ⟨opens', props', names'⟩ := e
  cases swaps.opens with
  | mapping later slot => cases slot <;> rfl
  | ended => rfl
  | inside o =>
    rcases o with (_ | m) | ⟨p, _ | _ | _, items, _ | _⟩ | ⟨p, _ | _, entries, slot⟩ | slot
    any_goals rfl
    all_goals cases slot <;> rfl

theorem continues (p : Props) (t : Token) : d.continues p t = e.continues p t := by
  cases t <;> simp only [Draft.continues, swaps.awaitsIndentless]

/-! ## Changes of a draft -/

theorem add (n : Node) : Follows (Swaps es fs) (d.add n) (e.add n) :=
  (swaps.opens.place n).map fun _ _ opens => ⟨opens, rfl, swaps.names⟩

theorem push (o : OpenNode) : Swaps es fs (d.push o) (e.push o) :=
  ⟨.inside o swaps.opens, rfl, swaps.names⟩

end Swaps

section

variable {d e : Draft} {o : OpenNode} {os ps : List OpenNode}

/-- The innermost node is replaced alike. -/
theorem Swaps.setTop (swaps : Swaps es fs d e) (left : d.opens = o :: os) (right : e.opens = o :: ps)
    (inside : SwapsOpen es fs os ps) (o' : OpenNode) : Swaps es fs (d.setTop o') (e.setTop o') := by
  refine ⟨?_, rfl, swaps.names⟩
  simp only [Draft.setTop, left, right, List.tail_cons]
  exact .inside o' inside

/-- The innermost node is ended alike. -/
theorem Swaps.close (swaps : Swaps es fs d e) (left : d.opens = o :: os) (right : e.opens = o :: ps)
    (inside : SwapsOpen es fs os ps) (n : Node) :
    Follows (Swaps es fs) (d.close n) (e.close n) := by
  simp only [Draft.close, left, right, List.tail_cons]
  exact (inside.place n).map fun _ _ opens => ⟨opens, rfl, swaps.names⟩

end

/-- Two changes that happen alike, or neither does. -/
def Alike (es fs : List (Node × Node)) (x y : Option (Except Error Draft)) : Prop :=
  (x = none ∧ y = none) ∨ ∃ a b, x = some a ∧ y = some b ∧ Follows (Swaps es fs) a b

namespace Swaps

variable {d e : Draft} (swaps : Swaps es fs d e)

include swaps

/-- What a token brings about before it is used. -/
theorem prepare (t : Token) : Alike es fs (d.prepare? t) (e.prepare? t) := by
  unfold prepare?
  rw [← swaps.props, ← swaps.isOmitted]
  cases props : d.props with
  | some p =>
    dsimp only
    rw [← swaps.continues]
    split
    · exact .inl ⟨rfl, rfl⟩
    · exact .inr ⟨_, _, rfl, rfl, swaps.add _⟩
  | none =>
    dsimp only
    split
    · exact .inr ⟨_, _, rfl, rfl, swaps.add _⟩
    · generalize left : d.opens = os
      generalize right : e.opens = ps
      have opens := swaps.opens
      rw [left, right] at opens
      cases opens with
      | mapping later slot =>
        cases slot with
        | value k =>
          dsimp only
          split
          · exact .inl ⟨rfl, rfl⟩
          · refine .inr ⟨_, _, rfl, rfl, .ok ⟨?_, rfl, swaps.names⟩⟩
            simp only [Draft.setTop, left, right]
            exact .append later (k, .empty .none) .key
        | key | keyNode | valueNode k | comma => exact .inl ⟨rfl, rfl⟩
      | ended later => exact .inl ⟨rfl, rfl⟩
      | inside o inside =>
        rcases o with m | ⟨p, s, items, isDue⟩ | ⟨p, f, entries, slot⟩ | slot
        · exact .inl ⟨rfl, rfl⟩
        · rcases s with _ | _ | _ <;> cases isDue
          case indentless.false =>
            dsimp only
            split
            · exact .inl ⟨rfl, rfl⟩
            · exact .inr ⟨_, _, rfl, rfl, swaps.close left right inside _⟩
          all_goals exact .inl ⟨rfl, rfl⟩
        · cases slot with
          | value k =>
            dsimp only
            split
            · exact .inl ⟨rfl, rfl⟩
            · exact .inr ⟨_, _, rfl, rfl, .ok (swaps.setTop left right inside _)⟩
          | key | keyNode | valueNode k | comma => exact .inl ⟨rfl, rfl⟩
        · cases slot with
          | value k =>
            dsimp only
            split
            · exact .inl ⟨rfl, rfl⟩
            · exact .inr ⟨_, _, rfl, rfl, (swaps.setTop left right inside _).add _⟩
          | key | keyNode | valueNode k | comma => exact .inl ⟨rfl, rfl⟩

/-- All that a token brings about before it is used. -/
theorem settle (t : Token) (n : Nat) : Follows (Swaps es fs) (d.settle t n) (e.settle t n) := by
  induction n generalizing d e with
  | zero => exact .ok swaps
  | succ n ih =>
    rw [Draft.settle, Draft.settle]
    rcases swaps.prepare t with ⟨left, right⟩ | ⟨x, y, left, right, follows⟩
    · rw [left, right]
      exact .ok swaps
    · rw [left, right]
      exact follows.bind fun d e swaps => ih swaps

/-- A sequence without an indentation of its own begins alike. -/
theorem push_indentless :
    Swaps es fs (d.push (.sequence d.nextProps .indentless [] true))
      (e.push (.sequence e.nextProps .indentless [] true)) := by
  rw [swaps.nextProps]
  exact swaps.push _

/-- An indicator inside another node than the outermost mapping. -/
theorem indicator_inside {o : OpenNode} {os ps : List OpenNode} (left : d.opens = o :: os)
    (right : e.opens = o :: ps) (inside : SwapsOpen es fs os ps) (t : Token) :
    Follows (Swaps es fs) (d.indicator t) (e.indicator t) := by
  have top := swaps.setTop left right inside
  have close := swaps.close left right inside
  have push := swaps.push_indentless
  obtain ⟨opens, _, _⟩ := d
  obtain ⟨opens', _, _⟩ := e
  subst left right
  -- What happens is decided by the innermost node and the token.
  rcases o with m | ⟨p, _ | _ | _, items, _ | _⟩ | ⟨p, _ | _, entries, _ | _ | k | k | _⟩ |
    (_ | _ | k | k | _) <;> cases t
  all_goals first
    | exact .error
    | exact .ok (top _)
    | exact close _
    | exact .ok (swaps.push _)
    | exact .ok push

/-- An indicator. -/
theorem indicator (t : Token) : Follows (Swaps es fs) (d.indicator t) (e.indicator t) := by
  generalize left : d.opens = os
  generalize right : e.opens = ps
  have opens := swaps.opens
  rw [left, right] at opens
  cases opens with
  | inside o inside => exact swaps.indicator_inside left right inside t
  | ended later =>
    obtain ⟨_, _, _⟩ := d
    obtain ⟨_, _, _⟩ := e
    subst left right
    cases t <;> exact .error
  | mapping later slot =>
    have push := swaps.push_indentless
    have names := swaps.names
    obtain ⟨_, _, _⟩ := d
    obtain ⟨_, _, _⟩ := e
    subst left right
    rcases slot with _ | _ | k | k | _ <;> cases t
    all_goals first
      | exact .error
      | exact .ok push
      | exact .ok ⟨.mapping later _, rfl, names⟩
      | exact .ok ⟨.ended later, rfl, names⟩

/-- A token that begins a node. -/
theorem content (t : Token) : Follows (Swaps es fs) (d.content t) (e.content t) := by
  have props := swaps.nextProps
  cases t with
  | «alias» n =>
    simp only [Draft.content, swaps.names]
    cases e.names.lookup n with
    | none => exact .error
    | some number => exact swaps.add _
  | scalar isPlain c =>
    simp only [Draft.content, props]
    exact swaps.add _
  | blockSequenceStart | flowSequenceStart | blockMappingStart | flowMappingStart =>
    simp only [Draft.content, props]
    exact .ok (swaps.push _)
  | anchor n =>
    simp only [Draft.content, Draft.name, props, swaps.names]
    exact .ok ⟨swaps.opens, rfl, rfl⟩
  | _ => exact .error

/-- A token that nothing has to happen before. -/
theorem use (hs : Handles) (t : Token) : Follows (Swaps es fs) (d.use hs t) (e.use hs t) := by
  have awaits := swaps.awaitsNode
  have props := swaps.nextProps
  unfold Draft.use
  rw [← awaits]
  split
  case h_1 handle suffix =>
    split
    · rw [← props]
      cases hs.resolve handle suffix with
      | error => exact .error
      | ok tag => exact .ok ⟨swaps.opens, rfl, swaps.names⟩
    · exact .error
  case h_2 =>
    split
    · split
      · exact swaps.content t
      · exact .error
    · exact swaps.indicator t

/-- **One token.** -/
theorem step (hs : Handles) (t : Token) : Follows (Swaps es fs) (d.step hs t) (e.step hs t) :=
  (swaps.settle t 4).bind fun _ _ swaps => swaps.use hs t

/-- The tokens of a document. -/
theorem foldlM (hs : Handles) (ts : List Token) :
    Follows (Swaps es fs) (ts.foldlM (Draft.step hs) d) (ts.foldlM (Draft.step hs) e) := by
  induction ts generalizing d e with
  | nil => exact .ok swaps
  | cons t ts ih =>
    rw [List.foldlM_cons, List.foldlM_cons]
    exact (swaps.step hs t).bind fun _ _ swaps => ih swaps

/-- The end of a document. -/
theorem finish :
    Follows (fun n m => ∃ later, n = .mapping .none (es ++ later) ∧ m = .mapping .none (fs ++ later))
      d.finish e.finish := by
  refine (swaps.settle .documentEnd 4).bind fun d e swaps => ?_
  generalize left : d.opens = os
  generalize right : e.opens = ps
  have opens := swaps.opens
  rw [left, right] at opens
  cases opens with
  | mapping later slot => exact .error
  | ended later => exact .ok ⟨later, rfl, rfl⟩
  | inside o inside =>
    cases inside <;> cases o with
    | root m => cases m <;> exact .error
    | _ => exact .error

end Swaps

end Draft

/-- **Tokens behind the first entries of a mapping make the same entries, whatever stands there.** -/
theorem Node.ofContent_swap {hs : Handles} {ts us rest : List Token}
    (left : ts.foldlM (Draft.step hs) Draft.start =
      .ok ⟨[.mapping .none false es .key, .root none], none, []⟩)
    (right : us.foldlM (Draft.step hs) Draft.start =
      .ok ⟨[.mapping .none false fs .key, .root none], none, []⟩) {n : Node}
    (read : Node.ofContent hs (ts ++ rest) = .ok n) :
    ∃ later, n = .mapping .none (es ++ later) ∧
      Node.ofContent hs (us ++ rest) = .ok (.mapping .none (fs ++ later)) := by
  have open_ : SwapsOpen es fs [.mapping .none false es .key, .root none]
      [.mapping .none false fs .key, .root none] := by
    have swaps : SwapsOpen es fs [.mapping .none false (es ++ []) .key, .root none]
        [.mapping .none false (fs ++ []) .key, .root none] := .mapping [] .key
    rwa [List.append_nil, List.append_nil] at swaps
  have swaps : Draft.Swaps es fs ⟨[.mapping .none false es .key, .root none], none, []⟩
      ⟨[.mapping .none false fs .key, .root none], none, []⟩ := ⟨open_, rfl, rfl⟩
  rw [Node.ofContent, List.foldlM_append, left] at read
  obtain ⟨m, same, later, rfl, rfl⟩ := (swaps.foldlM hs rest).bind (fun _ _ swaps => swaps.finish) n read
  refine ⟨later, rfl, ?_⟩
  rw [Node.ofContent, List.foldlM_append, right]
  exact same

/-- Tokens that begin a mapping make one document, if no boundary stands among them. -/
theorem Node.ofTokens_opened (ts : List Token) (inside : ∀ t ∈ ts, isBoundary t = false)
    (rest : List Token) :
    Node.ofTokens (.blockMappingStart :: ts ++ rest) =
      ((Node.ofContent Handles.standard
          (.blockMappingStart :: ts ++ rest.takeWhile (!isBoundary ·))).bind fun n =>
        if ((rest.dropWhile (!isBoundary ·)).dropWhile (· = .documentEnd)).isEmpty then .ok n
        else .error .severalDocuments).map some := by
  have all : ∀ t ∈ Token.blockMappingStart :: ts, (!isBoundary t) = true :=
    List.forall_mem_cons.2 ⟨rfl, fun t mem => by rw [inside t mem]; rfl⟩
  have whole : Node.ofTokens (.blockMappingStart :: ts ++ rest) =
      (Node.ofBody Handles.standard (.blockMappingStart :: ts ++ rest)).map some := by
    simp [Node.ofTokens, isDirective, readDirectives, Except.bind]
  rw [whole, Node.ofBody, List.takeWhile_append_of_pos all, List.dropWhile_append_of_pos all]

/-- Such tokens make a document that is not empty. -/
theorem Node.eq_some_of_ofTokens_opened {ts rest : List Token}
    (inside : ∀ t ∈ ts, isBoundary t = false) {n : Option Node}
    (read : Node.ofTokens (.blockMappingStart :: ts ++ rest) = .ok n) : ∃ m, n = some m := by
  rw [Node.ofTokens_opened ts inside] at read
  generalize Except.bind _ _ = result at read
  cases result with
  | error e => cases read
  | ok m => cases read; exact ⟨m, rfl⟩

/-- What other entries begin with makes no difference to what stands behind them. -/
theorem Node.ofTokens_swap {ts us rest : List Token} (noBoundary : ∀ t ∈ ts ++ us, isBoundary t = false)
    (left : ∀ hs, (Token.blockMappingStart :: ts).foldlM (Draft.step hs) Draft.start =
      .ok ⟨[.mapping .none false es .key, .root none], none, []⟩)
    (right : ∀ hs, (Token.blockMappingStart :: us).foldlM (Draft.step hs) Draft.start =
      .ok ⟨[.mapping .none false fs .key, .root none], none, []⟩) {n : Node}
    (read : Node.ofTokens (.blockMappingStart :: ts ++ rest) = .ok (some n)) :
    ∃ later, n = .mapping .none (es ++ later) ∧
      Node.ofTokens (.blockMappingStart :: us ++ rest) = .ok (some (.mapping .none (fs ++ later))) := by
  rw [Node.ofTokens_opened ts fun t mem => noBoundary t (List.mem_append_left _ mem)] at read
  rw [Node.ofTokens_opened us fun t mem => noBoundary t (List.mem_append_right _ mem)]
  cases content : Node.ofContent Handles.standard
      (.blockMappingStart :: ts ++ rest.takeWhile (!isBoundary ·)) with
  | error e => rw [content] at read; cases read
  | ok n' =>
    obtain ⟨later, rfl, swapped⟩ := Node.ofContent_swap (left _) (right _) content
    rw [content] at read
    rw [swapped]
    simp only [Except.bind] at read ⊢
    split at read
    · rename_i single
      cases read
      exact ⟨later, rfl, by rw [if_pos single]; rfl⟩
    · cases read

end MdxPress.Yaml
