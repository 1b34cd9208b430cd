import MdxPress.Marker.Replace
import MdxPress.Proofs.Marker.Place
import MdxPress.Proofs.Marker.Written
import MdxPress.Proofs.Text.Edit

/-!
Replacing the directives of a text that is put together from closed texts.  Where every opener has
its closer in the same part, a pass over the whole is a pass over each part.

* `Text.ReplacesPairs` and `Text.ReplacesSingles` say what a pass makes of a text, and that it
  converts all it finds there;
* both hold of texts without such directives, of one directive, and of texts put together, which is
  what `Text.IsPass` asks of a pass.
-/

namespace MdxPress

/-! ## Pairs -/

/-- A marker that opens the directive `name` or closes it. -/
def Marker.isOf (name : Text) (m : Marker) : Bool :=
  m.name == name || m.closes name

@[simp]
theorem Marker.isOf_shift (name : Text) (n : Nat) (m : Marker) :
    (m.shift n).isOf name = m.isOf name := rfl

/-- Behind every opener of a directive another marker of the directive follows. -/
def Marker.Paired (name : Text) : List Marker → Prop
  | [] => True
  | m :: ms => (m.name = name → (ms.find? (isOf name)).isSome) ∧ Paired name ms

theorem Marker.Paired.append {name : Text} {ms ns : List Marker} (left : Paired name ms)
    (right : Paired name ns) : Paired name (ms ++ ns) := by
  induction ms with
  | nil => exact right
  | cons m ms ih =>
    refine ⟨fun opens => ?_, ih left.2⟩
    have found := left.1 opens
    change ((ms ++ ns).find? (isOf name)).isSome
    rw [List.find?_append]
    simp [found]

theorem Marker.Paired.shift {name : Text} {ms : List Marker} (paired : Paired name ms) (n : Nat) :
    Paired name (ms.map (Marker.shift n)) := by
  induction ms with
  | nil => trivial
  | cons m ms ih =>
    refine ⟨fun opens => ?_, ih paired.2⟩
    have found := paired.1 opens
    rw [List.find?_map]
    simpa [Function.comp_def] using found

theorem Marker.Paired.of_absent {name : Text} {ms : List Marker}
    (absent : ∀ m ∈ ms, m.name ≠ name) : Paired name ms := by
  induction ms with
  | nil => trivial
  | cons m ms ih =>
    exact ⟨fun opens => (absent m (.head _) opens).elim, ih fun k mem => absent k (.tail _ mem)⟩

/-- The same pair `n` characters further on. -/
def MarkerPair.shift (n : Nat) (p : MarkerPair) : MarkerPair :=
  { p with opener := p.opener.shift n, closer := p.closer.shift n }

namespace Text

variable {name : Text}

theorem pairsAmong_cons (t name : Text) (m : Marker) (ms : List Marker) :
    pairsAmong t name (m :: ms) =
      if m.name = name then
        match ms.find? (Marker.isOf name) with
        | some k =>
          if k.closes name then ⟨m, k, t.slice m.stop k.start⟩ :: pairsAmong t name ms
          else pairsAmong t name ms
        | none => pairsAmong t name ms
      else pairsAmong t name ms := rfl

theorem pairsAmong_append (t : Text) {ms : List Marker} (paired : Marker.Paired name ms)
    (ns : List Marker) :
    pairsAmong t name (ms ++ ns) = pairsAmong t name ms ++ pairsAmong t name ns := by
  induction ms with
  | nil => rfl
  | cons m ms ih =>
    have rest := ih paired.2
    rw [List.cons_append, pairsAmong_cons, pairsAmong_cons, rest]
    by_cases opens : m.name = name
    · obtain ⟨k, found⟩ := Option.isSome_iff_exists.1 (paired.1 opens)
      rw [if_pos opens, if_pos opens, List.find?_append, found]
      by_cases closes : k.closes name = true <;> simp [closes]
    · rw [if_neg opens, if_neg opens]

theorem pairsAmong_of_absent (t : Text) {ms : List Marker} (absent : ∀ m ∈ ms, m.name ≠ name) :
    pairsAmong t name ms = [] := by
  induction ms with
  | nil => rfl
  | cons m ms ih =>
    rw [pairsAmong_cons, if_neg (absent m (.head _)), ih fun k mem => absent k (.tail _ mem)]

theorem pairsAmong_left {a b : Text} {ms : List Marker} (inside : ∀ m ∈ ms, m.Within a.length) :
    pairsAmong (a ++ b) name ms = pairsAmong a name ms := by
  induction ms with
  | nil => rfl
  | cons m ms ih =>
    have rest := ih fun k mem => inside k (.tail _ mem)
    rw [pairsAmong_cons, pairsAmong_cons, rest]
    cases found : ms.find? (Marker.isOf name) with
    | none => rfl
    | some k =>
      have within := inside k (.tail _ (List.mem_of_find?_eq_some found))
      simp only [slice_append_left (b := b) (Nat.le_trans within.ordered within.inside)]

theorem pairsAmong_right (a b : Text) (ms : List Marker) :
    pairsAmong (a ++ b) name (ms.map (Marker.shift a.length)) =
      (pairsAmong b name ms).map (MarkerPair.shift a.length) := by
  induction ms with
  | nil => rfl
  | cons m ms ih =>
    rw [List.map_cons, pairsAmong_cons, pairsAmong_cons, ih, List.find?_map]
    have same : Marker.isOf name ∘ Marker.shift a.length = Marker.isOf name := rfl
    rw [same]
    by_cases opens : m.name = name
    · rw [if_pos opens, if_pos (by simpa using opens)]
      cases ms.find? (Marker.isOf name) with
      | none => rfl
      | some k =>
        by_cases closes : k.closes name = true <;>
          simp [closes, slice_append_right, MarkerPair.shift]
    · rw [if_neg opens, if_neg (by simpa using opens)]

/-- **The directives of two texts put together.** -/
theorem pairs_append {a : Text} (closed : a.Closed) (paired : Marker.Paired name a.markers)
    (b : Text) :
    (a ++ b).pairs name = a.pairs name ++ (b.pairs name).map (MarkerPair.shift a.length) := by
  rw [pairs, markers_append closed, pairsAmong_append _ paired, pairsAmong_left
    (fun _ => markers_within), pairsAmong_right, pairs, pairs]

theorem singles_append {a : Text} (closed : a.Closed) (b : Text) :
    (a ++ b).singles name = a.singles name ++ (b.singles name).map (Marker.shift a.length) := by
  rw [singles, markers_append closed, List.filter_append, List.filter_map]
  rfl

theorem singles_eq_nil {t : Text} (absent : ∀ m ∈ t.markers, m.name ≠ name) :
    t.singles name = [] := by
  simpa [singles] using absent

/-! ## Passes for pairs -/

section Pairs

variable {convert : Marker → Text → Option Text}

/-- The edits of a pass for pairs. -/
def pairEdits (t name : Text) (convert : Marker → Text → Option Text) : List Edit :=
  (t.pairs name).filterMap fun p =>
    (convert p.opener p.inner).map fun new => ⟨p.opener.start, p.closer.stop, new⟩

/-- A pass for pairs makes `u` of the text `t`, and converts all the directives it finds. -/
structure ReplacesPairs (name : Text) (convert : Marker → Text → Option Text) (t u : Text) :
    Prop where
  closed : t.Closed
  paired : Marker.Paired name t.markers
  ordered : Edit.InOrder 0 t.length (pairEdits t name convert)
  text : t.splice (pairEdits t name convert) = u
  counted : (t.singles name).length = (pairEdits t name convert).length

theorem ReplacesPairs.replacePairs {t u : Text} (pass : ReplacesPairs name convert t u) :
    (t.replacePairs name convert).text = u ∧
      (t.replacePairs name convert).found = (t.replacePairs name convert).converted :=
  ⟨pass.text, pass.counted⟩

/-- A conversion that does not look where the opener stands. -/
def PlaceBlind (convert : Marker → Text → Option Text) : Prop :=
  ∀ n m inner, convert (m.shift n) inner = convert m inner

theorem pairEdits_append {a : Text} (blind : PlaceBlind convert) (closed : a.Closed)
    (paired : Marker.Paired name a.markers) (b : Text) :
    pairEdits (a ++ b) name convert =
      pairEdits a name convert ++ (pairEdits b name convert).map (Edit.shift a.length) := by
  rw [pairEdits, pairs_append closed paired, List.filterMap_append, List.filterMap_map,
    pairEdits, pairEdits, List.map_filterMap]
  congr 1
  refine List.filterMap_congr fun p _ => ?_
  simp [MarkerPair.shift, blind a.length p.opener p.inner, Edit.shift, Function.comp_def]

theorem ReplacesPairs.append {a b u v : Text} (blind : PlaceBlind convert)
    (left : ReplacesPairs name convert a u) (right : ReplacesPairs name convert b v) :
    ReplacesPairs name convert (a ++ b) (u ++ v) := by
  have edits := pairEdits_append blind left.closed left.paired b
  refine ⟨left.closed.append right.closed, ?_, ?_, ?_, ?_⟩
  · rw [markers_append left.closed]
    exact left.paired.append (right.paired.shift a.length)
  · rw [edits, List.length_append]
    exact left.ordered.append (right.ordered.shift a.length)
  · rw [edits, splice_append left.ordered right.ordered, left.text, right.text]
  · rw [edits, singles_append left.closed, List.length_append, List.length_append,
      List.length_map, List.length_map, left.counted, right.counted]

/-- A text in which no directive opens stays as it is. -/
theorem ReplacesPairs.of_absent {t : Text} (closed : t.Closed)
    (absent : ∀ m ∈ t.markers, m.name ≠ name) : ReplacesPairs name convert t t := by
  have edits : pairEdits t name convert = [] := by
    rw [pairEdits, pairs, pairsAmong_of_absent t absent]
    rfl
  refine ⟨closed, .of_absent absent, ?_, ?_, ?_⟩
  · rw [edits]; exact Nat.zero_le _
  · rw [edits]; rfl
  · rw [edits, singles_eq_nil absent]; rfl

end Pairs

/-! ## One directive -/

/-- The name of the marker that closes a directive. -/
def closerName (name : Text) : Text :=
  "end".toList ++ name

/-- A directive as it is written: its two markers on lines of their own. -/
def pairLines (name : Text) (as : List Attribute) (inner : Text) : Text :=
  markerLine name as ++ inner ++ markerLine (closerName name) []

/-- A name of a directive, in lowercase. -/
structure IsName (name : Text) : Prop where
  key : IsKey name
  lower : asciiLower name = name

theorem IsName.closer (isName : IsName name) : IsName (closerName name) where
  key := ⟨by simp [closerName], by
    have first : ∀ c ∈ "end".toList, isKeyChar c = true := by decide
    exact List.forall_mem_append.2 ⟨first, isName.key.chars⟩⟩
  lower := by
    rw [closerName, asciiLower, List.map_append]
    exact congrArg ("end".toList ++ ·) isName.lower

section Directive

variable {as : List Attribute} {inner : Text}

/-- The opener of a directive that begins a text. -/
def openerOf (name : Text) (as : List Attribute) : Marker :=
  ⟨name, as, 0, (Marker.written name as).length⟩

@[simp]
theorem name_openerOf (name : Text) (as : List Attribute) : (openerOf name as).name = name := rfl

theorem closed_pairLines (isName : IsName name) (writable : ∀ a ∈ as, a.Writable)
    (closed : inner.Closed) : (pairLines name as inner).Closed :=
  ((closed_markerLine isName.key writable).append closed).append
    (closed_markerLine isName.closer.key nofun)

theorem closes_closer (name : Text) (n : Nat) :
    ((openerOf (closerName name) []).shift n).closes name = true := by
  change (dropStart? "end".toList ("end".toList ++ name) == some name) = true
  rw [dropStart?_append, beq_self_eq_true]

theorem closerName_ne (name : Text) : closerName name ≠ name := by
  intro same
  have length := congrArg List.length same
  simp [closerName] at length
  omega

/-- No marker opens the directive that it closes. -/
theorem name_ne_of_closes {k : Marker} (closes : k.closes name = true) : k.name ≠ name := by
  rw [Marker.closes, beq_iff_eq, dropStart?, isPrefixOf?_eq_some_iff] at closes
  exact fun same => closerName_ne name (closes.symm.trans same)

/-- The markers behind the opener of a directive. -/
def markersBehind (name : Text) (as : List Attribute) (inner : Text) : List Marker :=
  inner.markers.map (Marker.shift (markerLine name as).length) ++
    [(openerOf (closerName name) []).shift (markerLine name as ++ inner).length]

theorem markers_pairLines (isName : IsName name) (writable : ∀ a ∈ as, a.Writable)
    (closed : inner.Closed) :
    (pairLines name as inner).markers = openerOf name as :: markersBehind name as inner := by
  have first := closed_markerLine isName.key writable
  rw [pairLines, markers_append (first.append closed), markers_append first,
    markers_markerLine isName.key writable, markers_markerLine isName.closer.key (by simp),
    isName.lower, isName.closer.lower]
  rfl

theorem name_ne_of_mem_markersBehind (absent : ∀ m ∈ inner.markers, m.isOf name = false)
    {m : Marker} (mem : m ∈ markersBehind name as inner) : m.name ≠ name := by
  rcases List.mem_append.1 mem with within | closer
  · obtain ⟨k, isIn, rfl⟩ := List.mem_map.1 within
    have apart := absent k isIn
    simp only [Marker.isOf, Bool.or_eq_false_iff, beq_eq_false_iff_ne] at apart
    exact apart.1
  · rw [List.mem_singleton.1 closer]
    exact closerName_ne name

theorem find?_markersBehind (as : List Attribute)
    (absent : ∀ m ∈ inner.markers, m.isOf name = false) :
    (markersBehind name as inner).find? (Marker.isOf name) =
      some ((openerOf (closerName name) []).shift (markerLine name as ++ inner).length) := by
  have within : (inner.markers.map (Marker.shift (markerLine name as).length)).find?
      (Marker.isOf name) = none := by
    rw [List.find?_eq_none]
    intro m mem
    obtain ⟨k, isIn, rfl⟩ := List.mem_map.1 mem
    simpa using absent k isIn
  have closes : ((openerOf (closerName name) []).shift
      (markerLine name as ++ inner).length).isOf name = true := by
    rw [Marker.isOf, closes_closer, Bool.or_true]
  rw [markersBehind, List.find?_append, within, Option.none_or, List.find?_cons_of_pos closes]

/-- The text between the two markers begins behind the opener, on its line. -/
theorem slice_pairLines (name : Text) (as : List Attribute) (inner : Text) :
    slice (pairLines name as inner) (Marker.written name as).length
      (markerLine name as ++ inner).length = '\n' :: inner := by
  have text : pairLines name as inner =
      Marker.written name as ++ ('\n' :: inner ++ markerLine (closerName name) []) := by
    simp [pairLines, markerLine]
  have stop : (markerLine name as ++ inner).length =
      (Marker.written name as).length + ('\n' :: inner).length := by
    simp [markerLine]
  have moved := slice_append_right (Marker.written name as)
    ('\n' :: inner ++ markerLine (closerName name) []) 0 ('\n' :: inner).length
  rw [text, stop]
  exact moved.trans (by rw [slice_append_left (Nat.le_refl _)]; simp [Text.slice])

/-- The only pair of a directive that holds none of its kind. -/
theorem pairs_pairLines (isName : IsName name) (writable : ∀ a ∈ as, a.Writable)
    (closed : inner.Closed) (absent : ∀ m ∈ inner.markers, m.isOf name = false) :
    (pairLines name as inner).pairs name =
      [⟨openerOf name as, (openerOf (closerName name) []).shift (markerLine name as ++ inner).length,
        '\n' :: inner⟩] := by
  rw [pairs, markers_pairLines isName writable closed, pairsAmong_cons,
    if_pos (name_openerOf name as), find?_markersBehind as absent]
  simp only [closes_closer, if_true]
  rw [pairsAmong_of_absent _ fun m => name_ne_of_mem_markersBehind absent]
  simp only [List.cons.injEq, MarkerPair.mk.injEq, true_and, and_true]
  exact slice_pairLines name as inner

/-- A pass takes the place of a directive it converts. -/
theorem ReplacesPairs.of_pair {convert : Marker → Text → Option Text} (isName : IsName name)
    (writable : ∀ a ∈ as, a.Writable) (closed : inner.Closed)
    (absent : ∀ m ∈ inner.markers, m.isOf name = false) {new : Text}
    (converts : convert (openerOf name as) ('\n' :: inner) = some new) :
    ReplacesPairs name convert (pairLines name as inner) (new ++ ['\n']) := by
  have others : ∀ m ∈ markersBehind name as inner, m.name ≠ name := fun m =>
    name_ne_of_mem_markersBehind absent
  have text : pairLines name as inner =
      (markerLine name as ++ inner ++ Marker.written (closerName name) []) ++ ['\n'] := by
    simp [pairLines, markerLine]
  have edits : pairEdits (pairLines name as inner) name convert =
      [⟨0, (markerLine name as ++ inner ++ Marker.written (closerName name) []).length, new⟩] := by
    rw [pairEdits, pairs_pairLines isName writable closed absent]
    simp only [List.filterMap_cons, List.filterMap_nil, converts, Option.map_some]
    simp [openerOf, Nat.add_assoc]
  refine ⟨closed_pairLines isName writable closed, ?_, ?_, ?_, ?_⟩
  · rw [markers_pairLines isName writable closed]
    refine ⟨fun _ => ?_, .of_absent others⟩
    rw [find?_markersBehind as absent]
    rfl
  · rw [edits, text, List.length_append]
    exact ⟨Nat.le_refl 0, Nat.zero_le _, Nat.le_add_right _ _⟩
  · rw [edits, text]
    simp [splice, spliceFrom]
  · have single : (pairLines name as inner).singles name = [openerOf name as] := by
      rw [Text.singles, markers_pairLines isName writable closed,
        List.filter_cons_of_pos (by simp), List.filter_eq_nil_iff.2 (by simpa using others)]
    rw [edits, single]
    rfl

/-! ## Passes for single markers -/

/-- The edits of a pass for single markers. -/
def singleEdits (t name : Text) (convert : Marker → Option Text) : List Edit :=
  (t.singles name).filterMap fun m => (convert m).map fun new => ⟨m.start, m.stop, new⟩

/-- A pass for single markers makes `u` of the text `t`, and converts all the markers it finds. -/
structure ReplacesSingles (name : Text) (convert : Marker → Option Text) (t u : Text) : Prop where
  closed : t.Closed
  ordered : Edit.InOrder 0 t.length (singleEdits t name convert)
  text : t.splice (singleEdits t name convert) = u
  counted : (t.singles name).length = (singleEdits t name convert).length

section Singles

variable {convert : Marker → Option Text}

theorem ReplacesSingles.replaceSingles {t u : Text} (pass : ReplacesSingles name convert t u) :
    (t.replaceSingles name convert).text = u ∧
      (t.replaceSingles name convert).found = (t.replaceSingles name convert).converted :=
  ⟨pass.text, pass.counted⟩

theorem singleEdits_append {a : Text} (blind : ∀ n m, convert (m.shift n) = convert m)
    (closed : a.Closed) (b : Text) :
    singleEdits (a ++ b) name convert =
      singleEdits a name convert ++ (singleEdits b name convert).map (Edit.shift a.length) := by
  rw [singleEdits, singles_append closed, List.filterMap_append, List.filterMap_map,
    singleEdits, singleEdits, List.map_filterMap]
  congr 1
  refine List.filterMap_congr fun m _ => ?_
  simp [blind a.length m, Edit.shift, Function.comp_def]

theorem ReplacesSingles.append {a b u v : Text} (blind : ∀ n m, convert (m.shift n) = convert m)
    (left : ReplacesSingles name convert a u) (right : ReplacesSingles name convert b v) :
    ReplacesSingles name convert (a ++ b) (u ++ v) := by
  have edits : singleEdits (a ++ b) name convert = singleEdits a name convert ++
      (singleEdits b name convert).map (Edit.shift a.length) :=
    singleEdits_append blind left.closed b
  refine ⟨left.closed.append right.closed, ?_, ?_, ?_⟩
  · rw [edits, List.length_append]
    exact left.ordered.append (right.ordered.shift a.length)
  · rw [edits, splice_append left.ordered right.ordered, left.text, right.text]
  · rw [edits, singles_append left.closed, List.length_append, List.length_append,
      List.length_map, List.length_map, left.counted, right.counted]

theorem ReplacesSingles.of_absent {t : Text} (closed : t.Closed)
    (absent : ∀ m ∈ t.markers, m.name ≠ name) : ReplacesSingles name convert t t := by
  have edits : singleEdits t name convert = [] := by
    rw [singleEdits, singles_eq_nil absent]
    rfl
  refine ⟨closed, ?_, ?_, ?_⟩
  · rw [edits]; exact Nat.zero_le _
  · rw [edits]; rfl
  · rw [edits, singles_eq_nil absent]; rfl

/-- A pass takes the place of a marker it converts. -/
theorem ReplacesSingles.of_marker (isName : IsName name) (writable : ∀ a ∈ as, a.Writable)
    {new : Text} (converts : convert (openerOf name as) = some new) :
    ReplacesSingles name convert (markerLine name as) (new ++ ['\n']) := by
  have single : (markerLine name as).singles name = [openerOf name as] := by
    rw [singles, markers_markerLine isName.key writable, isName.lower]
    simp [openerOf]
  have edits : singleEdits (markerLine name as) name convert =
      [⟨0, (Marker.written name as).length, new⟩] := by
    rw [singleEdits, single]
    simp only [List.filterMap_cons, List.filterMap_nil, converts, Option.map_some]
    rfl
  refine ⟨closed_markerLine isName.key writable, ?_, ?_, ?_⟩
  · rw [edits, markerLine, List.length_append]
    exact ⟨Nat.le_refl 0, Nat.zero_le _, Nat.le_add_right _ _⟩
  · rw [edits, markerLine]
    simp [splice, spliceFrom]
  · rw [edits, single]
    rfl

theorem removeSingles_eq_self {t : Text} (absent : ∀ m ∈ t.markers, m.name ≠ name) :
    t.removeSingles name = t := by
  rw [removeSingles, singles_eq_nil absent]
  rfl

end Singles

end Directive

/-! ## Passes part by part -/

/-- A relation between texts that holds of texts put together when it holds of the parts. -/
structure Partwise (rel : Text → Text → Prop) : Prop where
  nil : rel [] []
  append : ∀ {a b u v : Text}, rel a u → rel b v → rel (a ++ b) (u ++ v)

theorem Partwise.flatMap {rel : Text → Text → Prop} (partwise : Partwise rel) {α : Type}
    {f g : α → Text} {xs : List α} (each : ∀ x ∈ xs, rel (f x) (g x)) :
    rel (xs.flatMap f) (xs.flatMap g) := by
  induction xs with
  | nil => exact partwise.nil
  | cons x xs ih =>
    rw [List.flatMap_cons, List.flatMap_cons]
    exact partwise.append (each x (.head _)) (ih fun y mem => each y (.tail _ mem))

/-- A relation between texts that works on their parts and leaves closed texts without markers of a
name as they are.  Every pass for the directives of that name is one. -/
structure IsPass (name : Text) (pass : Text → Text → Prop) : Prop extends Partwise pass where
  keep : ∀ {t : Text}, t.Closed → (∀ m ∈ t.markers, m.name ≠ name) → pass t t

theorem isPass_replacesPairs {convert : Marker → Text → Option Text} (blind : PlaceBlind convert) :
    IsPass name (ReplacesPairs name convert) :=
  ⟨⟨.of_absent .nil nofun, .append blind⟩, .of_absent⟩

theorem isPass_replacesSingles {convert : Marker → Option Text}
    (blind : ∀ n m, convert (m.shift n) = convert m) :
    IsPass name (ReplacesSingles name convert) :=
  ⟨⟨.of_absent .nil nofun, .append blind⟩, .of_absent⟩

namespace IsPass

variable {pass : Text → Text → Prop}

theorem markerLine (isPass : IsPass name pass) {other : Text} {as : List Attribute}
    (isName : IsName other) (writable : ∀ a ∈ as, a.Writable) (differ : other ≠ name) :
    pass (Text.markerLine other as) (Text.markerLine other as) := by
  refine isPass.keep (closed_markerLine isName.key writable) fun m mem => ?_
  rw [markers_markerLine isName.key writable, isName.lower] at mem
  rw [List.mem_singleton.1 mem]
  exact differ

/-- A pass goes through a directive of another name. -/
theorem pairLines (isPass : IsPass name pass) {other inner new : Text} {as : List Attribute}
    (isName : IsName other) (writable : ∀ a ∈ as, a.Writable)
    (differ : other ≠ name ∧ closerName other ≠ name) (inside : pass inner new) :
    pass (Text.pairLines other as inner) (Text.pairLines other as new) :=
  isPass.append (isPass.append (isPass.markerLine isName writable differ.1) inside)
    (isPass.markerLine isName.closer nofun differ.2)

end IsPass

/-- A closed text without markers of a name, beside itself. -/
def Lacks (name t u : Text) : Prop :=
  t = u ∧ t.Closed ∧ ∀ m ∈ t.markers, m.name ≠ name

theorem isPass_lacks (name : Text) : IsPass name (Lacks name) where
  nil := ⟨rfl, .nil, nofun⟩
  append := by
    rintro a b u v ⟨rfl, closed, left⟩ ⟨rfl, ended, right⟩
    refine ⟨rfl, closed.append ended, fun m mem => ?_⟩
    rw [markers_append closed] at mem
    rcases List.mem_append.1 mem with first | later
    · exact left m first
    · obtain ⟨k, isIn, rfl⟩ := List.mem_map.1 later
      exact right k isIn
  keep closed absent := ⟨rfl, closed, absent⟩

/-- What stands inside the directives of texts put together stands inside those of one of them. -/
theorem exists_of_mem_pairs_flatMap {α : Type} {f : α → Text} {xs : List α}
    (closed : ∀ x ∈ xs, (f x).Closed) (paired : ∀ x ∈ xs, Marker.Paired name (f x).markers)
    {p : MarkerPair} (mem : p ∈ Text.pairs (xs.flatMap f) name) :
    ∃ x ∈ xs, ∃ q ∈ (f x).pairs name, q.inner = p.inner := by
  induction xs generalizing p with
  | nil => cases mem
  | cons x xs ih =>
    rw [List.flatMap_cons, pairs_append (closed x (.head _)) (paired x (.head _))] at mem
    rcases List.mem_append.1 mem with first | later
    · exact ⟨x, .head _, p, first, rfl⟩
    · obtain ⟨q, rest, rfl⟩ := List.mem_map.1 later
      obtain ⟨y, isIn, r, inner, same⟩ := ih (fun z isIn => closed z (.tail _ isIn))
        (fun z isIn => paired z (.tail _ isIn)) rest
      exact ⟨y, .tail _ isIn, r, inner, same⟩

end Text
end MdxPress
