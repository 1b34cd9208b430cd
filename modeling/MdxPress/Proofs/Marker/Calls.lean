import MdxPress.Proofs.Marker.Place
import MdxPress.Proofs.Marker.Replace

/-!
What a pass for pairs asks its conversion, and what it makes of the answers.  A conversion may have
effects, so the walk over the markers is written out here with them: `Text.askPairs` steps over the
markers, asks at every opener that has its closer, and goes on behind the closer when the answer is
a text.

* `Text.mem_pairsAmong_iff` says what the pairs of a directive are, `Text.inOrder_pairsAmong` that they
  come one after another;
* `Text.askPairsFrom_eq` is the walk: it asks for every pair, once and in order;
* `Text.replacePairs_splices` puts the texts that were answered for the pairs.
-/

namespace MdxPress

/-- The characters that a pair covers. -/
def MarkerPair.span (p : MarkerPair) : Text.Edit :=
  ⟨p.opener.start, p.closer.stop, []⟩

namespace Text

variable {t name : Text} {m k : Marker} {ms : List Marker} {p : MarkerPair}

/-! ## Pairs -/

/-- The closer of a marker, if that opens the directive `name` and the next marker of the directive
among those behind it closes it. -/
def closer? (name : Text) (m : Marker) (behind : List Marker) : Option Marker :=
  if m.name = name then (behind.find? (Marker.isOf name)).filter (·.closes name) else none

/-- Markers of which none opens or closes the directive `name`. -/
def Others (name : Text) (ms : List Marker) : Prop :=
  ∀ m ∈ ms, m.name ≠ name ∧ m.closes name = false

theorem closer?_eq_some_iff :
    closer? name m ms = some k ↔ m.name = name ∧ k.closes name = true ∧
      ∃ between behind, ms = between ++ k :: behind ∧ Others name between := by
  by_cases opens : m.name = name
  · simp only [closer?, opens, if_true, true_and, Option.filter_eq_some_iff,
      List.find?_eq_some_iff_append, Marker.isOf, Others, Bool.or_eq_true, Bool.not_eq_true',
      Bool.or_eq_false_iff, beq_eq_false_iff_ne, beq_iff_eq]
    constructor
    · rintro ⟨⟨-, between, behind, cut, others⟩, closes⟩
      exact ⟨closes, between, behind, cut, others⟩
    · rintro ⟨closes, between, behind, cut, others⟩
      exact ⟨⟨.inr closes, between, behind, cut, others⟩, closes⟩
  · simp [closer?, opens]

theorem pairsAmong_cons_of_some (closed : closer? name m ms = some k) :
    pairsAmong t name (m :: ms) = ⟨m, k, t.slice m.stop k.start⟩ :: pairsAmong t name ms := by
  rw [closer?] at closed
  split at closed
  case isFalse => cases closed
  case isTrue opens =>
    obtain ⟨found, closes⟩ := Option.filter_eq_some_iff.1 closed
    rw [pairsAmong_cons, if_pos opens, found]
    exact if_pos closes

theorem pairsAmong_cons_of_none (alone : closer? name m ms = none) :
    pairsAmong t name (m :: ms) = pairsAmong t name ms := by
  rw [pairsAmong_cons]
  split
  case isFalse => rfl
  case isTrue opens =>
    rw [closer?, if_pos opens] at alone
    split
    case h_2 => rfl
    case h_1 k found =>
      rw [found] at alone
      exact if_neg (by simpa using alone)

/-- **What the pairs of a directive are.** -/
theorem mem_pairsAmong_iff :
    p ∈ pairsAmong t name ms ↔ ∃ before between behind,
      ms = before ++ p.opener :: (between ++ p.closer :: behind) ∧ p.opener.name = name ∧
        p.closer.closes name = true ∧ Others name between ∧
        p.inner = t.slice p.opener.stop p.closer.start := by
  constructor
  · intro mem
    induction ms with
    | nil => cases mem
    | cons m ms ih =>
      have later (mem : p ∈ pairsAmong t name ms) : ∃ before between behind,
          m :: ms = before ++ p.opener :: (between ++ p.closer :: behind) ∧ p.opener.name = name ∧
            p.closer.closes name = true ∧ Others name between ∧
            p.inner = t.slice p.opener.stop p.closer.start := by
        obtain ⟨before, between, behind, rfl, rest⟩ := ih mem
        exact ⟨m :: before, between, behind, rfl, rest⟩
      cases closed : closer? name m ms with
      | none => exact later (pairsAmong_cons_of_none closed ▸ mem)
      | some k =>
        rw [pairsAmong_cons_of_some closed] at mem
        rcases List.mem_cons.1 mem with rfl | mem
        · obtain ⟨opens, closes, between, behind, rfl, others⟩ := closer?_eq_some_iff.1 closed
          exact ⟨[], between, behind, rfl, opens, closes, others, rfl⟩
        · exact later mem
  · rintro ⟨before, between, behind, rfl, opens, closes, others, inner⟩
    induction before with
    | nil =>
      have closed := closer?_eq_some_iff.2 ⟨opens, closes, between, behind, rfl, others⟩
      rw [List.nil_append, pairsAmong_cons_of_some closed, ← inner]
      exact .head _
    | cons m before ih =>
      rw [List.cons_append]
      cases closed : closer? name m (before ++ p.opener :: (between ++ p.closer :: behind)) with
      | none => exact pairsAmong_cons_of_none closed ▸ ih
      | some k => exact pairsAmong_cons_of_some closed ▸ .tail _ ih

/-- Up to the closer that an opener has, no other marker opens the directive. -/
theorem absent_of_others {between : List Marker} (others : Others name between)
    (closes : k.closes name = true) : ∀ m ∈ between ++ [k], m.name ≠ name :=
  List.forall_mem_append.2
    ⟨fun m mem => (others m mem).1, List.forall_mem_singleton.2 (name_ne_of_closes closes)⟩

/-- The next pair opens behind that closer. -/
theorem pairsAmong_behind {between behind : List Marker} (others : Others name between)
    (closes : k.closes name = true) :
    pairsAmong t name (between ++ k :: behind) = pairsAmong t name behind := by
  have absent := absent_of_others others closes
  rw [List.append_cons, pairsAmong_append t (.of_absent absent), pairsAmong_of_absent t absent,
    List.nil_append]

/-- **Pairs come one after another.** -/
theorem inOrder_pairsAmong (ms : List Marker) {cursor : Nat}
    (ordered : Edit.InOrder cursor t.length (ms.map Marker.span)) :
    Edit.InOrder cursor t.length ((pairsAmong t name ms).map MarkerPair.span) := by
  match ms with
  | [] => exact ordered
  | m :: ms =>
    obtain ⟨before, within, rest⟩ := ordered
    cases closed : closer? name m ms with
    | none =>
      rw [pairsAmong_cons_of_none closed]
      exact (inOrder_pairsAmong ms rest).mono (Nat.le_trans before within)
    | some k =>
      obtain ⟨-, closes, between, behind, rfl, others⟩ := closer?_eq_some_iff.1 closed
      rw [List.map_append, List.map_cons] at rest
      obtain ⟨middle, apart, ordered, inside, later⟩ := rest.exists_of_append
      rw [pairsAmong_cons_of_some closed, pairsAmong_behind others closes]
      refine ⟨before, ?_, inOrder_pairsAmong behind later⟩
      exact Nat.le_trans within (Nat.le_trans apart.le (Nat.le_trans ordered inside))
termination_by ms.length

theorem length_singles (t name : Text) :
    (t.singles name).length = t.markers.countP (·.name = name) := by
  rw [singles, ← List.countP_eq_length_filter]
  exact List.countP_congr fun m _ => by simp

/-- As many pairs are replaced as are accepted. -/
theorem length_pairEdits (t name : Text) (convert : Marker → Text → Option Text) :
    (pairEdits t name convert).length =
      (t.pairs name).countP fun p => (convert p.opener p.inner).isSome := by
  simp [pairEdits, List.length_filterMap_eq_countP]

/-! ## The walk -/

section Walk

variable {M : Type → Type} [Monad M] (t name : Text) (ask : Marker → Text → M (Option Text))

/-- The walk over markers of `t` from `cursor` on, the first `skip` of which are passed over.  It asks
for a text at every opener that has its closer, and goes on behind the closer if it gets one. -/
def askPairsFrom : Nat → Nat → List Marker → M Replaced
  | cursor, _, [] => pure ⟨t.drop cursor, 0, 0⟩
  | cursor, skip + 1, _ :: ms => askPairsFrom cursor skip ms
  | cursor, 0, m :: ms =>
    match closer? name m ms with
    | some k => do
      if let some new ← ask m (t.slice m.stop k.start) then
        let r ← askPairsFrom k.stop (ms.findIdx (Marker.isOf name) + 1) ms
        pure ⟨t.slice cursor m.start ++ new ++ r.text, r.found + 1, r.converted + 1⟩
      else
        let r ← askPairsFrom cursor 0 ms
        pure { r with found := r.found + 1 }
    | none => do
      let r ← askPairsFrom cursor 0 ms
      pure { r with found := r.found + if m.name = name then 1 else 0 }

/-- The pass for pairs with a conversion that has effects. -/
def askPairs : M Replaced :=
  askPairsFrom t name ask 0 0 t.markers

/-- The edits for pairs, by the answers for them. -/
def answerEdits (ps : List MarkerPair) (answers : List (Option Text)) : List Edit :=
  (ps.zip answers).filterMap fun (p, answer) =>
    answer.map fun new => ⟨p.opener.start, p.closer.stop, new⟩

theorem answerEdits_map (ps : List MarkerPair) (answer : MarkerPair → Option Text) :
    answerEdits ps (ps.map answer) = ps.filterMap fun p =>
      (answer p).map fun new => ⟨p.opener.start, p.closer.stop, new⟩ := by
  induction ps with
  | nil => rfl
  | cons p ps ih =>
    rw [List.filterMap_cons, ← ih]
    cases found : answer p <;> simp [answerEdits, found]

theorem askPairsFrom_skip (cursor : Nat) (between behind : List Marker) :
    askPairsFrom t name ask cursor between.length (between ++ behind) =
      askPairsFrom t name ask cursor 0 behind := by
  induction between with
  | nil => rfl
  | cons m between ih =>
    rw [List.cons_append, List.length_cons, askPairsFrom, ih]

/-- Behind the closer that an opener has. -/
theorem askPairsFrom_behind (cursor : Nat) {between : List Marker} (others : Others name between)
    (closes : k.closes name = true) (behind : List Marker) :
    askPairsFrom t name ask cursor ((between ++ k :: behind).findIdx (Marker.isOf name) + 1)
        (between ++ k :: behind) = askPairsFrom t name ask cursor 0 behind := by
  have isOf : k.isOf name = true := by simp [Marker.isOf, closes]
  have none : ∀ m ∈ between, Marker.isOf name m = false := by
    intro m mem
    simpa [Marker.isOf] using others m mem
  have length : (between ++ k :: behind).findIdx (Marker.isOf name) + 1 = (between ++ [k]).length := by
    rw [List.findIdx_append, if_neg (by simpa using none), List.findIdx_cons, isOf]
    simp
  rw [length, List.append_cons between k behind]
  exact askPairsFrom_skip t name ask cursor (between ++ [k]) behind

variable [LawfulMonad M]

/-- **The walk** asks for every pair, once and in order, and puts what is answered. -/
theorem askPairsFrom_eq (ms : List Marker) {cursor : Nat}
    (ordered : Edit.InOrder cursor t.length (ms.map Marker.span)) :
    askPairsFrom t name ask cursor 0 ms = (do
      let answers ← (pairsAmong t name ms).mapM fun p => ask p.opener p.inner
      pure ⟨spliceFrom cursor (t.drop cursor) (answerEdits (pairsAmong t name ms) answers),
        ms.countP (·.name = name), answers.countP (·.isSome)⟩) := by
  match ms with
  | [] => simp [askPairsFrom, pairsAmong, answerEdits, spliceFrom]
  | m :: ms =>
    obtain ⟨before, within, rest⟩ := ordered
    have passed := askPairsFrom_eq ms (rest.mono (Nat.le_trans before within))
    cases closed : closer? name m ms with
    | none =>
      rw [askPairsFrom, closed]
      dsimp only
      rw [passed, pairsAmong_cons_of_none closed, List.countP_cons]
      simp
    | some k =>
      obtain ⟨opens, closes, between, behind, rfl, others⟩ := closer?_eq_some_iff.1 closed
      rw [List.map_append, List.map_cons] at rest
      obtain ⟨middle, apart, ordered, inside, later⟩ := rest.exists_of_append
      have found : (between ++ k :: behind).countP (·.name = name) =
          behind.countP (·.name = name) := by
        have absent := absent_of_others others closes
        rw [List.append_cons, List.countP_append, List.countP_eq_zero.2 (by simpa using absent),
          Nat.zero_add]
      have jumped := askPairsFrom_behind t name ask k.stop others closes behind
      have walked := askPairsFrom_eq behind (show Edit.InOrder k.stop _ _ from later)
      have reach : cursor ≤ k.stop :=
        Nat.le_trans before (Nat.le_trans within
          (Nat.le_trans apart.le (Nat.le_trans ordered inside)))
      rw [askPairsFrom, closed, pairsAmong_cons_of_some closed, List.mapM_cons]
      simp only [bind_assoc, pure_bind]
      -- The answer decides where the walk goes on: at the next marker, or behind the closer.
      refine bind_congr fun answer => ?_
      cases answer with
      | none =>
        dsimp only
        rw [passed]
        simp only [bind_assoc, pure_bind]
        refine bind_congr fun answers => ?_
        simp [answerEdits, opens]
      | some new =>
        dsimp only
        rw [jumped, walked, pairsAmong_behind others closes]
        simp only [bind_assoc, pure_bind]
        refine bind_congr fun answers => ?_
        rw [List.countP_cons, found]
        simp [answerEdits, opens, spliceFrom, slice, reach]
termination_by ms.length

/-- Where the conversion has no effects, the walk is the pass for pairs. -/
theorem askPairs_pure (convert : Marker → Text → Option Text) :
    t.askPairs name (fun m inner => (pure (convert m inner) : M (Option Text))) =
      pure (t.replacePairs name convert) := by
  have walked := askPairsFrom_eq t name (fun m inner => (pure (convert m inner) : M (Option Text)))
    t.markers t.inOrder_markers
  rw [askPairs, walked, ← pairs, List.mapM_pure, pure_bind, answerEdits_map, List.drop_zero,
    ← splice, List.countP_map]
  have converted : (t.pairs name).countP ((·.isSome) ∘ fun p => convert p.opener p.inner) =
      (pairEdits t name convert).length := (length_pairEdits t name convert).symm
  rw [← length_singles, converted]
  rfl

end Walk

/-! ## The pass -/

theorem pairwise_pairs (t name : Text) :
    (t.pairs name).Pairwise fun p q => p.closer.stop ≤ q.opener.start :=
  List.pairwise_map.1 (inOrder_pairsAmong t.markers t.inOrder_markers).pairwise

/-- The edits for pairs are in order, whatever is answered for them. -/
theorem inOrder_answerEdits (t name : Text) (answers : List (Option Text)) :
    Edit.InOrder 0 t.length (answerEdits (t.pairs name) answers) := by
  have ordered : Edit.InOrder 0 t.length ((t.pairs name).map MarkerPair.span) :=
    inOrder_pairsAmong t.markers t.inOrder_markers
  obtain ⟨n, answered⟩ : ∃ n, ((t.pairs name).zip answers).map (·.1) = (t.pairs name).take n := by
    refine ⟨min (t.pairs name).length answers.length, ?_⟩
    rw [List.zip_eq_zip_take_min, List.map_fst_zip (by simp)]
  rw [← List.take_append_drop n (t.pairs name), ← answered, List.map_append,
    List.map_map] at ordered
  obtain ⟨middle, left, right⟩ := ordered.exists_of_append
  refine (left.weaken right.le).filterMap fun x e made => ?_
  obtain ⟨new, -, rfl⟩ := Option.map_eq_some_iff.1 made
  exact ⟨rfl, rfl⟩

/-- **The pass for pairs.**  The pairs of a directive are its openers with the markers that close them,
in the order of the page.  The conversion is asked for each, once and in this order, and what stands
between its answers is copied; what is declined stays as it is. -/
theorem replacePairs_splices (t name : Text) :
    (∀ p, p ∈ t.pairs name ↔ ∃ before between behind,
        t.markers = before ++ p.opener :: (between ++ p.closer :: behind) ∧ p.opener.name = name ∧
          p.closer.closes name = true ∧ Others name between ∧
          p.inner = t.slice p.opener.stop p.closer.start) ∧
      (t.pairs name).Pairwise (fun p q => p.closer.stop ≤ q.opener.start) ∧
      (∀ {M : Type → Type} [Monad M] [LawfulMonad M],
        (∀ ask : Marker → Text → M (Option Text), t.askPairs name ask = (do
          let answers ← (t.pairs name).mapM fun p => ask p.opener p.inner
          pure ⟨t.splice (answerEdits (t.pairs name) answers), t.markers.countP (·.name = name),
            answers.countP (·.isSome)⟩)) ∧
        ∀ convert : Marker → Text → Option Text,
          t.askPairs name (fun m inner => (pure (convert m inner) : M (Option Text))) =
            pure (t.replacePairs name convert)) ∧
      (∀ answers, Edit.Splices 0 t (answerEdits (t.pairs name) answers)
        (t.splice (answerEdits (t.pairs name) answers))) ∧
      ∀ convert : Marker → Text → Option Text,
        (t.replacePairs name convert).found = t.markers.countP (·.name = name) ∧
          (t.replacePairs name convert).converted =
            (t.pairs name).countP (fun p => (convert p.opener p.inner).isSome) ∧
          Edit.Splices 0 t (pairEdits t name convert) (t.replacePairs name convert).text ∧
          ((∀ p ∈ t.pairs name, convert p.opener p.inner = none) →
            (t.replacePairs name convert).text = t) := by
  refine ⟨fun p => mem_pairsAmong_iff, pairwise_pairs t name, fun {M} _ _ => ⟨fun ask => ?_, fun _ => ?_⟩,
    fun answers => splices_splice (inOrder_answerEdits t name answers), fun convert => ?_⟩
  · exact askPairsFrom_eq t name ask t.markers t.inOrder_markers
  · exact askPairs_pure t name _
  · refine ⟨length_singles t name, length_pairEdits t name convert, ?_, fun declined => ?_⟩
    · have ordered := inOrder_answerEdits t name ((t.pairs name).map fun p => convert p.opener p.inner)
      rw [answerEdits_map] at ordered
      exact splices_splice ordered
    · have none : pairEdits t name convert = [] :=
        List.filterMap_eq_nil_iff.2 fun p mem => by rw [declined p mem, Option.map_none]
      exact congrArg t.splice none

/-- An opener that meets another opener first stays as it is. -/
example :
    replacePairs "\x7b% hint %\x7da\x7b% hint %\x7db\x7b% endhint %\x7d".toList "hint".toList
        (fun _ inner => some ('[' :: (inner ++ [']']))) =
      ⟨"\x7b% hint %\x7da[b]".toList, 2, 1⟩ := by
  decide +kernel

end Text
end MdxPress
