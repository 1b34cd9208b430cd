import MdxPress.Yaml.Value
import MdxPress.Yaml.Value.OfTree

/-!
What a document says does not depend on the entries that its mapping begins with.

* `Tree.unhurt_expand` allows more aliases, which changes nothing where all goes well;
* `Value.ofTree_swap` puts other entries in front;
* `Value.equals` decides along two values whether they are equal.  It is finer than being the same key: the
  two zeroes of a number differ here, and so do a value and the same value with a tag.

Caveat: a document may follow a hundred aliases for every part of it, so the entries that are put in
front must be no fewer than those that were there.
-/

namespace MdxPress.Yaml

/-- Whether a tree has a value. -/
def Tree.HasValue (t : Tree) : Prop :=
  ∃ v, Value.ofTree t = .ok v

namespace Value

theorem hasValue_of_ofItems {ts : List Tree} {vs : List Value} (read : ofItems ts = .ok vs) :
    ∀ t ∈ ts, t.HasValue := by
  induction ts generalizing vs with
  | nil => simp
  | cons t ts ih =>
    rw [ofItems] at read
    cases first : ofTree t with
    | error e => rw [first] at read; cases read
    | ok v =>
      cases later : ofItems ts with
      | error e => rw [first, later] at read; cases read
      | ok ws => exact List.forall_mem_cons.2 ⟨⟨v, first⟩, ih later⟩

theorem hasValue_of_ofEntries {ts : List (Tree × Tree)} {m : Mapping} (read : ofEntries ts = .ok m) :
    ∀ t ∈ ts, t.1.HasValue ∧ t.2.HasValue := by
  induction ts generalizing m with
  | nil => simp
  | cons t ts ih =>
    obtain ⟨k, v⟩ := t
    rw [ofEntries] at read
    cases key : ofTree k with
    | error e => rw [key] at read; cases read
    | ok kv =>
      cases value : ofTree v with
      | error e => rw [key, value] at read; cases read
      | ok vv =>
        cases later : ofEntries ts with
        | error e => rw [key, value, later] at read; cases read
        | ok ws => exact List.forall_mem_cons.2 ⟨⟨⟨kv, key⟩, ⟨vv, value⟩⟩, ih later⟩

end Value

namespace Tree

/-! ## Aliases that may still be followed -/

/-- More aliases allowed change nothing for a result that is good. -/
def Unhurt {α : Type} (good : α → Prop) (f : StateM Nat α) : Prop :=
  ∀ budget a left, f budget = (a, left) → good a → ∀ more, f (budget + more) = (a, left + more)

variable {α β : Type}

theorem run_pure (a : α) (budget : Nat) : (pure a : StateM Nat α) budget = (a, budget) :=
  rfl

theorem run_bind (f : StateM Nat α) (g : α → StateM Nat β) (budget : Nat) :
    (f >>= g) budget = g (f budget).1 (f budget).2 :=
  rfl

theorem Unhurt.mapM {good : β → Prop} {f : α → StateM Nat β} {xs : List α}
    (each : ∀ x ∈ xs, Unhurt good (f x)) : Unhurt (fun ys => ∀ y ∈ ys, good y) (xs.mapM f) := by
  induction xs with
  | nil =>
    rintro budget _ _ ⟨⟩ - more
    rfl
  | cons x xs ih =>
    have later := ih fun y mem => each y (.tail _ mem)
    intro budget ys left result goods more
    rw [List.mapM_cons] at result ⊢
    simp only [run_bind, run_pure] at result ⊢
    cases first : f x budget with
    | mk y middle =>
      cases rest : xs.mapM f middle with
      | mk zs last =>
        simp only [first, rest] at result
        obtain ⟨rfl, rfl⟩ := result
        obtain ⟨good, goods⟩ := List.forall_mem_cons.1 goods
        simp [each x (.head _) budget y middle first good more, later middle zs left rest goods more]

/-- The trees of an entry. -/
def expandEntry (anchors : List (Nat × Node)) (depth : Nat) (e : Node × Node) :
    StateM Nat (Tree × Tree) := do
  return (← expand anchors depth e.1, ← expand anchors depth e.2)

variable (anchors : List (Nat × Node))

/-- A bind is unhurt where both of its parts are. -/
theorem Unhurt.bind {good : β → Prop} {fits : α → Prop} {f : StateM Nat α} {g : α → StateM Nat β}
    (first : Unhurt fits f) (fit : ∀ budget a left, f budget = (a, left) → good (g a left).1 → fits a)
    (later : ∀ a, Unhurt good (g a)) : Unhurt good (f >>= g) := by
  intro budget b left result goods more
  rw [run_bind] at result ⊢
  cases part : f budget with
  | mk a middle =>
    simp only [part] at result
    have fitting := fit budget a middle part (by rw [result]; exact goods)
    rw [first budget a middle part fitting more]
    exact later a middle b left result goods more

theorem unhurt_pure (good : α → Prop) (a : α) : Unhurt good (pure a) := by
  rintro budget _ _ ⟨⟩ - more
  rfl

theorem unhurt_follow (n : Node) :
    Unhurt (fun r => ∃ m, r = Except.ok m) (follow anchors n) := by
  intro budget r left result ⟨m, good⟩ more
  subst good
  cases n with
  | «alias» a =>
    cases budget with
    | zero => cases result
    | succ budget =>
      rw [Nat.succ_add]
      simp only [follow] at result ⊢
      cases found : anchors.reverse.lookup a with
      | none => rw [found] at result; cases result
      | some t => rw [found] at result; cases result; rfl
  | scalar | sequence | mapping => cases result; rfl

theorem unhurt_expandEntry {depth : Nat} (each : ∀ n, Unhurt HasValue (expand anchors depth n))
    (e : Node × Node) :
    Unhurt (fun t => t.1.HasValue ∧ t.2.HasValue) (expandEntry anchors depth e) :=
  (each e.1).bind (fun _ _ _ _ good => good.1) fun _ =>
    (each e.2).bind (fun _ _ _ _ good => good.2) fun _ => unhurt_pure _ _

/-- **The budget of aliases does not matter to a tree that has a value.** -/
theorem unhurt_expand (depth : Nat) (n : Node) : Unhurt HasValue (expand anchors depth n) := by
  have failed (e : Error) : ¬(Tree.failed e).HasValue := by rintro ⟨v, read⟩; cases read
  induction depth generalizing n with
  | zero =>
    refine (unhurt_follow anchors n).bind ?_ ?_
    · intro budget r left _ good
      cases r with
      | ok m => exact ⟨m, rfl⟩
      | error e => exact (failed e good).elim
    · intro r
      cases r with
      | error e => exact unhurt_pure _ _
      | ok m => cases m <;> exact unhurt_pure _ _
  | succ depth ih =>
    refine (unhurt_follow anchors n).bind ?_ ?_
    · intro budget r left _ good
      cases r with
      | ok m => exact ⟨m, rfl⟩
      | error e => exact (failed e good).elim
    · intro r
      cases r with
      | error e => exact unhurt_pure _ _
      | ok m =>
        cases m with
        | «alias» | scalar => exact unhurt_pure _ _
        | sequence p items =>
          have parts : Unhurt (fun ts => ∀ t ∈ ts, HasValue t) (items.mapM (expand anchors depth)) :=
            .mapM fun n _ => ih n
          refine parts.bind ?_ fun ts => unhurt_pure _ _
          rintro budget ts left - ⟨v, read⟩
          cases items : Value.ofItems ts with
          | error e => simp [run_pure, Value.ofTree, items, Except.map] at read
          | ok vs => exact Value.hasValue_of_ofItems items
        | mapping p es =>
          have parts : Unhurt (fun ts => ∀ t ∈ ts, t.1.HasValue ∧ t.2.HasValue)
              (es.mapM (expandEntry anchors depth)) :=
            .mapM fun e _ => unhurt_expandEntry anchors ih e
          refine parts.bind ?_ fun ts => unhurt_pure _ _
          rintro budget ts left - ⟨v, read⟩
          cases entries : Value.ofEntries ts with
          | error e => simp [run_pure, Value.ofTree, entries, Except.bind] at read
          | ok m => exact Value.hasValue_of_ofEntries entries

/-! ## Entries in front of others -/

/-- Entries without aliases and anchors, with their trees. -/
structure Steady (es : List (Node × Node)) (ts : List (Tree × Tree)) : Prop where
  anchors : entryAnchors es = []
  expands : ∀ anchors budget, es.mapM (expandEntry anchors 127) budget = (ts, budget)

theorem entryAnchors_append (es fs : List (Node × Node)) :
    entryAnchors (es ++ fs) = entryAnchors es ++ entryAnchors fs := by
  induction es with
  | nil => rfl
  | cons e es ih =>
    obtain ⟨k, v⟩ := e
    rw [List.cons_append, entryAnchors, ih, entryAnchors, List.append_assoc, List.append_assoc,
      List.append_assoc]

theorem entryParts_append (es fs : List (Node × Node)) :
    entryParts (es ++ fs) = entryParts es + entryParts fs := by
  induction es with
  | nil => rw [List.nil_append, entryParts, Nat.zero_add]
  | cons e es ih =>
    obtain ⟨k, v⟩ := e
    rw [List.cons_append, entryParts, ih, entryParts]
    omega

/-- The tree of a mapping that begins with steady entries. -/
theorem ofNode_mapping {es : List (Node × Node)} {ts : List (Tree × Tree)} (steady : Steady es ts)
    (later : List (Node × Node)) :
    ofNode (.mapping .none (es ++ later)) = .mapping none (ts ++
      (later.mapM (expandEntry (entryAnchors later) 127)
        (100 * (2 + entryParts es + entryParts later))).1) := by
  have anchors : (Node.mapping .none (es ++ later)).anchors = entryAnchors later := by
    rw [Node.anchors, entryAnchors_append, steady.anchors]
    rfl
  have parts : (Node.mapping .none (es ++ later)).parts = 2 + entryParts es + entryParts later := by
    rw [Node.parts, entryParts_append, Nat.add_assoc]
  have entries := steady.expands (entryAnchors later) (100 * (2 + entryParts es + entryParts later))
  rw [ofNode, anchors, parts]
  have unfolded : expand (entryAnchors later) maxDepth (.mapping .none (es ++ later)) =
      (es ++ later).mapM (expandEntry (entryAnchors later) 127) >>= fun ts =>
        pure (.mapping none ts) := rfl
  rw [unfolded, List.mapM_append]
  simp only [run_bind, entries]
  rfl

end Tree

namespace Value

theorem ofEntries_append (ts us : List (Tree × Tree)) :
    ofEntries (ts ++ us) = (ofEntries ts).bind fun m => (ofEntries us).map (m ++ ·) := by
  induction ts with
  | nil =>
    rw [List.nil_append, ofEntries]
    cases ofEntries us <;> rfl
  | cons t ts ih =>
    obtain ⟨k, v⟩ := t
    rw [List.cons_append, ofEntries, ofEntries, ih]
    cases ofTree k with
    | error e => rfl
    | ok kv =>
      cases ofTree v with
      | error e => rfl
      | ok vv =>
        cases ofEntries ts with
        | error e => rfl
        | ok m => cases ofEntries us <;> rfl

end Value

/-- **Behind other entries a document says the same**, if those are no fewer and the keys differ. -/
theorem Value.ofTree_swap {es fs later : List (Node × Node)} {ts us : List (Tree × Tree)}
    (left : Tree.Steady es ts) (right : Tree.Steady fs us) (fewer : entryParts es ≤ entryParts fs)
    {m extra : Mapping} (before : ofEntries ts = .ok m)
    (distinct : ∀ m', ofEntries us = .ok m' →
      hasDuplicateKey (m ++ extra) = false → hasDuplicateKey (m' ++ extra) = false)
    (read : ofTree (Tree.ofNode (.mapping .none (es ++ later))) = .ok (.mapping (m ++ extra))) :
    ofTree (Tree.ofNode (.mapping .none (fs ++ later))) =
      (ofEntries us).map fun m' => .mapping (m' ++ extra) := by
  rw [Tree.ofNode_mapping left, ofTree] at read
  rw [Tree.ofNode_mapping right, ofTree]
  cases first : later.mapM (Tree.expandEntry (entryAnchors later) 127)
      (100 * (2 + entryParts es + entryParts later)) with
  | mk vs budget =>
    rw [first, ofEntries_append, before] at read
    cases behind : ofEntries vs with
    | error e => rw [behind] at read; cases read
    | ok m₁ =>
      simp only [behind, Except.bind, Except.map] at read
      split at read
      · cases read
      · rename_i single
        obtain rfl : m₁ = extra := by simpa [withTag] using read
        have unhurt : Tree.Unhurt _ (later.mapM (Tree.expandEntry (entryAnchors later) 127)) :=
          .mapM fun e _ => Tree.unhurt_expandEntry (entryAnchors later) (Tree.unhurt_expand _ 127) e
        have more := unhurt _ vs budget first (hasValue_of_ofEntries behind)
          (100 * (entryParts fs - entryParts es))
        have budgets : 100 * (2 + entryParts es + entryParts later) +
            100 * (entryParts fs - entryParts es) = 100 * (2 + entryParts fs + entryParts later) := by
          omega
        rw [budgets] at more
        rw [more, ofEntries_append]
        cases after : ofEntries us with
        | error e => rfl
        | ok m' =>
          have single := distinct m' after (by simpa using single)
          simp [Except.bind, Except.map, behind, single, withTag]

/-! ## Equal values -/

mutual

/-- Whether two values are equal. -/
def Value.equals : Value → Value → Bool
  | .null, .null => true
  | .bool a, .bool b => a == b
  | .int n, .int m => n == m
  | .float f, .float g => f == g
  | .string s, .string t => s == t
  | .sequence vs, .sequence ws => itemsEqual vs ws
  | .mapping es, .mapping fs => entriesEqual es fs
  | .tagged s v, .tagged t w => s == t && v.equals w
  | _, _ => false

/-- Whether items are equal one by one. -/
def itemsEqual : List Value → List Value → Bool
  | [], [] => true
  | v :: vs, w :: ws => v.equals w && itemsEqual vs ws
  | _, _ => false

/-- Whether entries are equal one by one, and stand in the same order. -/
def entriesEqual : Mapping → Mapping → Bool
  | [], [] => true
  | (k, v) :: es, (l, w) :: fs => k.equals l && v.equals w && entriesEqual es fs
  | _, _ => false

end

mutual

theorem Value.equals_iff (v w : Value) : v.equals w = true ↔ v = w := by
  cases v with
  | sequence vs =>
    cases w with
    | sequence ws => simp [Value.equals, itemsEqual_iff vs ws]
    | _ => simp [Value.equals]
  | mapping es =>
    cases w with
    | mapping fs => simp [Value.equals, entriesEqual_iff es fs]
    | _ => simp [Value.equals]
  | tagged s v =>
    cases w with
    | tagged t w => simp [Value.equals, Value.equals_iff v w]
    | _ => simp [Value.equals]
  | _ => cases w <;> simp [Value.equals]

theorem itemsEqual_iff (vs ws : List Value) : itemsEqual vs ws = true ↔ vs = ws := by
  cases vs with
  | nil => cases ws <;> simp [itemsEqual]
  | cons v vs =>
    cases ws with
    | nil => simp [itemsEqual]
    | cons w ws => simp [itemsEqual, Value.equals_iff v w, itemsEqual_iff vs ws]

theorem entriesEqual_iff (es fs : Mapping) : entriesEqual es fs = true ↔ es = fs := by
  cases es with
  | nil => cases fs <;> simp [entriesEqual]
  | cons e es =>
    obtain ⟨k, v⟩ := e
    cases fs with
    | nil => simp [entriesEqual]
    | cons f fs =>
      obtain ⟨l, w⟩ := f
      simp [entriesEqual, Value.equals_iff k l, Value.equals_iff v w, entriesEqual_iff es fs]

end

instance : DecidableEq Value := fun v w => decidable_of_iff _ (Value.equals_iff v w)

end MdxPress.Yaml
