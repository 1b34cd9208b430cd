import MdxPress.Text.Edit

/-!
Edits that come one after another, and what they make of a text.

* `Edit.InOrder` is what `splice` asks of its edits;
* `Text.splice_append` is the law for a text that is put together from two: the edits of each part
  are carried out on each part;
* `Text.splices_splice` is the text that is copied and the texts that are put in, side by side.
-/

namespace MdxPress.Text

namespace Edit

/-- The same edit `n` characters further on. -/
def shift (n : Nat) (e : Edit) : Edit :=
  { e with start := n + e.start, stop := n + e.stop }

/-- Edits that come one after another between two positions. -/
def InOrder (start stop : Nat) : List Edit → Prop
  | [] => start ≤ stop
  | e :: es => start ≤ e.start ∧ e.start ≤ e.stop ∧ InOrder e.stop stop es

theorem InOrder.le {start stop : Nat} {es : List Edit} (ordered : InOrder start stop es) :
    start ≤ stop := by
  induction es generalizing start with
  | nil => exact ordered
  | cons e es ih =>
    obtain ⟨first, within, rest⟩ := ordered
    exact Nat.le_trans first (Nat.le_trans within (ih rest))

/-- Edits behind a position are behind every position before it. -/
theorem InOrder.mono {first start stop : Nat} {es : List Edit} (ordered : InOrder start stop es)
    (before : first ≤ start) : InOrder first stop es := by
  cases es with
  | nil => exact Nat.le_trans before ordered
  | cons e es => exact ⟨Nat.le_trans before ordered.1, ordered.2⟩

/-- Edits before a position are before every position behind it. -/
theorem InOrder.weaken {start stop last : Nat} {es : List Edit} (ordered : InOrder start stop es)
    (behind : stop ≤ last) : InOrder start last es := by
  induction es generalizing start with
  | nil => exact Nat.le_trans ordered behind
  | cons e es ih => exact ⟨ordered.1, ordered.2.1, ih ordered.2.2⟩

theorem InOrder.shift {start stop : Nat} {es : List Edit} (ordered : InOrder start stop es)
    (n : Nat) : InOrder (n + start) (n + stop) (es.map (Edit.shift n)) := by
  induction es generalizing start with
  | nil => exact Nat.add_le_add_left ordered n
  | cons e es ih =>
    obtain ⟨first, within, rest⟩ := ordered
    exact ⟨Nat.add_le_add_left first n, Nat.add_le_add_left within n, ih rest⟩

theorem InOrder.append {start middle stop : Nat} {es fs : List Edit}
    (left : InOrder start middle es) (right : InOrder middle stop fs) :
    InOrder start stop (es ++ fs) := by
  induction es generalizing start with
  | nil =>
    cases fs with
    | nil => exact Nat.le_trans left right
    | cons f fs => exact ⟨Nat.le_trans left right.1, right.2⟩
  | cons e es ih =>
    obtain ⟨first, within, rest⟩ := left
    exact ⟨first, within, ih rest⟩

/-- Edits in order fall in two at some position. -/
theorem InOrder.exists_of_append {start stop : Nat} {es fs : List Edit}
    (ordered : InOrder start stop (es ++ fs)) :
    ∃ middle, InOrder start middle es ∧ InOrder middle stop fs := by
  induction es generalizing start with
  | nil => exact ⟨start, Nat.le_refl start, ordered⟩
  | cons e es ih =>
    obtain ⟨first, within, rest⟩ := ordered
    obtain ⟨middle, left, right⟩ := ih rest
    exact ⟨middle, ⟨first, within, left⟩, right⟩

/-- Edits that are made for some of the items that come in order are in order. -/
theorem InOrder.filterMap {α : Type} {span : α → Edit} {f : α → Option Edit}
    (covers : ∀ x e, f x = some e → e.start = (span x).start ∧ e.stop = (span x).stop)
    {start stop : Nat} {xs : List α} (ordered : InOrder start stop (xs.map span)) :
    InOrder start stop (xs.filterMap f) := by
  induction xs generalizing start with
  | nil => exact ordered
  | cons x xs ih =>
    obtain ⟨first, within, rest⟩ := ordered
    rw [List.filterMap_cons]
    cases made : f x with
    | none => exact (ih rest).mono (Nat.le_trans first within)
    | some e =>
      obtain ⟨left, right⟩ := covers x e made
      exact ⟨left ▸ first, left ▸ right ▸ within, right ▸ ih rest⟩

/-- Of edits in order, each ends before the later ones begin. -/
theorem InOrder.pairwise {start stop : Nat} {es : List Edit} (ordered : InOrder start stop es) :
    es.Pairwise fun e f => e.stop ≤ f.start := by
  have behind {start stop : Nat} {es : List Edit} (ordered : InOrder start stop es) :
      ∀ e ∈ es, start ≤ e.start := by
    induction es generalizing start with
    | nil => exact nofun
    | cons e es ih =>
      obtain ⟨first, within, rest⟩ := ordered
      exact List.forall_mem_cons.2
        ⟨first, fun f mem => Nat.le_trans (Nat.le_trans first within) (ih rest f mem)⟩
  induction es generalizing start with
  | nil => exact .nil
  | cons e es ih => exact .cons (behind ordered.2.2) (ih ordered.2.2)

/-- What edits make of the text that begins at `pos`: the characters before an edit are copied, the
edit puts its text for the characters that it covers, and so on behind those; the rest is copied. -/
inductive Splices : Nat → Text → List Edit → Text → Prop
  | copy (pos : Nat) (t : Text) : Splices pos t [] t
  | edit {pos : Nat} (gap old new : Text) {rest out : Text} {es : List Edit}
      (behind : Splices (pos + gap.length + old.length) rest es out) :
      Splices pos (gap ++ (old ++ rest))
        (⟨pos + gap.length, pos + gap.length + old.length, new⟩ :: es) (gap ++ (new ++ out))

end Edit

theorem splices_spliceFrom {pos : Nat} {t : Text} {es : List Edit}
    (ordered : Edit.InOrder pos (pos + t.length) es) : Edit.Splices pos t es (spliceFrom pos t es) := by
  induction es generalizing pos t with
  | nil => exact .copy pos t
  | cons e es ih =>
    obtain ⟨first, within, rest⟩ := ordered
    have last := rest.le
    obtain ⟨gap, old, tail, rfl, start, stop⟩ : ∃ gap old tail : Text, t = gap ++ (old ++ tail) ∧
        e.start = pos + gap.length ∧ e.stop = e.start + old.length := by
      refine ⟨t.take (e.start - pos), (t.drop (e.start - pos)).take (e.stop - e.start),
        (t.drop (e.start - pos)).drop (e.stop - e.start), ?_, ?_, ?_⟩
      · rw [List.take_append_drop, List.take_append_drop]
      · rw [List.length_take]
        omega
      · rw [List.length_take, List.length_drop]
        omega
    obtain ⟨i, j, new⟩ := e
    obtain rfl : i = pos + gap.length := start
    obtain rfl : j = pos + gap.length + old.length := stop
    have copied : pos + gap.length - pos = gap.length := Nat.add_sub_cancel_left ..
    have covered : pos + gap.length + old.length - pos = gap.length + old.length := by omega
    have later : Edit.Splices (pos + gap.length + old.length) tail es _ :=
      ih (rest.weaken (by simp [Nat.add_assoc]))
    rw [spliceFrom, copied, covered, List.take_left, ← List.drop_drop, List.drop_left,
      List.drop_left, List.append_assoc]
    exact .edit gap old new later

/-- **Edits in order**, carried out. -/
theorem splices_splice {t : Text} {es : List Edit} (ordered : Edit.InOrder 0 t.length es) :
    Edit.Splices 0 t es (t.splice es) :=
  splices_spliceFrom (by rwa [Nat.zero_add])

theorem spliceFrom_shift (n pos : Nat) (t : Text) (es : List Edit) :
    spliceFrom (n + pos) t (es.map (Edit.shift n)) = spliceFrom pos t es := by
  induction es generalizing pos t with
  | nil => rfl
  | cons e es ih => simp [spliceFrom, Edit.shift, Nat.add_sub_add_left, ih]

/-- Edits behind the first of two texts copy it. -/
theorem spliceFrom_behind (pos : Nat) {stop : Nat} (a b : Text) {fs : List Edit}
    (behind : Edit.InOrder (pos + a.length) stop fs) :
    spliceFrom pos (a ++ b) fs = a ++ spliceFrom (pos + a.length) b fs := by
  cases fs with
  | nil => rfl
  | cons f fs =>
    obtain ⟨first, within, -⟩ := behind
    have start : f.start - pos = a.length + (f.start - (pos + a.length)) := by omega
    have stop : f.stop - pos = a.length + (f.stop - (pos + a.length)) := by omega
    rw [spliceFrom, spliceFrom, start, stop, List.take_length_add_append,
      List.drop_length_add_append]
    simp only [List.append_assoc]

theorem spliceFrom_append {pos stop : Nat} (a b : Text) {es fs : List Edit}
    (left : Edit.InOrder pos (pos + a.length) es)
    (right : Edit.InOrder (pos + a.length) stop fs) :
    spliceFrom pos (a ++ b) (es ++ fs) =
      spliceFrom pos a es ++ spliceFrom (pos + a.length) b fs := by
  induction es generalizing pos a with
  | nil => exact spliceFrom_behind pos a b right
  | cons e es ih =>
    obtain ⟨first, within, rest⟩ := left
    have inside := rest.le
    have length : e.stop + (a.drop (e.stop - pos)).length = pos + a.length := by
      rw [List.length_drop]; omega
    have later := ih (a.drop (e.stop - pos)) (by rw [length]; exact rest)
      (by rw [length]; exact right)
    rw [List.cons_append, spliceFrom, spliceFrom, List.take_append_of_le_length (by omega),
      List.drop_append_of_le_length (by omega), later, length]
    simp only [List.append_assoc]

/-- **Edits of two texts put together.** -/
theorem splice_append {a b : Text} {es fs : List Edit} (left : Edit.InOrder 0 a.length es)
    (right : Edit.InOrder 0 b.length fs) :
    splice (a ++ b) (es ++ fs.map (Edit.shift a.length)) = splice a es ++ splice b fs := by
  have moved := right.shift a.length
  have parts : spliceFrom 0 (a ++ b) (es ++ fs.map (Edit.shift a.length)) =
      spliceFrom 0 a es ++ spliceFrom (0 + a.length) b (fs.map (Edit.shift a.length)) :=
    spliceFrom_append a b (by rw [Nat.zero_add]; exact left) (by rw [Nat.zero_add]; exact moved)
  rw [splice, parts, Nat.zero_add]
  exact congrArg (splice a es ++ ·) (spliceFrom_shift a.length 0 b fs)

end MdxPress.Text
