import Mathlib.Data.List.Forall2
import Mathlib.Data.List.Nodup
import MdxPress.Directive.TabGroup
import MdxPress.Proofs.Marker.Replace
import MdxPress.Proofs.Text.Case

/-!
The values of tabs.  They are names that are claimed one after another: a name is given as it is wished
for if it is free, and with the smallest number behind it that makes it free otherwise.  The numbered
forms of a name are distinct, so among one more of them than names are in use there is a free one.

* `Name.isClaim_claim` says which name is given, and `Name.isClaim_claimAll` which ones are, when names
  are claimed from one another;
* `Name.nodup_claimAll` says that no name is given twice;
* `Name.isTame_tabValue` and `Name.isTame_of_mem_claimAll` say what the values of tabs are made of;
* `TabGroup.bodies?_ne_none_iff` says which markers can be read as tabs, `TabGroup.of_entries?` what the
  tabs of a group are, and `TabGroup.values_distinct` that their values tell them apart.

Caveat: a name that is made by numbering is in use from then on, like any other, and may stand in the
way of one that is wished for later.
-/

namespace MdxPress

namespace Name

/-! ## Numbered names -/

theorem ofNat_injective : Function.Injective Text.ofNat := by
  intro m n same
  have read := congrArg (fun digits => Nat.ofDigitChars 10 digits 0) same
  simpa [Text.ofNat] using read

theorem ofNat_ne_nil (n : Nat) : Text.ofNat n ≠ [] :=
  Nat.toDigits_ne_nil

theorem numbered_injective (base : Text) : Function.Injective (numbered base) := by
  intro m n same
  cases m with
  | zero =>
    cases n with
    | zero => rfl
    | succ n => exact (ofNat_ne_nil _ (List.self_eq_append_right.1 same)).elim
  | succ m =>
    cases n with
    | zero => exact (ofNat_ne_nil _ (List.append_right_eq_self.1 same)).elim
    | succ n => exact ofNat_injective (List.append_cancel_left same)

/-- Of the numbered forms of a name, more than there are names in use, one is free. -/
theorem exists_free (used : List Text) (base : Text) :
    ∃ n < used.length + 1, numbered base n ∉ used := by
  by_contra none
  push Not at none
  have forms : ((List.range (used.length + 1)).map (numbered base)).Nodup :=
    List.nodup_range.map (numbered_injective base)
  have inUse : (List.range (used.length + 1)).map (numbered base) ⊆ used := by
    intro v mem
    obtain ⟨n, small, rfl⟩ := List.mem_map.1 mem
    exact none n (List.mem_range.1 small)
  have longer := forms.length_le_of_subset inUse
  rw [List.length_map, List.length_range] at longer
  omega

/-! ## One claim -/

/-- What is given for a name: the name itself if it is not in use, and otherwise the name with the
smallest number behind it, from 1 on, that gives one not in use. -/
structure IsClaim (used : List Text) (base v : Text) : Prop where
  free : v ∉ used
  unused : base ∉ used → v = base
  numbered : base ∈ used → ∃ k, 1 ≤ k ∧ v = base ++ Text.ofNat k ∧
    ∀ j, 1 ≤ j → j < k → base ++ Text.ofNat j ∈ used

theorem IsClaim.congr {used used' : List Text} {base v : Text} (isClaim : IsClaim used base v)
    (same : ∀ x, x ∈ used ↔ x ∈ used') : IsClaim used' base v := by
  obtain ⟨free, unused, numbered⟩ := isClaim
  simp only [same] at free unused numbered
  exact ⟨free, unused, numbered⟩

/-- The form that is claimed, and those before it. -/
theorem exists_numbered_claim (used : List Text) (base : Text) :
    ∃ n, claim used base = numbered base n ∧ numbered base n ∉ used ∧
      ∀ j < n, numbered base j ∈ used := by
  obtain ⟨m, small, free⟩ := exists_free used base
  unfold claim
  cases found : ((List.range (used.length + 1)).map (numbered base)).find?
      fun v => !used.contains v with
  | none =>
    have taken := List.find?_eq_none.1 found _ (List.mem_map.2 ⟨m, List.mem_range.2 small, rfl⟩)
    exact absurd free (by simpa using taken)
  | some v =>
    obtain ⟨isFree, n, within, rfl, before⟩ := List.find?_eq_some_iff_getElem.1 found
    refine ⟨n, by simp, by simpa using isFree, fun j earlier => ?_⟩
    simpa using before j earlier

/-- **What a claim gives.** -/
theorem isClaim_claim (used : List Text) (base : Text) : IsClaim used base (claim used base) := by
  obtain ⟨n, given, free, before⟩ := exists_numbered_claim used base
  rw [given]
  refine ⟨free, fun unused => ?_, fun inUse => ?_⟩
  · cases n with
    | zero => rfl
    | succ n => exact absurd (before 0 n.succ_pos) unused
  · cases n with
    | zero => exact absurd inUse free
    | succ n =>
      refine ⟨n + 1, n.succ_pos, rfl, fun j first second => ?_⟩
      obtain ⟨j, rfl⟩ := Nat.exists_eq_add_of_le' first
      exact before (j + 1) second

/-! ## Claims one after another -/

@[simp]
theorem length_claimAll (used bases : List Text) : (claimAll used bases).length = bases.length := by
  induction bases generalizing used with
  | nil => rfl
  | cons b bases ih => simp [claimAll, ih]

/-- Each name is claimed from those that were given before it, and those in use from the beginning. -/
theorem isClaim_claimAll {used bases : List Text} {i : Nat} {base v : Text}
    (wish : bases[i]? = some base) (given : (claimAll used bases)[i]? = some v) :
    IsClaim ((claimAll used bases).take i ++ used) base v := by
  induction bases generalizing used i with
  | nil => cases wish
  | cons b bases ih =>
    cases i with
    | zero =>
      obtain rfl := Option.some.inj wish
      obtain rfl := Option.some.inj given
      exact isClaim_claim used b
    | succ i =>
      refine (ih wish given).congr fun x => ?_
      simp only [claimAll, List.take_succ_cons, List.mem_append, List.mem_cons]
      tauto

/-- **No name is given twice**, and none that is in use. -/
theorem nodup_claimAll (used bases : List Text) :
    (claimAll used bases).Nodup ∧ ∀ v ∈ claimAll used bases, v ∉ used := by
  induction bases generalizing used with
  | nil => exact ⟨.nil, nofun⟩
  | cons b bases ih =>
    obtain ⟨distinct, apart⟩ := ih (claim used b :: used)
    refine ⟨List.nodup_cons.2 ⟨fun again => apart _ again (.head _), distinct⟩, ?_⟩
    refine List.forall_mem_cons.2 ⟨(isClaim_claim used b).free, fun v mem => ?_⟩
    exact fun inUse => apart v mem (.tail _ inUse)

/-! ## What names are made of -/

/-- A lowercase ASCII letter or a digit. -/
def IsTame (c : Char) : Prop :=
  ('a' ≤ c ∧ c ≤ 'z') ∨ ('0' ≤ c ∧ c ≤ '9')

instance (c : Char) : Decidable (IsTame c) :=
  inferInstanceAs (Decidable (_ ∨ _))

theorem IsTame.isAsciiAlnum {c : Char} (tame : IsTame c) : Text.isAsciiAlnum c = true := by
  simp only [Text.isAsciiAlnum, Text.isAsciiLetter, Text.isAsciiDigit, Bool.or_eq_true,
    Bool.and_eq_true, decide_eq_true_eq]
  exact tame.imp .inl id

/-- A letter or digit of ASCII that is no capital. -/
theorem isTame_of_isAsciiAlnum {c : Char} (letter : Text.isAsciiAlnum c = true)
    (small : ¬ Text.IsCapital c) : IsTame c := by
  simp only [Text.isAsciiAlnum, Text.isAsciiLetter, Text.isAsciiDigit, Bool.or_eq_true,
    Bool.and_eq_true, decide_eq_true_eq] at letter
  rcases letter with (low | ⟨first, last⟩) | digit
  · exact .inl low
  · exact (small ⟨UInt32.le_iff_toNat_le.1 first, UInt32.le_iff_toNat_le.1 last⟩).elim
  · exact .inr digit

theorem isTame_ofNat (n : Nat) : ∀ c ∈ Text.ofNat n, IsTame c := by
  intro c mem
  have digit := Nat.isDigit_of_mem_toDigits (b := 10) (by decide) (by decide) mem
  simp only [Char.isDigit, Bool.and_eq_true, decide_eq_true_eq] at digit
  exact .inr digit

theorem isTame_tabValue (title : Text) (position : Nat) :
    tabValue title position ≠ [] ∧ ∀ c ∈ tabValue title position, IsTame c := by
  simp only [tabValue]
  split
  · decide
  · split
    · decide
    · split
      · split <;> decide
      · split
        case isTrue =>
          exact ⟨by simp, List.forall_mem_append.2 ⟨by decide, isTame_ofNat position⟩⟩
        case isFalse filled =>
          refine ⟨by simpa using filled, fun c mem => ?_⟩
          obtain ⟨lower, letter⟩ := List.mem_filter.1 mem
          exact isTame_of_isAsciiAlnum letter (Text.not_isCapital_of_mem_lower lower)

theorem isTame_claim (used : List Text) {base : Text} (tame : base ≠ [] ∧ ∀ c ∈ base, IsTame c) :
    claim used base ≠ [] ∧ ∀ c ∈ claim used base, IsTame c := by
  obtain ⟨n, given, -⟩ := exists_numbered_claim used base
  rw [given]
  cases n with
  | zero => exact tame
  | succ n =>
    exact ⟨List.append_ne_nil_of_left_ne_nil tame.1 _,
      List.forall_mem_append.2 ⟨tame.2, isTame_ofNat (n + 1)⟩⟩

theorem isTame_of_mem_claimAll {bases : List Text} (tame : ∀ b ∈ bases, b ≠ [] ∧ ∀ c ∈ b, IsTame c)
    (used : List Text) {v : Text} (mem : v ∈ claimAll used bases) : v ≠ [] ∧ ∀ c ∈ v, IsTame c := by
  induction bases generalizing used with
  | nil => cases mem
  | cons b bases ih =>
    obtain ⟨first, later⟩ := List.forall_mem_cons.1 tame
    rcases List.mem_cons.1 mem with rfl | mem
    · exact isTame_claim used first
    · exact ih later _ mem

end Name

/-! ## The tabs of a group -/

/-- The entry of the tab that a marker opens: the next marker closes the tab, the title is that of the
marker, and the content is what stands between the two. -/
def TabEntry.IsOf (t : Text) (m : Marker) (e : TabEntry) : Prop :=
  ∃ k, [m, k] <:+: t.markers ∧ k.closes "tab".toList = true ∧
    e = TabGroup.entry ((m.attribute? "title".toList).getD []).trim (t.slice m.stop k.start) e.value

namespace TabGroup

/-- The marker behind each marker of a tab closes the tab. -/
def AllClosed (ms : List Marker) : Prop :=
  ∀ m behind, m :: behind <:+ ms → m.name = "tab".toList →
    ∃ k ∈ behind.head?, k.closes "tab".toList = true

theorem allClosed_cons {m : Marker} {ms : List Marker} :
    AllClosed (m :: ms) ↔
      (m.name = "tab".toList → ∃ k ∈ ms.head?, k.closes "tab".toList = true) ∧ AllClosed ms := by
  constructor
  · intro closed
    exact ⟨closed m ms (List.suffix_refl _), fun k behind part =>
      closed k behind (part.trans (List.suffix_cons m ms))⟩
  · rintro ⟨first, later⟩ k behind part
    rcases List.suffix_cons_iff.1 part with same | part
    · cases same
      exact first
    · exact later k behind part

/-- **The tabs of a group can be read** exactly when each of them is closed by the next marker. -/
theorem bodies?_ne_none_iff (t : Text) (ms : List Marker) : bodies? t ms ≠ none ↔ AllClosed ms := by
  fun_induction bodies? t ms with
  | case1 => exact iff_of_true nofun fun m behind part => by simp at part
  | case2 m isTab =>
    refine iff_of_false (by simp) fun closed => ?_
    obtain ⟨k, next, -⟩ := closed m [] (List.suffix_refl _) isTab
    cases next
  | case3 m other => exact iff_of_true nofun (allClosed_cons.2 ⟨fun isTab => (other isTab).elim,
      fun m behind part => by simp at part⟩)
  | case4 m k ms isTab closes ih =>
    have inner : AllClosed (k :: ms) ↔ AllClosed ms := by
      rw [allClosed_cons, and_iff_right]
      exact fun again => (Text.name_ne_of_closes closes again).elim
    rw [allClosed_cons, and_iff_right fun _ => ⟨k, rfl, closes⟩, inner, ← ih, Ne, Ne, Option.map_eq_none_iff]
  | case5 m k ms isTab stays =>
    refine iff_of_false (by simp) fun closed => ?_
    obtain ⟨k', next, closes⟩ := closed m (k :: ms) (List.suffix_refl _) isTab
    cases next
    exact stays closes
  | case6 m k ms other ih =>
    rw [ih, allClosed_cons (m := m), and_iff_right fun isTab => (other isTab).elim]

/-- **Each marker of a tab gives one tab**, in the order of the markers. -/
theorem forall₂_bodies? {t : Text} {ms : List Marker} {raw : List (Text × Text)}
    (read : bodies? t ms = some raw) :
    List.Forall₂ (fun m p => ∃ k, [m, k] <:+: ms ∧ k.closes "tab".toList = true ∧
      p = (((m.attribute? "title".toList).getD []).trim, t.slice m.stop k.start))
        (ms.filter (·.name == "tab".toList)) raw := by
  fun_induction bodies? t ms generalizing raw with
  | case1 => cases read; exact .nil
  | case2 | case5 => cases read
  | case3 m other =>
    cases read
    rw [List.filter_cons_of_neg (by simpa using other)]
    exact .nil
  | case4 m k ms isTab closes ih =>
    obtain ⟨later, rest, rfl⟩ := Option.map_eq_some_iff.1 read
    have other := Text.name_ne_of_closes closes
    rw [List.filter_cons_of_pos (by simpa using isTab), List.filter_cons_of_neg (by simpa using other)]
    refine .cons ⟨k, (List.prefix_append [m, k] ms).isInfix, closes, rfl⟩ ((ih rest).imp ?_)
    rintro n p ⟨j, next, shape⟩
    exact ⟨j, next.trans (List.suffix_append [m, k] ms).isInfix, shape⟩
  | case6 m k ms other ih =>
    rw [List.filter_cons_of_neg (by simpa using other)]
    refine (ih read).imp ?_
    rintro n p ⟨j, next, shape⟩
    exact ⟨j, next.trans (List.suffix_cons m _).isInfix, shape⟩

/-! ## The values of a group -/

@[simp]
theorem length_values (titles : List Text) : (values titles).length = titles.length := by
  simp [values]

theorem nodup_values (titles : List Text) : (values titles).Nodup :=
  (Name.nodup_claimAll [] _).1

theorem isTame_of_mem_values {titles : List Text} {v : Text} (mem : v ∈ values titles) :
    v ≠ [] ∧ ∀ c ∈ v, Name.IsTame c := by
  refine Name.isTame_of_mem_claimAll (fun base wish => ?_) [] mem
  obtain ⟨⟨title, i⟩, -, rfl⟩ := List.mem_map.1 wish
  exact Name.isTame_tabValue title (i + 1)

variable {inner : Text} {es : List TabEntry}

/-- What a group is read as: its tabs, with the values that are claimed for their titles. -/
theorem entries?_eq_some_iff :
    entries? inner = some es ↔ ∃ raw, bodies? inner inner.markers = some raw ∧ raw ≠ [] ∧
      es = List.zipWith (fun p v => entry p.1 p.2 v) raw (values (raw.map (·.1))) := by
  rw [entries?, Option.bind_eq_some_iff]
  refine exists_congr fun raw => and_congr_right fun _ => ?_
  split
  case isTrue empty => simp [List.isEmpty_iff.1 empty]
  case isFalse filled => simp [List.isEmpty_iff.not.1 filled, eq_comm]

/-- A group is read when it has tabs and each of them is closed. -/
theorem entries?_ne_none_iff (inner : Text) :
    entries? inner ≠ none ↔ inner.singles "tab".toList ≠ [] ∧ AllClosed inner.markers := by
  rw [← bodies?_ne_none_iff inner, Option.ne_none_iff_exists', Option.ne_none_iff_exists']
  simp only [entries?_eq_some_iff]
  constructor
  · rintro ⟨es, raw, bodies, filled, -⟩
    refine ⟨fun none => filled ?_, raw, bodies⟩
    have tabs := forall₂_bodies? bodies
    rwa [← Text.singles, none, List.forall₂_nil_left_iff] at tabs
  · rintro ⟨some, raw, bodies⟩
    refine ⟨_, raw, bodies, fun empty => some ?_, rfl⟩
    have tabs := forall₂_bodies? bodies
    rwa [empty, List.forall₂_nil_right_iff] at tabs

/-- Tabs that are given as many values as they are. -/
theorem forall₂_zipWith_entry {R : Marker → Text × Text → Prop} {ms : List Marker}
    {raw : List (Text × Text)} (tabs : List.Forall₂ R ms raw) {vs : List Text}
    (length : vs.length = raw.length) :
    let es := List.zipWith (fun p v => entry p.1 p.2 v) raw vs
    List.Forall₂ (fun m e => ∃ p, R m p ∧ e = entry p.1 p.2 e.value) ms es ∧
      es.map (·.value) = vs ∧ es.map (·.title) = raw.map (·.1) := by
  induction tabs generalizing vs with
  | nil => exact ⟨.nil, (List.length_eq_zero_iff.1 length).symm, rfl⟩
  | @cons m p ms raw first later ih =>
    obtain ⟨v, vs, rfl⟩ := List.exists_cons_of_length_eq_add_one length
    obtain ⟨tabs, values, titles⟩ := ih (Nat.succ.inj length)
    refine ⟨.cons ⟨p, first, rfl⟩ tabs, ?_, ?_⟩
    · rw [List.zipWith_cons_cons, List.map_cons, values]
      rfl
    · rw [List.zipWith_cons_cons, List.map_cons, titles]
      rfl

/-- The entries of a group: one for each marker of a tab, with the values claimed for their titles. -/
theorem of_entries? (read : entries? inner = some es) :
    List.Forall₂ (TabEntry.IsOf inner) (inner.singles "tab".toList) es ∧
      es.map (·.value) = values (es.map (·.title)) := by
  obtain ⟨raw, bodies, -, rfl⟩ := entries?_eq_some_iff.1 read
  have length : (values (raw.map (·.1))).length = raw.length := by simp
  obtain ⟨tabs, claimed, titles⟩ := forall₂_zipWith_entry (forall₂_bodies? bodies) length
  refine ⟨tabs.imp ?_, by rw [claimed, titles]⟩
  rintro m e ⟨p, ⟨k, next, closes, rfl⟩, shape⟩
  exact ⟨k, next, closes, shape⟩

/-- Each tab of a group is opened by a marker. -/
theorem exists_isOf_of_mem {ms : List Marker} (tabs : List.Forall₂ (TabEntry.IsOf inner) ms es)
    {e : TabEntry} (mem : e ∈ es) : ∃ m, TabEntry.IsOf inner m e := by
  induction tabs with
  | nil => cases mem
  | cons first _ ih =>
    rcases List.mem_cons.1 mem with rfl | mem
    · exact ⟨_, first⟩
    · exact ih mem

/-- **Values of tabs are distinct and safe.**  Of names that are claimed one after another, each is given
as it is wished for if it was not given before, and otherwise with the smallest number behind it that
makes it so; hence no name is given twice.  A group can be read exactly when it has tabs and each of them
is closed by the next marker; it then has one tab for each marker that opens one, in their order, and
the values of its tabs are distinct, and made of lowercase ASCII letters and digits, one at least. -/
theorem values_distinct :
    (∀ bases : List Text, (Name.claimAll [] bases).length = bases.length ∧
      (∀ i base v, bases[i]? = some base → (Name.claimAll [] bases)[i]? = some v →
        Name.IsClaim ((Name.claimAll [] bases).take i) base v) ∧
      (Name.claimAll [] bases).Nodup) ∧
    ∀ inner : Text,
      (entries? inner ≠ none ↔ inner.singles "tab".toList ≠ [] ∧ AllClosed inner.markers) ∧
      ∀ es, entries? inner = some es →
        List.Forall₂ (TabEntry.IsOf inner) (inner.singles "tab".toList) es ∧
        es.map (·.value) = values (es.map (·.title)) ∧
        (es.map (·.value)).Nodup ∧
        ∀ e ∈ es, e.value ≠ [] ∧ ∀ c ∈ e.value, Name.IsTame c := by
  constructor
  · intro bases
    refine ⟨Name.length_claimAll [] bases, fun i base v wish given => ?_, (Name.nodup_claimAll [] bases).1⟩
    have isClaim := Name.isClaim_claimAll wish given
    rwa [List.append_nil] at isClaim
  · intro inner
    refine ⟨entries?_ne_none_iff inner, fun es read => ?_⟩
    obtain ⟨tabs, claimed⟩ := of_entries? read
    refine ⟨tabs, claimed, claimed ▸ nodup_values _, fun e mem => ?_⟩
    exact isTame_of_mem_values (claimed ▸ List.mem_map_of_mem mem)

/-- Five names, of which two are wished for twice and one is what another was numbered to; and three tabs,
two with one title and the third with a title that is lowered to no letter of ASCII. -/
theorem values_distinct_numbered :
    Name.IsClaim ["cpp".toList, "cpp1".toList, "cpp2".toList, "c".toList] "cpp1".toList "cpp11".toList ∧
      ∃ es, entries? ("\x7b% tab title=\"C++\" %\x7da\x7b% endtab %\x7d\n\x7b% tab title='c++' %\x7d".toList ++
          "\x7b% endtab %\x7d\x7b% note %\x7d\x7b% tab title=É %\x7d\x7b% endtab %\x7d".toList) = some es ∧
        (es.map (·.value)).Nodup ∧ (∀ e ∈ es, e.value ≠ [] ∧ ∀ c ∈ e.value, Name.IsTame c) ∧
        es.map (·.value) = ["cpp".toList, "cpp1".toList, "tab3".toList] := by
  obtain ⟨wishes, isWishes⟩ : ∃ wishes : List Text,
      wishes = ["cpp", "cpp", "cpp", "c", "cpp1"].map String.toList := ⟨_, rfl⟩
  have given : Name.claimAll [] wishes = ["cpp", "cpp1", "cpp2", "c", "cpp11"].map String.toList := by
    rw [isWishes]
    decide +kernel
  have claims := (values_distinct.1 wishes).2.1 4 "cpp1".toList "cpp11".toList (by rw [isWishes]; rfl)
    (by rw [given]; rfl)
  rw [given] at claims
  obtain ⟨es, tabs⟩ : ∃ es : List TabEntry, es = [⟨"C++".toList, "cpp".toList, "a".toList⟩,
      ⟨"c++".toList, "cpp1".toList, []⟩, ⟨"É".toList, "tab3".toList, []⟩] := ⟨_, rfl⟩
  have read : entries? ("\x7b% tab title=\"C++\" %\x7da\x7b% endtab %\x7d\n\x7b% tab title='c++' %\x7d".toList ++
      "\x7b% endtab %\x7d\x7b% note %\x7d\x7b% tab title=É %\x7d\x7b% endtab %\x7d".toList) = some es := by
    rw [tabs]
    -- A list of characters is evaluated faster than the string that it is read from.
    conv_lhs =>
      enter [1]
      congr <;> rw [String.toList_ofList]
    decide +kernel
  obtain ⟨-, -, distinct, safe⟩ := (values_distinct.2 _).2 es read
  exact ⟨claims, es, read, distinct, safe, by rw [tabs]; rfl⟩

end TabGroup
end MdxPress
