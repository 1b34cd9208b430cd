import MdxPress.Mdx.Brace

/-!
# What covers the characters of a line

`codeMask` and `Brace.mask` are made from the parts of a line.  Here both are read off one walk
along its characters, which knows at every character whether it stands in prose, in a marker or in
inline code: `codeMask_eq_covered` and `mask_eq_covered`.  The walk looks one character ahead for
the delimiters of markers, and asks of a backtick whether another follows on the line.
-/

namespace MdxPress.Brace

/-- What covers a character of a line. -/
inductive Cover where
  | bare
  | marker
  | code
  deriving DecidableEq, Repr

/-- Whether the character is inline code. -/
def Cover.isCode : Cover → Bool
  | code => true
  | _ => false

/-- Whether the character keeps its meaning as a brace. -/
def Cover.isProtected : Cover → Bool
  | bare => false
  | _ => true

/-- Where the walk along a line stands. -/
inductive Place where
  | prose
  /-- Behind the brace that opens a marker. -/
  | opening
  | marker
  /-- Before the brace that closes a marker. -/
  | closing
  | code
  deriving DecidableEq, Repr

/-- Whether the walk stands in inline code. -/
def Place.isCode : Place → Bool
  | code => true
  | _ => false

/-- What covers the character `c` before `rest`, and where the walk stands behind it. -/
def Place.step (p : Place) (c : Char) (rest : Text) : Cover × Place :=
  match p with
  | code => (.code, if c = '\x60' then prose else code)
  | opening => (.marker, marker)
  | closing => (.marker, prose)
  | prose =>
    if c = '\x60' && List.contains rest '\x60' then (.code, code)
    else if c = '{' && rest.head? == some '%' then (.marker, opening)
    else (.bare, prose)
  | marker =>
    if c = '\x60' && List.contains rest '\x60' then (.code, code)
    else if c = '%' && rest.head? == some '}' then (.marker, closing)
    else (.marker, marker)

/-- The characters of the rest of a line, each with what covers it. -/
def covered : Place → Text → List (Char × Cover)
  | _, [] => []
  | p, c :: r => (c, (p.step c r).1) :: covered (p.step c r).2 r

/-- Whether the walk can stand before a text: the delimiter that it looked ahead at is there. -/
def Place.Fits (p : Place) (t : Text) : Prop :=
  match p with
  | opening => t.head? = some '%'
  | closing => t.head? = some '}'
  | _ => True

theorem Place.fits_step (p : Place) (c : Char) (r : Text) : (p.step c r).2.Fits r := by
  cases p <;> simp only [Place.step]
  case opening | closing => trivial
  case code => split <;> trivial
  case prose | marker =>
    split
    · trivial
    · split
      · simp_all [Place.Fits]
      · trivial

/-! ## Code spans -/

/-- The characters of a part, each with whether it is code. -/
def codeOf (s : Span) : List (Char × Bool) :=
  s.text.map fun c => (c, s.isCode)

theorem flatMap_codeOf_extend (c : Char) (isCode : Bool) (ss : List Span) :
    (Span.extend c isCode ss).flatMap codeOf = (c, isCode) :: ss.flatMap codeOf := by
  cases ss with
  | nil => rfl
  | cons s ss =>
    by_cases same : s.isCode = isCode
    · simp [Span.extend, same, codeOf]
    · simp [Span.extend, same, codeOf]

/-- Whether a character is code does not depend on the markers around it. -/
theorem flatMap_codeOf_codeSpansFrom {p : Place} {t : Text} (fits : p.Fits t) :
    (Text.codeSpansFrom p.isCode t).flatMap codeOf =
      (covered p t).map fun k => (k.1, k.2.isCode) := by
  induction t generalizing p with
  | nil => cases p <;> rfl
  | cons c r ih =>
    have rest := ih (p.fits_step c r)
    cases p with
    | code =>
      by_cases tick : c = '\x60'
      · subst tick
        simpa [Text.codeSpansFrom, covered, Place.step, codeOf, Place.isCode, Cover.isCode]
          using rest
      · simpa [Text.codeSpansFrom, covered, Place.step, tick, flatMap_codeOf_extend,
          Place.isCode, Cover.isCode] using rest
    | opening =>
      obtain rfl : c = '%' := by simpa [Place.Fits] using fits
      simpa [Text.codeSpansFrom, covered, Place.step, flatMap_codeOf_extend, Place.isCode,
        Cover.isCode] using rest
    | closing =>
      obtain rfl : c = '}' := by simpa [Place.Fits] using fits
      simpa [Text.codeSpansFrom, covered, Place.step, flatMap_codeOf_extend, Place.isCode,
        Cover.isCode] using rest
    | prose | marker =>
      by_cases opens : c = '\x60' ∧ '\x60' ∈ r
      · simpa [Text.codeSpansFrom, covered, Place.step, opens, flatMap_codeOf_extend,
          Place.isCode, Cover.isCode] using rest
      · simp only [Place.isCode]
        rw [Text.codeSpansFrom, if_neg (by simpa using opens),
          flatMap_codeOf_extend, covered, List.map_cons, ← rest]
        simp only [Place.step, Bool.and_eq_true, decide_eq_true_eq, List.contains_iff_mem,
          if_neg opens]
        split <;> rfl

/-- **Code on the walk.** -/
theorem codeMask_eq_covered (t : Text) :
    t.codeMask = (covered .prose t).map fun k => (k.1, k.2.isCode) :=
  flatMap_codeOf_codeSpansFrom (p := .prose) trivial

/-! ## Markers -/

/-- The characters of the parts of a line, each with whether it is protected; `isOpen` tells whether
a marker is open before the first part, if that is prose. -/
def maskSpans (isOpen : Bool) : List Span → List (Char × Bool)
  | [] => []
  | s :: ss =>
    (if s.isCode then s.text.map fun c => (c, true) else markerMask isOpen s.text) ++
      maskSpans false ss

theorem mask_eq_maskSpans (line : Text) : mask line = maskSpans false line.codeSpans := by
  rw [mask]
  induction line.codeSpans with
  | nil => rfl
  | cons s ss ih => rw [List.flatMap_cons, maskSpans, ih]

theorem maskSpans_extend_code (isOpen : Bool) (c : Char) (ss : List Span) :
    maskSpans isOpen (Span.extend c true ss) = (c, true) :: maskSpans false ss := by
  rcases ss with _ | ⟨⟨text, isCode⟩, ss⟩
  · simp [Span.extend, maskSpans]
  · cases isCode <;> simp [Span.extend, maskSpans]

/-- A character of prose is covered by the marker that is open before it, unless it begins the
delimiter that opens or closes one. -/
theorem markerMask_cons {isOpen : Bool} {c : Char} {t : Text}
    (noOpener : isOpen = false → c = '{' → t.head? ≠ some '%')
    (noCloser : isOpen = true → c = '%' → t.head? ≠ some '}') :
    markerMask isOpen (c :: t) = (c, isOpen) :: markerMask isOpen t := by
  cases isOpen with
  | false =>
    rw [markerMask]
    rintro r rfl rfl
    exact noOpener rfl rfl rfl
  | true =>
    rw [markerMask]
    rintro r rfl rfl
    exact noCloser rfl rfl rfl

theorem markerMask_singleton (isOpen : Bool) (c : Char) :
    markerMask isOpen [c] = [(c, isOpen)] := by
  rw [markerMask_cons (by simp) (by simp), markerMask]

theorem maskSpans_extend_prose {isOpen : Bool} {c : Char} {ss : List Span}
    (noOpener : isOpen = false → c = '{' → ∀ s ∈ ss.head?, s.text.head? ≠ some '%')
    (noCloser : isOpen = true → c = '%' → ∀ s ∈ ss.head?, s.text.head? ≠ some '}') :
    maskSpans isOpen (Span.extend c false ss) = (c, isOpen) :: maskSpans isOpen ss := by
  rcases ss with _ | ⟨⟨text, _ | _⟩, ss⟩
  · simp [Span.extend, maskSpans, markerMask_singleton]
  · simp only [Span.extend, maskSpans, if_true, Bool.false_eq_true, if_false]
    rw [markerMask_cons (fun h h' => noOpener h h' _ rfl)
      (fun h h' => noCloser h h' _ rfl), List.cons_append]
  · simp [Span.extend, maskSpans, markerMask_singleton]

/-- The delimiter `{%` opens a marker that covers it. -/
theorem maskSpans_opener (ss : List Span) :
    maskSpans false (Span.extend '{' false (Span.extend '%' false ss)) =
      ('{', true) :: ('%', true) :: maskSpans true ss := by
  rcases ss with _ | ⟨⟨text, _ | _⟩, ss⟩ <;> simp [Span.extend, maskSpans, markerMask]

/-- The delimiter `%}` closes the marker that covers it. -/
theorem maskSpans_closer (ss : List Span) :
    maskSpans true (Span.extend '%' false (Span.extend '}' false ss)) =
      ('%', true) :: ('}', true) :: maskSpans false ss := by
  rcases ss with _ | ⟨⟨text, _ | _⟩, ss⟩ <;> simp [Span.extend, maskSpans, markerMask]

/-- The first part of a line begins as the line does. -/
theorem head?_of_codeSpansFrom {t : Text} {s : Span}
    (first : s ∈ (Text.codeSpansFrom false t).head?) : s.text.head? = t.head? := by
  cases t with
  | nil => simp [Text.codeSpansFrom] at first
  | cons c r =>
    have extended (isCode : Bool) (ss : List Span) (h : s ∈ (Span.extend c isCode ss).head?) :
        s.text.head? = some c := by
      rcases ss with _ | ⟨u, ss⟩
      · simp only [Span.extend, List.head?_cons, Option.mem_some_iff] at h
        simp [← h]
      · by_cases same : u.isCode = isCode <;>
          · simp only [Span.extend, same, if_true, if_false, List.head?_cons,
              Option.mem_some_iff] at h
            simp [← h]
    rw [Text.codeSpansFrom] at first
    split at first <;> exact extended _ _ first

/-- What the parts of the rest of a line say of its characters, wherever the walk stands. -/
def masked (p : Place) (t : Text) : List (Char × Bool) :=
  match p with
  | .prose => maskSpans false (Text.codeSpansFrom false t)
  | .marker => maskSpans true (Text.codeSpansFrom false t)
  | .code => maskSpans false (Text.codeSpansFrom true t)
  | .opening => (maskSpans false (Span.extend '{' false (Text.codeSpansFrom false t))).tail
  | .closing => (maskSpans true (Span.extend '%' false (Text.codeSpansFrom false t))).tail

theorem codeSpansFrom_extend {c : Char} {r : Text} (alone : ¬(c = '\x60' ∧ '\x60' ∈ r)) :
    Text.codeSpansFrom false (c :: r) = Span.extend c false (Text.codeSpansFrom false r) := by
  rw [Text.codeSpansFrom, if_neg (by simpa using alone)]

theorem masked_eq_covered {p : Place} {t : Text} (fits : p.Fits t) :
    masked p t = (covered p t).map fun k => (k.1, k.2.isProtected) := by
  induction t generalizing p with
  | nil =>
    cases p with
    | opening | closing => cases fits
    | prose | marker | code => rfl
  | cons c r ih =>
    have rest := ih (p.fits_step c r)
    cases p with
    | code =>
      by_cases tick : c = '\x60'
      · subst tick
        simpa [masked, Text.codeSpansFrom, covered, Place.step, maskSpans, Cover.isProtected]
          using rest
      · simpa [masked, Text.codeSpansFrom, covered, Place.step, tick, maskSpans_extend_code,
          Cover.isProtected] using rest
    | opening =>
      obtain rfl : c = '%' := by simpa [Place.Fits] using fits
      simpa [masked, codeSpansFrom_extend, covered, Place.step, maskSpans_opener,
        Cover.isProtected] using rest
    | closing =>
      obtain rfl : c = '}' := by simpa [Place.Fits] using fits
      simpa [masked, codeSpansFrom_extend, covered, Place.step, maskSpans_closer,
        Cover.isProtected] using rest
    | prose =>
      by_cases opens : c = '\x60' ∧ '\x60' ∈ r
      · simpa [masked, Text.codeSpansFrom, covered, Place.step, opens, maskSpans_extend_code,
          Cover.isProtected] using rest
      · by_cases delimits : c = '{' ∧ r.head? = some '%'
        · obtain ⟨rfl, next⟩ := delimits
          obtain ⟨r, rfl⟩ := List.head?_eq_some_iff.1 next
          simpa [masked, codeSpansFrom_extend, covered, Place.step, maskSpans_opener,
            Cover.isProtected] using rest
        · have bare : maskSpans false (Span.extend c false (Text.codeSpansFrom false r)) =
              (c, false) :: maskSpans false (Text.codeSpansFrom false r) :=
            maskSpans_extend_prose
              (fun _ brace s first next =>
                delimits ⟨brace, (head?_of_codeSpansFrom first).symm.trans next⟩)
              (by simp)
          simpa [masked, codeSpansFrom_extend opens, covered, Place.step, opens, delimits, bare,
            Cover.isProtected] using rest
    | marker =>
      by_cases opens : c = '\x60' ∧ '\x60' ∈ r
      · simpa [masked, Text.codeSpansFrom, covered, Place.step, opens, maskSpans_extend_code,
          Cover.isProtected] using rest
      · by_cases delimits : c = '%' ∧ r.head? = some '}'
        · obtain ⟨rfl, next⟩ := delimits
          obtain ⟨r, rfl⟩ := List.head?_eq_some_iff.1 next
          simpa [masked, codeSpansFrom_extend, covered, Place.step, maskSpans_closer,
            Cover.isProtected] using rest
        · have inside : maskSpans true (Span.extend c false (Text.codeSpansFrom false r)) =
              (c, true) :: maskSpans true (Text.codeSpansFrom false r) :=
            maskSpans_extend_prose (by simp)
              (fun _ percent s first next =>
                delimits ⟨percent, (head?_of_codeSpansFrom first).symm.trans next⟩)
          simpa [masked, codeSpansFrom_extend opens, covered, Place.step, opens, delimits, inside,
            Cover.isProtected] using rest

/-- **Protection on the walk.** -/
theorem mask_eq_covered (line : Text) :
    mask line = (covered .prose line).map fun k => (k.1, k.2.isProtected) :=
  (mask_eq_maskSpans line).trans (masked_eq_covered (p := .prose) trivial)

end MdxPress.Brace
