import MdxPress.Text.Blank
import MdxPress.Text.Letter

/-!
# Marker attributes

The attributes of a marker: `key="value"`, `key=value` or a bare `key`.

A quoted value ends at the first matching quote behind which the marker ends or another `key=`
begins, so a value may hold quotes itself: `title="Say "hi".txt"` has the value `Say "hi".txt`.
-/

namespace MdxPress

/-- A key and its value; the value of a bare key is empty. -/
structure Attribute where
  key : Text
  value : Text
  deriving DecidableEq, Repr

/-- A character of a marker's name or of a key. -/
def isKeyChar (c : Char) : Bool :=
  Text.isAsciiAlnum c || c = '-' || c = '_'

namespace Attribute

/-- Whether a text starts with a key and an equals sign. -/
def startsHere (t : Text) : Bool :=
  !(t.takeWhile isKeyChar).isEmpty &&
    match Text.trimStart (t.dropWhile isKeyChar) with
    | '=' :: _ => true
    | _ => false

/-- Whether a quoted value may end before `t`: the marker ends there or an attribute follows. -/
def mayEndBefore (t : Text) : Bool :=
  Text.allBlank t || startsHere (Text.trimStart t)

/-- Reads up to the quote that ends a value: the value and what follows the quote. -/
def quoted? (quote : Char) : Text → Option (Text × Text)
  | [] => none
  | c :: r =>
    if c = quote && mayEndBefore r then some ([], r)
    else (quoted? quote r).map fun p => (c :: p.1, p.2)

/-- Reads a value: quoted, or up to the next blank.  A quote that nothing ends takes all. -/
def readValue : Text → Text × Text
  | [] => ([], [])
  | c :: r =>
    if c = '"' || c = '\'' then
      match quoted? c r with
      | some p => p
      | none => (Text.trimEnd r, [])
    else ((c :: r).takeWhile (!isBlank ·), (c :: r).dropWhile (!isBlank ·))

theorem length_trimStart_le (t : Text) : (Text.trimStart t).length ≤ t.length :=
  (List.dropWhile_suffix _).length_le

theorem length_of_quoted? {quote : Char} {t v r : Text} (h : quoted? quote t = some (v, r)) :
    r.length ≤ t.length := by
  induction t generalizing v with
  | nil => simp [quoted?] at h
  | cons c t ih =>
    unfold quoted? at h
    split at h
    · simp at h; simp [h.2]
    · obtain ⟨p, hp, he⟩ := Option.map_eq_some_iff.1 h
      obtain ⟨rfl, rfl⟩ := Prod.mk.inj he
      exact Nat.le_succ_of_le (ih hp)

theorem length_readValue_le (t : Text) : (readValue t).2.length ≤ t.length := by
  unfold readValue
  split
  · simp
  · split
    · split
      · next p h => exact Nat.le_succ_of_le (length_of_quoted? (v := p.1) (r := p.2) h)
      · simp
    · exact (List.dropWhile_suffix _).length_le

end Attribute

namespace Text

set_option linter.unusedVariables false in
/-- The attributes in the inside of a marker, in order.  Characters that belong to none are passed
over. -/
def attributes (t : Text) : List Attribute :=
  match h : trimStart t with
  | [] => []
  | c :: r =>
    if isKeyChar c then
      match hv : trimStart (r.dropWhile isKeyChar) with
      | '=' :: v =>
        ⟨c :: r.takeWhile isKeyChar, (Attribute.readValue (trimStart v)).1⟩ ::
          attributes (Attribute.readValue (trimStart v)).2
      | rest => ⟨c :: r.takeWhile isKeyChar, []⟩ :: attributes rest
    else attributes r
termination_by t.length
decreasing_by
  all_goals
    have ht := congrArg List.length h ▸ Attribute.length_trimStart_le t
    have hk : (r.dropWhile isKeyChar).length ≤ r.length := (List.dropWhile_suffix _).length_le
    have hr := Attribute.length_trimStart_le (r.dropWhile isKeyChar)
    simp only [List.length_cons] at ht
  · have h1 := Attribute.length_readValue_le (trimStart v)
    have h2 := Attribute.length_trimStart_le v
    rw [hv] at hr
    simp only [List.length_cons] at hr
    omega
  · rw [hv] at hr
    omega
  · omega

end Text
end MdxPress
