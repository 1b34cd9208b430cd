import MdxPress.Marker.Replace

/-!
# Admonitions

A hint becomes an admonition: its body between `:::` lines, with a type that its style gives.
-/

namespace MdxPress.Admonition

/-- The admonition type of a hint style. -/
def typeOf (style : Option Text) : Text :=
  let s := (style.map fun s => Text.asciiLower s.trim).getD []
  if s = "warning".toList then s
  else if s = "danger".toList then s
  else if s = "success".toList || s = "tip".toList then "tip".toList
  else "info".toList

/-- Writes an admonition around a body. -/
def render (type body : Text) : Text :=
  ":::".toList ++ type ++ '\n' :: body.trim ++ "\n:::".toList

/-- The admonition for the hint that a marker opens. -/
def ofHint (opener : Marker) (inner : Text) : Text :=
  render (typeOf (opener.attribute? "style".toList)) inner

end MdxPress.Admonition
