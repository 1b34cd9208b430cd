import MdxPress.Number.Shortest

/-!
# Numbers as text

How headers write numbers.  A decimal is positional while its point lies among or near its first
sixteen digits, and scientific otherwise; a whole number keeps `.0`, to stay a float.
-/

namespace MdxPress

/-- Which decimals are written positionally: the point may stand up to `last` digits behind the
first one, and up to `first` zeroes before it. -/
structure DecimalFormat where
  first : Int
  last : Int

/-- The format of headers. -/
def DecimalFormat.header : DecimalFormat := ⟨-5, 16⟩

/-- An integer as text. -/
def Text.ofInt (n : Int) : Text :=
  if n < 0 then '-' :: Text.ofNat n.natAbs else Text.ofNat n.toNat

namespace Decimal

/-- A run of zeroes. -/
def zeroes (n : Int) : Text :=
  List.replicate n.toNat '0'

/-- A positive decimal as text. -/
def render (f : DecimalFormat) (d : Decimal) : Text :=
  let digits := Text.ofNat d.digits
  let length : Int := digits.length
  let point := length + d.exponent
  if 0 ≤ d.exponent && point ≤ f.last then digits ++ zeroes d.exponent ++ ".0".toList
  else if 0 < point && point ≤ f.last then
    digits.take point.toNat ++ '.' :: digits.drop point.toNat
  else if f.first < point && point ≤ 0 then "0.".toList ++ zeroes (-point) ++ digits
  else
    let exponent := Text.ofInt (point - 1)
    let fraction := digits.drop 1
    digits.take 1 ++ (if fraction.isEmpty then [] else '.' :: fraction) ++ 'e' :: exponent

end Decimal

/-- A floating-point number as text. -/
def Binary.render : Binary → Text
  | finite negative m e =>
    let magnitude := if m = 0 then "0.0".toList else (Decimal.shortest m e).render .header
    if negative then '-' :: magnitude else magnitude
  | infinite negative => if negative then "-.inf".toList else ".inf".toList
  | nan => ".nan".toList

end MdxPress
