import MdxPress.Text.Basic
import MdxPress.Text.Letter

/-!
# Binary numbers

Floating-point numbers of 64 bits as exact values: a mantissa below 2^53 times a power of two.
Nothing is computed with them here; they are read from decimals and written as decimals.

* `Binary.ofRatio` rounds a quotient of naturals to the nearest number, a tie to the even mantissa;
* `Binary.ofText?` reads a decimal.
-/

namespace MdxPress

/-- A floating-point number of 64 bits.  A finite one is `mantissa * 2 ^ exponent`, where the
mantissa has 53 bits unless the exponent is the least there is. -/
inductive Binary where
  | finite (negative : Bool) (mantissa : Nat) (exponent : Int)
  | infinite (negative : Bool)
  | nan
  deriving DecidableEq, Repr

namespace Binary

/-- The least exponent of a number. -/
def minExponent : Int := -1074

/-- The greatest exponent of a number. -/
def maxExponent : Int := 971

/-- A power of two. -/
def twoTo (n : Nat) : Nat := Nat.pow 2 n

/-- A power of ten. -/
def tenTo (n : Nat) : Nat := Nat.pow 10 n

/-- The quotient of two naturals, rounded to the nearest, a tie to the even one. -/
def roundDiv (num den : Nat) : Nat :=
  let q := num / den
  let r := num % den
  if 2 * r > den || (2 * r == den && q % 2 == 1) then q + 1 else q

/-- The power of two by which `num / den` has to be divided to have 53 bits, or one more. -/
def scaleOf (num den : Nat) : Int :=
  max minExponent ((num.log2 : Int) - (den.log2 : Int) - 53)

/-- `num / den` divided by `2 ^ e` and rounded. -/
def scaled (num den : Nat) (e : Int) : Nat :=
  if 0 ≤ e then roundDiv num (den * twoTo e.toNat) else roundDiv (num * twoTo (-e).toNat) den

/-- A mantissa of at most 53 bits with its exponent, as a number. -/
def ofScaled (negative : Bool) (m : Nat) (e : Int) : Binary :=
  if m = 0 then finite negative 0 minExponent
  else if maxExponent < e then infinite negative
  else finite negative m e

/-- The number nearest to a quotient of naturals. -/
def ofRatio (negative : Bool) (num den : Nat) : Binary :=
  let e := scaleOf num den
  let fits := scaled num den e < twoTo 53
  let e := if fits then e else e + 1
  let m := scaled num den e
  if m = twoTo 53 then ofScaled negative (twoTo 52) (e + 1) else ofScaled negative m e

/-- The number nearest to `digits * 10 ^ exponent`, where `digits` has `count` decimal digits. -/
def ofDecimal (negative : Bool) (digits count : Nat) (exponent : Int) : Binary :=
  if digits = 0 then finite negative 0 minExponent
  else if 400 < exponent + count then infinite negative
  else if exponent + count < -400 then finite negative 0 minExponent
  else if 0 ≤ exponent then ofRatio negative (digits * tenTo exponent.toNat) 1
  else ofRatio negative digits (tenTo (-exponent).toNat)

/-- The number that decimal digits stand for. -/
def natOf (digits : Text) : Nat :=
  digits.foldl (fun n c => n * 10 + (c.toNat - '0'.toNat)) 0

/-- Reads the exponent of a decimal, which takes the rest of the text. -/
def exponent? : Text → Option Int
  | [] => some 0
  | c :: r =>
    if c = 'e' || c = 'E' then
      let (negative, digits) :=
        match r with
        | '-' :: d => (true, d)
        | '+' :: d => (false, d)
        | d => (false, d)
      if digits.isEmpty || !digits.all Text.isAsciiDigit then none
      else some (if negative then -(natOf digits : Int) else natOf digits)
    else none

/-- Reads an unsigned decimal: digits, maybe with a point, maybe with an exponent. -/
def unsigned? (negative : Bool) (t : Text) : Option Binary :=
  let whole := t.takeWhile Text.isAsciiDigit
  let (fraction, rest) :=
    match t.dropWhile Text.isAsciiDigit with
    | '.' :: r => (r.takeWhile Text.isAsciiDigit, r.dropWhile Text.isAsciiDigit)
    | r => ([], r)
  let digits := whole ++ fraction
  if digits.isEmpty then none
  else
    (exponent? rest).map fun e =>
      let significant := digits.dropWhile (· = '0')
      ofDecimal negative (natOf significant) significant.length (e - fraction.length)

/-- Reads a decimal with or without a sign. -/
def ofText? : Text → Option Binary
  | '-' :: r => unsigned? true r
  | '+' :: r => unsigned? false r
  | t => unsigned? false t

/-- Whether a number is neither infinite nor undefined. -/
def isFinite : Binary → Bool
  | finite .. => true
  | _ => false

/-- Whether two numbers count as the same: zeroes do whatever their signs. -/
def same (a b : Binary) : Bool :=
  match a, b with
  | finite _ 0 _, finite _ 0 _ => true
  | _, _ => a == b

end Binary
end MdxPress
