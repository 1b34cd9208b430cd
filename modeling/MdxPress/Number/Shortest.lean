import MdxPress.Number.Binary

/-!
# Shortest decimals

The decimal with the fewest digits that reads back as a given number, and of those the nearest.

On the grid of decimals with `n` digits, the reals that round to the number either miss the grid or
hold one of the two grid points beside the number.  So it is enough to try these two, on coarser
grids first.
-/

namespace MdxPress

/-- A positive decimal `digits * 10 ^ exponent`. -/
structure Decimal where
  digits : Nat
  exponent : Int
  deriving DecidableEq, Repr

namespace Decimal

/-- `num / den` times `10 ^ e` as a quotient. -/
def shift (num den : Nat) (e : Int) : Nat × Nat :=
  if 0 ≤ e then (num * Binary.tenTo e.toNat, den) else (num, den * Binary.tenTo (-e).toNat)

/-- A finite number as a quotient of naturals. -/
def ratio (m : Nat) (e : Int) : Nat × Nat :=
  if 0 ≤ e then (m * Binary.twoTo e.toNat, 1) else (m, Binary.twoTo (-e).toNat)

/-- Whether the decimal rounds to the number `m * 2 ^ e`.  Both ends of the reals that do count if
the mantissa is even; the lower end is nearer where the numbers below lie closer together. -/
def roundsTo (d : Decimal) (m : Nat) (e : Int) : Bool :=
  let (dn, dd) := shift d.digits 1 d.exponent
  let narrow := m == Binary.twoTo 52 && Binary.minExponent < e
  let (ln, ld) := ratio (4 * m - if narrow then 1 else 2) (e - 2)
  let (hn, hd) := ratio (4 * m + 2) (e - 2)
  if m % 2 == 0 then ln * dd ≤ dn * ld && dn * hd ≤ hn * dd
  else ln * dd < dn * ld && dn * hd < hn * dd

/-- The one of the two grid points beside the number `m * 2 ^ e` that rounds to it, on the grid of
multiples of `10 ^ k`; of both the nearer, of equally near ones the even. -/
def onGrid? (m : Nat) (e k : Int) : Option Decimal :=
  let (vn, vd) := ratio m e
  let (n, d) := shift vn vd (-k)
  let f := n / d
  let low : Decimal := ⟨f, k⟩
  let high : Decimal := ⟨f + 1, k⟩
  let lowFits := 0 < f && low.roundsTo m e
  let highFits := high.roundsTo m e
  let nearHigh := 2 * (n % d) > d || (2 * (n % d) == d && f % 2 == 1)
  if lowFits && highFits then some (if nearHigh then high else low)
  else if lowFits then some low
  else if highFits then some high
  else none

/-- The number of decimal digits of a natural. -/
def digitCount (n : Nat) : Nat :=
  (Nat.toDigits 10 n).length

/-- The number of digits before the point of the quotient of two naturals; zero or less counts the
zeroes behind the point. -/
def magnitude (num den : Nat) : Int :=
  let guess : Int := (digitCount num : Int) - digitCount den
  let (n, d) := shift num den (-guess)
  if d ≤ n then guess + 1 else guess

/-- Drops zeroes at the end of the digits, at most `fuel` of them. -/
def dropZeroes : Nat → Decimal → Decimal
  | 0, d => d
  | fuel + 1, d =>
    if d.digits % 10 = 0 then dropZeroes fuel ⟨d.digits / 10, d.exponent + 1⟩ else d

/-- The shortest decimal that rounds to the positive number `m * 2 ^ e`.  Seventeen digits are
enough for any number. -/
def shortest (m : Nat) (e : Int) : Decimal :=
  let v := ratio m e
  let p := magnitude v.1 v.2
  let found := (List.range 17).findSome? fun n => onGrid? m e (p - (n + 1 : Nat))
  (found.getD ⟨m, 0⟩).dropZeroes 17

end Decimal
end MdxPress
