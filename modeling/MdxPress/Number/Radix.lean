import MdxPress.Text.Basic

/-!
# Numbers in a base

Digits of bases up to 16, in either case.
-/

namespace MdxPress.Text

/-- The value of a digit. -/
def digit? (c : Char) : Option Nat :=
  if '0' ≤ c && c ≤ '9' then some (c.toNat - '0'.toNat)
  else if 'a' ≤ c && c ≤ 'f' then some (c.toNat - 'a'.toNat + 10)
  else if 'A' ≤ c && c ≤ 'F' then some (c.toNat - 'A'.toNat + 10)
  else none

/-- The number that digits of a base stand for; none, when there are none or one is no digit. -/
def nat? (base : Nat) (digits : Text) : Option Nat :=
  if digits.isEmpty then none
  else
    digits.foldl (fun n c => n.bind fun n => (digit? c).bind fun d =>
      if d < base then some (n * base + d) else none) (some 0)

/-- The digits of a number in hexadecimal, with zeroes in front up to a width. -/
def hex (width n : Nat) : Text :=
  let digits := (Nat.toDigits 16 n).map Char.toUpper
  List.replicate (width - digits.length) '0' ++ digits

end MdxPress.Text
