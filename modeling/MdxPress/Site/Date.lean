import MdxPress.Number.Text
import MdxPress.Text.Blank

/-!
# Dates

Days of the Gregorian calendar, carried on before its introduction.

* `Date.ofText?` reads year, month and day with dashes between them; blanks may stand before each
  part and behind the last;
* `Date.render` writes a date.
-/

namespace MdxPress

/-- A day. -/
structure Date where
  year : Int
  month : Nat
  day : Nat
  deriving DecidableEq, Repr

namespace Date

/-- The first year there is. -/
def minYear : Int := -262143

/-- The last year there is. -/
def maxYear : Int := 262142

/-- Whether a year has a leap day. -/
def isLeap (year : Int) : Bool :=
  year % 4 = 0 && (year % 100 ≠ 0 || year % 400 = 0)

/-- The number of days of a month. -/
def daysIn (year : Int) (month : Nat) : Nat :=
  if month = 2 then (if isLeap year then 29 else 28)
  else if month = 4 || month = 6 || month = 9 || month = 11 then 30
  else 31

/-- The day with a year, a month and a day of the month, if there is one. -/
def ofParts? (year : Int) (month day : Nat) : Option Date :=
  if minYear ≤ year && year ≤ maxYear && 1 ≤ month && month ≤ 12 && 1 ≤ day &&
      day ≤ daysIn year month then
    some ⟨year, month, day⟩
  else none

/-- Reads a number of at most `width` digits, if a width is given. -/
def number? (width : Option Nat) (t : Text) : Option (Nat × Text) :=
  let run := t.takeWhile Text.isAsciiDigit
  let digits := (width.map run.take).getD run
  if digits.isEmpty then none else some (Binary.natOf digits, t.drop digits.length)

/-- Reads a year: four digits at most, or a sign and any number of them. -/
def year? (t : Text) : Option (Int × Text) :=
  match t.trimStart with
  | '-' :: r => (number? none r).map fun (n, r) => (-n, r)
  | '+' :: r => (number? none r).map fun (n, r) => (n, r)
  | r => (number? (some 4) r).map fun (n, r) => (n, r)

/-- Reads a dash and a number of one or two digits behind it. -/
def part? (t : Text) : Option (Nat × Text) :=
  match t.trimStart with
  | '-' :: r => number? (some 2) (Text.trimStart r)
  | _ => none

/-- Reads a date. -/
def ofText? (t : Text) : Option Date :=
  (year? t).bind fun (year, r) =>
    (part? r).bind fun (month, r) =>
      (part? r).bind fun (day, r) =>
        if Text.allBlank r then ofParts? year month day else none

/-- A number with zeroes in front up to a width. -/
def padded (width n : Nat) : Text :=
  let digits := Text.ofNat n
  List.replicate (width - digits.length) '0' ++ digits

/-- A date as text.  Years of four digits have no sign. -/
def render (d : Date) : Text :=
  let sign := if d.year < 0 then ['-'] else if 9999 < d.year then ['+'] else []
  sign ++ padded 4 d.year.natAbs ++ '-' :: padded 2 d.month ++ '-' :: padded 2 d.day

end Date
end MdxPress
