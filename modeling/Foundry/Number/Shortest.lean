import Foundry.Number.Binary64

/-! The shortest decimal text of a binary64 number.

Of the decimals that round to the number, those with the fewest digits are taken, and of these the
nearest. If a grid of `n` digits has a point in the interval that rounds to the number, then one
of the two grid points around the number lies in it, so only these two are tried. -/
namespace Foundry.Binary64

/-- Positive decimals `digits * 10 ^ exponent`. -/
structure Decimal where
  digits : Nat
  exponent : Int
deriving Repr, DecidableEq

/-- The comparison of `a * 10 ^ k` with `b * 2 ^ j`, by exact products. -/
def comparePowers (a : Nat) (k : Int) (b : Nat) (j : Int) : Ordering :=
  compare (a * tenTo k.toNat * twoTo (-j).toNat) (b * twoTo j.toNat * tenTo (-k).toNat)

/-- The largest `e` with `10 ^ e ≤ b * 2 ^ j`. -/
def decimalExponent (b : Nat) (j : Int) : Int :=
  let guess := Int.fdiv ((Nat.log2 b + j) * 30103) 100000
  if comparePowers 1 guess b j = .gt then guess - 1
  else if comparePowers 1 (guess + 1) b j = .gt then guess
  else guess + 1

/-- The interval of decimals that round to a number, in quarters of its last place: the ends, the
number itself, and whether the ends belong to it. -/
structure Basin where
  low : Nat
  centre : Nat
  high : Nat
  closed : Bool
  quarter : Int

/-- The basin of a finite positive number. Just above a power of two the lower half is half as
wide. -/
def basin (x : Binary64) : Basin :=
  let m := x.significand
  { low := if m = twoTo 52 ∧ 1 < x.exponentField then 4 * m - 1 else 4 * m - 2
    centre := 4 * m
    high := 4 * m + 2
    closed := m % 2 = 0
    quarter := x.scale - 2 }

def Basin.holds (b : Basin) (d : Decimal) : Bool :=
  let below := comparePowers d.digits d.exponent b.high b.quarter
  let above := comparePowers d.digits d.exponent b.low b.quarter
  (below = .lt ∨ (b.closed ∧ below = .eq)) ∧ (above = .gt ∨ (b.closed ∧ above = .eq))

/-- The decimal with at most `count` digits next to the number that rounds to it, if there is
one. -/
def Basin.decimal? (b : Basin) (top : Int) (count : Nat) : Option Decimal :=
  let exponent := top - (count - 1 : Nat)
  let down := b.centre * twoTo b.quarter.toNat * tenTo (-exponent).toNat /
    (tenTo exponent.toNat * twoTo (-b.quarter).toNat)
  let low : Decimal := ⟨down, exponent⟩
  let high : Decimal := ⟨down + 1, exponent⟩
  match b.holds low, b.holds high with
  | true, true =>
    match comparePowers (2 * down + 1) exponent (2 * b.centre) b.quarter with
    | .gt => some low
    | .lt => some high
    | .eq => some (if down % 2 = 0 then low else high)
  | true, false => some low
  | false, true => some high
  | false, false => none

/-- The shortest decimal of a finite positive number; 17 digits always suffice. -/
def shortest (x : Binary64) : Decimal :=
  let b := basin x
  let top := decimalExponent b.centre b.quarter
  ((List.range 17).findSome? fun n => b.decimal? top (n + 1)).getD ⟨0, 0⟩

/-- The digits of a decimal without the zeros at its end, and the exponent of the first one. -/
def Decimal.scientific (d : Decimal) : List Char × Int :=
  let digits := Nat.toDigits 10 d.digits
  let kept := (digits.reverse.dropWhile (· = '0')).reverse
  (kept, d.exponent + (digits.length - 1 : Nat))

/-- A decimal as text: positional where its first digit stands for `10 ^ -4` to `10 ^ 15`, and
then always with a point; otherwise with an exponent of at least two digits. -/
def Decimal.text (d : Decimal) : List Char :=
  let (digits, exponent) := d.scientific
  if -4 ≤ exponent ∧ exponent < 16 then
    if exponent < 0 then
      '0' :: '.' :: List.replicate (-exponent - 1).toNat '0' ++ digits
    else
      let places := exponent.toNat + 1
      let whole := digits.take places
      let part := digits.drop places
      whole ++ List.replicate (places - digits.length) '0' ++ '.' ::
        (if part.isEmpty then ['0'] else part)
  else
    let mark := if exponent < 0 then '-' else '+'
    let power := Nat.toDigits 10 exponent.natAbs
    let power := if power.length < 2 then '0' :: power else power
    digits.take 1 ++ (if digits.length < 2 then [] else '.' :: digits.drop 1) ++
      'e' :: mark :: power

/-- The text of a number: the shortest that reads back as it. -/
def text (x : Binary64) : String :=
  if x.isNaN then "nan"
  else
    let body :=
      if x.isInfinite then "inf".toList
      else if x.significand = 0 then "0.0".toList
      else x.shortest.text
    String.ofList (if x.negative then '-' :: body else body)

end Foundry.Binary64
