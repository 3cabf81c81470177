import Foundry.Number.Shortest

/-! Decimal digits of a binary64 number, rounded to a number of places or of significant digits.

The number is known exactly, so each rounding is one division: to nearest, and to the even digit
on a tie. -/
namespace Foundry.Binary64

/-- Digits that stand for a magnitude below one: the first of them counts `10 ^ (point - 1)`, so the
decimal point stands behind `point` of them. There are zeros all around them. -/
structure Digits where
  digits : List Char
  point : Int
deriving DecidableEq, Repr

def withoutTrailingZeros (digits : List Char) : List Char :=
  (digits.reverse.dropWhile (· = '0')).reverse

/-- The magnitude of a finite number in units of `10 ^ exponent`, rounded. -/
def inUnits (x : Binary64) (exponent : Int) : Nat :=
  roundRatio (x.significand * twoTo x.scale.toNat * tenTo (-exponent).toNat)
    (tenTo exponent.toNat * twoTo (-x.scale).toNat)

def Digits.zero : Digits := ⟨['0'], 1⟩

/-- The digits of a finite number, rounded to `places` behind the point. There are none if nothing
is left of the number. -/
def fixedDigits (x : Binary64) (places : Nat) : Digits :=
  match x.inUnits (-places) with
  | 0 => ⟨[], -places⟩
  | units =>
    let digits := Nat.toDigits 10 units
    ⟨withoutTrailingZeros digits, digits.length - (places : Int)⟩

/-- The digits of a finite number, rounded to `count` of them; at least one. A carry out of the
first digit makes a one of it, one place higher. -/
def significantDigits (x : Binary64) (count : Nat) : Digits :=
  if x.significand = 0 then .zero
  else
    let top := decimalExponent x.significand x.scale
    let digits := Nat.toDigits 10 (x.inUnits (top - (count - 1 : Nat)))
    ⟨withoutTrailingZeros digits, top + 1 + (digits.length - max count 1 : Nat)⟩

/-- The fewest digits that read back as a finite number. -/
def shortestDigits (x : Binary64) : Digits :=
  if x.significand = 0 then .zero
  else
    let (digits, exponent) := x.shortest.scientific
    ⟨digits, exponent + 1⟩

/-- The digits from place `first` up to place `last`, counted from the first digit, and zeros for
the places on both sides. -/
def Digits.window (d : Digits) (first last : Int) : List Char :=
  List.replicate (min 0 last - first).toNat '0' ++
    (d.digits.take last.toNat).drop first.toNat ++
    List.replicate (last - max first d.digits.length).toNat '0'

/-- An exponent: its sign and at least two digits. -/
def exponentText (exponent : Int) : List Char :=
  let digits := Nat.toDigits 10 exponent.natAbs
  (if exponent < 0 then '-' else '+') :: List.replicate (2 - digits.length) '0' ++ digits

def times (x : Binary64) (factor : Nat) : Binary64 :=
  if x.exponentField = 2047 then x
  else ofRatio x.negative (factor * x.significand * twoTo x.scale.toNat) (twoTo (-x.scale).toNat)

/-- The number nearest to an integer, unless that is out of range. -/
def ofInt? (n : Int) : Option Binary64 :=
  let x := ofRatio (decide (n < 0)) n.natAbs 1
  if x.isInfinite then none else some x

end Foundry.Binary64
