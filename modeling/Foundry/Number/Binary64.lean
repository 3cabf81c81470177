import Foundry.Number.Power

/-! IEEE 754 numbers of 64 bits, as their bits.

Nothing here computes with hardware numbers: a text or a quotient is rounded once, to nearest and
to even on a tie, in exact arithmetic on natural numbers. -/
namespace Foundry

/-- A binary64 number. Two are equal if their bits are, so NaN equals itself and 0 differs
from -0. -/
structure Binary64 where
  bits : UInt64
deriving DecidableEq, Repr, Inhabited

namespace Binary64

def negative (x : Binary64) : Bool := twoTo 63 ≤ x.bits.toNat

def exponentField (x : Binary64) : Nat := x.bits.toNat / twoTo 52 % 2048

def fraction (x : Binary64) : Nat := x.bits.toNat % twoTo 52

def isNaN (x : Binary64) : Bool := x.exponentField == 2047 && x.fraction != 0

def isInfinite (x : Binary64) : Bool := x.exponentField == 2047 && x.fraction == 0

/-- A finite number is its significand times `2 ^ scale`, up to its sign. -/
def significand (x : Binary64) : Nat :=
  if x.exponentField = 0 then x.fraction else x.fraction + twoTo 52

/-- The power of two that the significand counts. -/
def scale (x : Binary64) : Int :=
  if x.exponentField = 0 then -1074 else x.exponentField - 1075

/-- The bits of infinity without its sign. -/
def infinityField : Nat := 2047 * twoTo 52

/-- The number with the given sign and the other 63 bits. -/
def ofMagnitude (negative : Bool) (magnitude : Nat) : Binary64 :=
  ⟨UInt64.ofNat ((if negative then twoTo 63 else 0) + magnitude)⟩

def infinity (negative : Bool) : Binary64 := ofMagnitude negative infinityField

def nan (negative : Bool) : Binary64 := ofMagnitude negative (infinityField + twoTo 51)

/-- The integer nearest to `num / den`, the even one on a tie. -/
def roundRatio (num den : Nat) : Nat :=
  let quotient := num / den
  let rest := num % den
  if 2 * rest < den then quotient
  else if den < 2 * rest then quotient + 1
  else quotient + quotient % 2

/-- The power of two to count `num / den` in, so that 53 binary digits stand before the point, or
fewer if the number is too small for that. -/
def scaleFor (num den : Nat) : Int :=
  let top := Nat.log2 num
  let bottom := Nat.log2 den
  let guess : Int := top - bottom - 52
  max (if den * twoTo top ≤ num * twoTo bottom then guess else guess - 1) (-1074)

/-- The number nearest to `num / den`. A carry out of the significand lands in the exponent field,
where it belongs. -/
def ofRatio (negative : Bool) (num den : Nat) : Binary64 :=
  if num = 0 then ofMagnitude negative 0
  else
    let scale := scaleFor num den
    let units :=
      if 0 ≤ scale then roundRatio num (den * twoTo scale.toNat)
      else roundRatio (num * twoTo (-scale).toNat) den
    ofMagnitude negative (min ((scale + 1074).toNat * twoTo 52 + units) infinityField)

/-- The number nearest to `coefficient * 10 ^ exponent`. Exponents far out of range are settled
without computing the power. -/
def ofDecimal (negative : Bool) (coefficient : Nat) (exponent : Int) : Binary64 :=
  if coefficient = 0 then ofMagnitude negative 0
  else if 400 < exponent then infinity negative
  else if exponent < -(400 + (Nat.log2 coefficient : Int)) then ofMagnitude negative 0
  else if 0 ≤ exponent then ofRatio negative (coefficient * tenTo exponent.toNat) 1
  else ofRatio negative coefficient (tenTo (-exponent).toNat)

/-- The number that a binary32 number with the given bits has, exactly. -/
def ofBinary32 (bits : Nat) : Binary64 :=
  let negative : Bool := twoTo 31 ≤ bits
  let field := bits / twoTo 23 % 256
  let fraction := bits % twoTo 23
  if field = 255 then
    if fraction = 0 then infinity negative
    else
      let kept := fraction % twoTo 22 * twoTo 29
      ofMagnitude negative (infinityField + twoTo 51 + kept)
  else if field = 0 then ofRatio negative fraction (twoTo 149)
  else ofRatio negative ((fraction + twoTo 23) * twoTo field) (twoTo 150)

def digitsValue (digits : List Char) : Nat :=
  digits.foldl (fun n c => n * 10 + (c.toNat - '0'.toNat)) 0

def readSign : List Char → Bool × List Char
  | '-' :: rest => (true, rest)
  | '+' :: rest => (false, rest)
  | rest => (false, rest)

/-- Read the exponent part that may follow the digits; nothing else may. -/
def readExponent? : List Char → Option Int
  | [] => some 0
  | e :: rest =>
    if e = 'e' ∨ e = 'E' then
      let (negative, digits) := readSign rest
      if digits.isEmpty || !digits.all Char.isDigit then none
      else some (if negative then -(digitsValue digits : Int) else digitsValue digits)
    else none

/-- The number that a decimal text or the name of a special value stands for. -/
def read? (text : List Char) : Option Binary64 :=
  let (negative, body) := readSign text
  if body = "inf".toList then some (infinity negative)
  else if body = "nan".toList then some (nan negative)
  else
    let whole := body.takeWhile Char.isDigit
    let (part, rest) :=
      match body.dropWhile Char.isDigit with
      | '.' :: more => (more.takeWhile Char.isDigit, more.dropWhile Char.isDigit)
      | more => ([], more)
    if whole.isEmpty && part.isEmpty then none
    else
      (readExponent? rest).map fun exponent =>
        ofDecimal negative (digitsValue (whole ++ part)) (exponent - part.length)

end Binary64

end Foundry
