import Foundry.Diagnostic.FieldStyle
import Foundry.Number.Rounded

/-! Integers and binary64 numbers in the style of a replacement field. -/
namespace Foundry

namespace FieldStyle

def numberAlign (style : FieldStyle) : Char :=
  style.align.getD (if style.zeroFilled then '=' else '>')

def signOf (style : FieldStyle) (negative : Bool) : List Char :=
  if negative then ['-']
  else match style.sign with
    | some '+' => ['+']
    | some ' ' => [' ']
    | _ => []

/-- Digits with a mark after each `size` of them, counted from the end. -/
def grouped (mark : Char) (size : Nat) (digits : List Char) : List Char :=
  (digits.reverse.zipIdx.flatMap fun (c, i) =>
    if 0 < i ∧ i % size = 0 then [mark, c] else [c]).reverse

/-- How many digits, grouped by `size`, are the fewest that take up `width` with their marks. No
text begins with a mark, so it may come out one wider. -/
def digitsToFill (size width : Nat) : Nat :=
  width / (size + 1) * size + max (width % (size + 1)) 1

/-- A number from its parts: what stands before its digits, the whole digits, and what follows them.
Where zeros fill the width behind the sign they are digits, and are grouped like digits. -/
def layOut (style : FieldStyle) (size : Nat) (lead digits rest : List Char) : String :=
  let align := style.numberAlign
  let wanted :=
    if style.fill = '0' ∧ align = '=' then style.width - (lead.length + rest.length) else 0
  let widened (count : Nat) := List.replicate (count - digits.length) '0' ++ digits
  let body :=
    if digits.isEmpty then []
    else match style.grouping with
      | some mark => grouped mark size (widened (digitsToFill size wanted))
      | none => widened wanted
  style.pad align lead (body ++ rest)

/-- The base of an integer style, its mark in the alternate form, and the size of its groups. -/
def base? : Option Char → Option (Nat × List Char × Nat)
  | none | some 'd' | some 'n' => some (10, [], 3)
  | some 'b' => some (2, ['0', 'b'], 4)
  | some 'o' => some (8, ['0', 'o'], 4)
  | some 'x' => some (16, ['0', 'x'], 4)
  | some 'X' => some (16, ['0', 'X'], 4)
  | _ => none

/-- The kinds in which a binary64 number, or an integer made one, is shown. -/
def floatKinds : List Char := ['e', 'E', 'f', 'F', 'g', 'G', '%']

def showCharacter (style : FieldStyle) (n : Int) : Except StyleError String := do
  if style.sign.isSome then
    throw (.unfit "Sign not allowed with integer format specifier 'c'")
  if style.alternate then
    throw (.unfit "Alternate form (#) not allowed with integer format specifier 'c'")
  if n < 0 ∨ 0x10ffff < n then throw .outOfRange
  pure (style.layOut 3 [] [] [Char.ofNat n.toNat])

/-- Show the digits of an integer; `kind` is one that has a base. -/
def showDigits (style : FieldStyle) (base : Nat) (mark : List Char) (size : Nat) (n : Int) :
    String :=
  let digits := Nat.toDigits base n.natAbs
  let digits := if style.kind = some 'X' then digits.map Char.toUpper else digits
  let lead := style.signOf (decide (n < 0)) ++ if style.alternate then mark else []
  style.layOut size lead digits []

/-- The most digits behind the point that can be asked for. -/
def precisionLimit : Nat := twoTo 31 - 1

/-- The digits of a finite number in a style, where the text ends, and whether it has an exponent.
A kind is one of `e`, `f` and `g`; with none, the fewest digits that read back are shown, or as
many significant ones as the precision says. -/
def floatDigits (style : FieldStyle) (kind : Option Char) (x : Binary64) :
    Binary64.Digits × Int × Bool :=
  let fewOrMany (d : Binary64.Digits) (limit : Int) := decide (d.point ≤ -4 ∨ limit < d.point)
  let significant (count : Nat) (limit : Int) :=
    let d := x.significantDigits count
    (d, (if style.alternate then (count : Int) else (d.digits.length : Int)), fewOrMany d limit)
  match kind, style.precision with
  | some 'e', precision =>
    let count := precision.getD 6 + 1
    (x.significantDigits count, (count : Int), true)
  | some 'f', precision =>
    let places := precision.getD 6
    let d := x.fixedDigits places
    (d, d.point + places, false)
  | some _, precision =>
    let count := max (precision.getD 6) 1
    significant count count
  | none, some precision =>
    let count := max precision 1
    significant count (count - 1 : Int)
  | none, none =>
    let d := x.shortestDigits
    (d, (d.digits.length : Int), fewOrMany d 16)

/-- The whole digits of a finite number, and what follows them: the point with the digits behind it
and the exponent. With no kind, a number without an exponent has a digit behind its point. -/
def floatParts (style : FieldStyle) (kind : Option Char) (x : Binary64) :
    List Char × List Char :=
  let (d, last, hasExponent) := style.floatDigits kind x
  let point := if hasExponent then 1 else d.point
  let last := max last (if kind.isNone && !hasExponent then point + 1 else point)
  let part := d.window point last
  let behind := if part.isEmpty then (if style.alternate then ['.'] else []) else '.' :: part
  let power := if hasExponent then 'e' :: Binary64.exponentText (d.point - 1) else []
  (d.window (if point ≤ 0 then point - 1 else 0) point, behind ++ power)

/-- Whether only zeros are shown of a finite number. -/
def showsZero (style : FieldStyle) (kind : Option Char) (x : Binary64) : Bool :=
  (style.floatDigits kind x).1.digits.all (· = '0')

/-- Show a binary64 number that is called `typeName` in messages. -/
def showFloat (style : FieldStyle) (typeName : String) (x : Binary64) :
    Except StyleError String := do
  if let some kind := style.kind then
    if !(floatKinds ++ ['n']).contains kind then throw (unknownKind kind typeName)
  if style.precision.any (precisionLimit < ·) then throw (.unfit "precision too big")
  let kind := style.kind.map fun kind =>
    if kind = '%' then 'f' else if kind = 'n' then 'g' else kind.toLower
  let capital := style.kind.any Char.isUpper
  let x := if style.kind = some '%' then x.times 100 else x
  let cased (chars : List Char) := if capital then chars.map Char.toUpper else chars
  let percent := if style.kind = some '%' then ['%'] else []
  if x.isNaN then
    pure (style.layOut 3 (style.signOf false) [] (cased "nan".toList ++ percent))
  else if x.isInfinite then
    pure (style.layOut 3 (style.signOf x.negative) [] (cased "inf".toList ++ percent))
  else
    let (whole, rest) := style.floatParts kind x
    let negative := x.negative && !(style.keepsZeroPositive && style.showsZero kind x)
    pure (style.layOut 3 (style.signOf negative) whole (cased rest ++ percent))

def showInt (style : FieldStyle) (typeName : String) (n : Int) : Except StyleError String := do
  if style.kind.any floatKinds.contains then
    match Binary64.ofInt? n with
    | some x => style.showFloat typeName x
    | none => throw .outOfRange
  else if style.kind ≠ some 'c' ∧ (base? style.kind).isNone then
    throw (unknownKind (style.kind.getD 'd') typeName)
  else
    if style.precision.isSome then
      throw (.unfit "Precision not allowed in integer format specifier")
    if style.keepsZeroPositive then
      throw (.unfit "Negative zero coercion (z) not allowed in integer format specifier")
    match base? style.kind with
    | some (base, mark, size) => pure (style.showDigits base mark size n)
    | none => style.showCharacter n

end FieldStyle

namespace Value

/-- Show a value in the style that a text describes. Texts and numbers have styles; other values
take the empty style only. -/
def styled (value : Value) (style : String) : Except StyleError String :=
  if style = "" then pure value.plain
  else match value with
    | .text s => do (← FieldStyle.read "str" (some 's') style).showText s
    | .int n => do (← FieldStyle.read "int" (some 'd') style).showInt "int" n
    | .bool b => do (← FieldStyle.read "bool" (some 'd') style).showInt "bool" (if b then 1 else 0)
    | .float x => do (← FieldStyle.read "float" none style).showFloat "float" x
    | _ => .error .noStyles

end Value

end Foundry
