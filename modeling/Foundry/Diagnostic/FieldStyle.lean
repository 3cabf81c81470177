import Foundry.Document.Shown

/-! The style of a replacement field: fill, alignment, width and the like, as written after its
colon. A style is read without regard to the value; whether it fits is for the value to say. -/
namespace Foundry

/-- Why a value cannot be shown in a style. -/
inductive StyleError where
  /-- The style is not written well, or not one for this kind of value. -/
  | unfit (message : String)
  /-- The number is out of the range that the style can show. -/
  | outOfRange
  /-- The kind of value has no styles. -/
  | noStyles
deriving DecidableEq, Repr

structure FieldStyle where
  fill : Char := ' '
  align : Option Char := none
  sign : Option Char := none
  keepsZeroPositive : Bool := false
  alternate : Bool := false
  zeroFilled : Bool := false
  width : Nat := 0
  grouping : Option Char := none
  precision : Option Nat := none
  kind : Option Char := none
deriving DecidableEq, Repr

namespace FieldStyle

def isAlign (c : Char) : Bool := c = '<' || c = '>' || c = '=' || c = '^'

/-- Read the alignment, with a fill character in front of it if there is one. -/
def readAlign (style : FieldStyle) : List Char → FieldStyle × Bool × List Char
  | c :: d :: rest =>
    if isAlign d then ({ style with fill := c, align := some d }, true, rest)
    else if isAlign c then ({ style with align := some c }, false, d :: rest)
    else (style, false, c :: d :: rest)
  | [c] => if isAlign c then ({ style with align := some c }, false, []) else (style, false, [c])
  | [] => (style, false, [])

/-- Read one of `options` if it stands first. -/
def readOne (options : List Char) : List Char → Option Char × List Char
  | c :: rest => if options.contains c then (some c, rest) else (none, c :: rest)
  | [] => (none, [])

/-- The largest number that a style or an index may hold. -/
def numberLimit : Nat := twoTo 63 - 1

def tooManyDigits : String := "Too many decimal digits in format string"

/-- Read a decimal number; nothing if there is no digit. -/
def readNumber (chars : List Char) : Except StyleError (Option Nat × List Char) :=
  match chars.span Char.isDigit with
  | ([], rest) => .ok (none, rest)
  | (digits, rest) =>
    let n := Binary64.digitsValue digits
    if numberLimit < n then .error (.unfit tooManyDigits) else .ok (some n, rest)

def readGrouping : List Char → Except StyleError (Option Char × List Char)
  | ',' :: '_' :: _ | '_' :: ',' :: _ => .error (.unfit "Cannot specify both ',' and '_'.")
  | chars => .ok (readOne [',', '_'] chars)

def readPrecision : List Char → Except StyleError (Option Nat × List Char)
  | '.' :: rest => do
    match ← readNumber rest with
    | (none, _) => throw (.unfit "Format specifier missing precision")
    | found => pure found
  | rest => .ok (none, rest)

def kindText (kind : Char) : String :=
  if 32 < kind.toNat ∧ kind.toNat < 128 then kind.toString
  else "\\x" ++ String.ofList (Nat.toDigits 16 kind.toNat)

/-- Whether a kind of style may have its digits grouped by a mark. -/
def mayGroup (mark kind : Char) : Bool :=
  ['d', 'e', 'f', 'g', 'E', 'G', '%', 'F'].contains kind ||
    (mark = '_' && ['b', 'o', 'x', 'X'].contains kind)

/-- Check that the kind of a style, `usual` where it names none, may have its digits grouped as the
style asks. -/
def checkGrouping (style : FieldStyle) (usual : Option Char) : Except StyleError FieldStyle :=
  match style.grouping, style.kind.or usual with
  | some mark, some kind =>
    if mayGroup mark kind then .ok style
    else
      let shown := kindText kind
      .error (.unfit s!"Cannot specify '{mark.toString}' with '{shown}'.")
  | _, _ => .ok style

/-- Read a style for a value that is called `typeName` in messages and is shown in the `usual` kind
if the style names none. -/
def read (typeName : String) (usual : Option Char) (text : String) :
    Except StyleError FieldStyle := do
  let (style, filled, rest) := readAlign {} text.toList
  let (sign, rest) := readOne ['+', '-', ' '] rest
  let (zero, rest) := readOne ['z'] rest
  let (alternate, rest) := readOne ['#'] rest
  let (zeros, rest) := if filled then (none, rest) else readOne ['0'] rest
  let (width, rest) ← readNumber rest
  let (grouping, rest) ← readGrouping rest
  let (precision, rest) ← readPrecision rest
  let style := { style with
    fill := if zeros.isSome then '0' else style.fill
    sign, keepsZeroPositive := zero.isSome, alternate := alternate.isSome
    zeroFilled := zeros.isSome
    width := width.getD 0, grouping, precision }
  match rest with
  | [] => style.checkGrouping usual
  | [kind] => checkGrouping { style with kind := some kind } usual
  | _ => throw (.unfit s!"Invalid format specifier '{text}' for object of type '{typeName}'")

/-- Put `body` behind `lead` into the width; `=` puts the fill between the two. -/
def pad (style : FieldStyle) (align : Char) (lead body : List Char) : String :=
  let missing := style.width - (lead.length + body.length)
  let fill (n : Nat) := List.replicate n style.fill
  String.ofList <| match align with
    | '<' => lead ++ body ++ fill missing
    | '^' => fill (missing / 2) ++ lead ++ body ++ fill (missing - missing / 2)
    | '=' => lead ++ fill missing ++ body
    | _ => fill missing ++ lead ++ body

def unknownKind (kind : Char) (typeName : String) : StyleError :=
  let shown := kindText kind
  .unfit s!"Unknown format code '{shown}' for object of type '{typeName}'"

def showText (style : FieldStyle) (text : String) : Except StyleError String := do
  if style.kind.any (· ≠ 's') then
    throw (unknownKind (style.kind.getD 's') "str")
  if style.sign.isSome then
    throw (.unfit (if style.sign = some ' ' then "Space not allowed in string format specifier"
      else "Sign not allowed in string format specifier"))
  if style.keepsZeroPositive then
    throw (.unfit "Negative zero coercion (z) not allowed in string format specifier")
  if style.alternate then
    throw (.unfit "Alternate form (#) not allowed in string format specifier")
  if style.align = some '=' then
    throw (.unfit "'=' alignment not allowed in string format specifier")
  let chars := match style.precision with
    | some n => text.toList.take n
    | none => text.toList
  pure (style.pad (style.align.getD '<') [] chars)

end FieldStyle

end Foundry
