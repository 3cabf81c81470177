import Foundry.Diagnostic.StyledNumber

/-! Message templates: text with replacement fields in braces.

A field names an argument or a part of one, and may ask for a conversion (after `!`) and a style
(after `:`). A brace that is text is written twice. What is put in for a field is not read again. -/
namespace Foundry

inductive Piece where
  | char (c : Char)
  | field (name : String) (conversion : Option Char) (style : String)
  /-- A place where the template is not well written; what follows it is not read. -/
  | flaw (message : String)
deriving DecidableEq, Repr

inductive FillError where
  /-- There is no argument of this name, or no entry of it in an argument. -/
  | missing (name : String)
  /-- An index is beyond the end of what it counts in. -/
  | outOfRange (message : String)
  | noMember
  /-- The argument has no items, or none that are named like this. -/
  | noItems
  /-- The template is not well written, or a style does not fit its argument. -/
  | malformed (message : String)
  | noStyles
  | unshowable
deriving DecidableEq, Repr

namespace Template

/-- Read the name of a field up to the character that ends it. Inside brackets only `]` counts. -/
def readName (done : List Char) (inBrackets : Bool) :
    List Char → Except String (String × Char × List Char)
  | [] => .error "expected '\x7d' before end of string"
  | c :: rest =>
    if inBrackets then readName (c :: done) (c ≠ ']') rest
    else if c = '\x7b' then .error "unexpected '\x7b' in field name"
    else if c = '\x7d' ∨ c = ':' ∨ c = '!' then
      .ok (String.ofList done.reverse, c, rest)
    else readName (c :: done) (c = '[') rest

/-- Read a style up to the brace that closes the field; `depth` braces are open in it. -/
def readStyle (done : List Char) (depth : Nat) : List Char → Except String (String × List Char)
  | [] => .error "unmatched '\x7b' in format spec"
  | c :: rest =>
    if c = '\x7d' then
      match depth with
      | 0 => .ok (String.ofList done.reverse, rest)
      | depth + 1 => readStyle (c :: done) depth rest
    else readStyle (c :: done) (if c = '\x7b' then depth + 1 else depth) rest

def readField (chars : List Char) : Except String (Piece × List Char) := do
  match ← readName [] false chars with
  | (name, ':', rest) =>
    let (style, rest) ← readStyle [] 0 rest
    pure (.field name none style, rest)
  | (name, '!', rest) =>
    match rest with
    | [] => throw "end of string while looking for conversion specifier"
    | [_] => throw "unmatched '\x7b' in format spec"
    | conversion :: '\x7d' :: rest => pure (.field name (some conversion) "", rest)
    | conversion :: ':' :: rest =>
      let (style, rest) ← readStyle [] 0 rest
      pure (.field name (some conversion) style, rest)
    | _ => throw "expected ':' after conversion specifier"
  | (name, _, rest) => pure (.field name none "", rest)

/-- The pieces of a template, read with as many steps as there are characters. -/
def readPieces (done : List Piece) : Nat → List Char → List Piece
  | 0, _ => done.reverse
  | fuel + 1, chars =>
    match chars with
    | [] => done.reverse
    | '\x7b' :: '\x7b' :: rest => readPieces (.char '\x7b' :: done) fuel rest
    | '\x7d' :: '\x7d' :: rest => readPieces (.char '\x7d' :: done) fuel rest
    | '\x7d' :: _ => (.flaw "Single '\x7d' encountered in format string" :: done).reverse
    | ['\x7b'] => (.flaw "Single '\x7b' encountered in format string" :: done).reverse
    | '\x7b' :: rest =>
      match readField rest with
      | .ok (piece, rest) => readPieces (piece :: done) fuel rest
      | .error message => (.flaw message :: done).reverse
    | c :: rest => readPieces (.char c :: done) fuel rest

def pieces (template : String) : List Piece :=
  readPieces [] (template.length + 1) template.toList

/-- The index that a name stands for, if it is a number. -/
def index? (name : List Char) : Except FillError (Option Nat) :=
  if name.isEmpty || !name.all Char.isDigit then .ok none
  else
    let n := Binary64.digitsValue name
    if FieldStyle.numberLimit < n then .error (.malformed FieldStyle.tooManyDigits)
    else .ok (some n)

/-- A member of a value: numbers have their parts. -/
def member (value : Value) (name : String) : Except FillError Value :=
  match value, name with
  | .int n, "real" | .int n, "numerator" => .ok (.int n)
  | .int _, "imag" | .bool _, "imag" => .ok (.int 0)
  | .int _, "denominator" | .bool _, "denominator" => .ok (.int 1)
  | .bool b, "real" | .bool b, "numerator" => .ok (.int (if b then 1 else 0))
  | .float x, "real" => .ok (.float x)
  | .float _, "imag" => .ok (.float (Binary64.ofRatio false 0 1))
  | _, _ => .error .noMember

def itemAt (what : String) (items : List Value) (index : Nat) : Except FillError Value :=
  match items[index]? with
  | some item => .ok item
  | none => .error (.outOfRange (what ++ "index out of range"))

/-- An item of a value: texts, byte strings and lists count theirs, and tables name them. -/
def item (value : Value) (name : List Char) : Except FillError Value := do
  match value, ← index? name with
  | .text s, some i => itemAt "string " (s.toList.map fun c => .text c.toString) i
  | .array items, some i => itemAt "list " items i
  | .bytes b, some i => itemAt "" (b.map fun byte => .int byte.toNat) i
  | .table _, some i => throw (.missing (toString i))
  | .table entries, none =>
    match Table.get? entries (String.ofList name) with
    | some value => pure value
    | none => throw (.missing (String.ofList name))
  | _, _ => throw .noItems

def beginsPart (c : Char) : Bool := c = '.' || c = '['

def namelessPart : FillError := .malformed "Empty attribute in format string"

/-- Follow the parts of a field's name, with as many steps as there are characters. -/
def follow (value : Value) : Nat → List Char → Except FillError Value
  | 0, _ | _, [] => pure value
  | fuel + 1, '.' :: rest => do
    let name := rest.takeWhile (!beginsPart ·)
    if name.isEmpty then throw namelessPart
    follow (← member value (String.ofList name)) fuel (rest.dropWhile (!beginsPart ·))
  | fuel + 1, '[' :: rest => do
    match rest.span (· ≠ ']') with
    | (_, []) => throw (.malformed "Missing ']' in format string")
    | (name, _ :: rest) =>
      if name.isEmpty then throw namelessPart
      follow (← item value name) fuel rest
  | _, _ => throw (.malformed "Only '.' or '[' may follow ']' in format field specifier")

/-- The argument that a field's name asks for. Arguments have names; one that is asked for by its
position is not there, and a field without a name asks for the first position. -/
def argument (arguments : Table) (name : String) : Except FillError Value := do
  let base := name.toList.takeWhile (!beginsPart ·)
  let position ← if base.isEmpty then pure (some 0) else index? base
  if let some i := position then
    throw (.outOfRange
      ("Replacement index " ++ toString i ++ " out of range for positional args tuple"))
  match arguments.get? (String.ofList base) with
  | none => throw (.missing (String.ofList base))
  | some value => follow value name.length (name.toList.dropWhile (!beginsPart ·))

/-- A value after a conversion: `s` shows it by itself, `r` as it is shown inside others, and `a`
like `r` in ASCII alone. -/
def convert (value : Value) : Option Char → Except FillError Value
  | none => pure value
  | some 's' => pure (.text value.plain)
  | some 'r' => pure (.text value.literal)
  | some 'a' => pure (.text (Text.asciiOnly value.literal))
  | some c =>
    let shown := if c.toNat = 127 then "\\x7f" else FieldStyle.kindText c
    throw (.malformed s!"Unknown conversion specifier {shown}")

def showStyled (value : Value) (style : String) : Except FillError String :=
  match value.styled style with
  | .ok text => pure text
  | .error (.unfit message) => throw (.malformed message)
  | .error .outOfRange => throw .unshowable
  | .error .noStyles => throw .noStyles

/-- Fill in pieces, one after another; the first that cannot be filled in decides the error.
`inner` fills in the fields of a style. -/
def fillPieces (inner : String → Except FillError String) (arguments : Table)
    (done : List String) : List Piece → Except FillError String
  | [] => pure (String.join done.reverse)
  | .char c :: rest => fillPieces inner arguments (c.toString :: done) rest
  | .flaw message :: _ => throw (.malformed message)
  | .field name conversion style :: rest => do
    let value ← convert (← argument arguments name) conversion
    let style ← if style.toList.contains '\x7b' then inner style else pure style
    let text ← showStyled value style
    fillPieces inner arguments (text :: done) rest

/-- Fill in a template whose styles may themselves hold fields, `depth` levels deep. -/
def fillDeep (arguments : Table) : Nat → String → Except FillError String
  | 0, _ => throw (.malformed "Max string recursion exceeded")
  | depth + 1, template => fillPieces (fillDeep arguments depth) arguments [] (pieces template)

def fill (template : String) (arguments : Table) : Except FillError String :=
  fillDeep arguments 2 template

end Template

end Foundry
