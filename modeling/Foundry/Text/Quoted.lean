import Foundry.Bytes
import Foundry.Text.Printable

/-! Quoted texts and byte strings.

A text stands between single quotes, or between double quotes if it holds a single quote and no
double one. A backslash and the quote in use are escaped, and so is each character that is not
shown as it is. -/
namespace Foundry.Text

/-- The lower-case hexadecimal digits of `n`, at least `width` of them. -/
def hexDigits (width n : Nat) : List Char :=
  let digits := Nat.toDigits 16 n
  List.replicate (width - digits.length) '0' ++ digits

/-- The quote to use around characters: double only where that avoids an escape. -/
def quoteFor (text : List Char) : Char :=
  if text.contains '\'' && !text.contains '"' then '"' else '\''

/-- How a character is written between two `quote`s. -/
def quotedChar (quote c : Char) : List Char :=
  if c = quote ∨ c = '\\' then ['\\', c]
  else if c = '\n' then ['\\', 'n']
  else if c = '\r' then ['\\', 'r']
  else if c = '\t' then ['\\', 't']
  else if isPrintable c then [c]
  else if c.toNat < 0x100 then '\\' :: 'x' :: hexDigits 2 c.toNat
  else if c.toNat < 0x10000 then '\\' :: 'u' :: hexDigits 4 c.toNat
  else '\\' :: 'U' :: hexDigits 8 c.toNat

def quoted (text : String) : String :=
  let quote := quoteFor text.toList
  String.ofList (quote :: text.toList.flatMap (quotedChar quote) ++ [quote])

/-- How a character is written between two `quote`s if only ASCII may be used. -/
def asciiChar (quote c : Char) : List Char :=
  if c.toNat < 0x80 then quotedChar quote c
  else if c.toNat < 0x100 then '\\' :: 'x' :: hexDigits 2 c.toNat
  else if c.toNat < 0x10000 then '\\' :: 'u' :: hexDigits 4 c.toNat
  else '\\' :: 'U' :: hexDigits 8 c.toNat

/-- Any text with its characters beyond ASCII escaped. -/
def asciiOnly (text : String) : String :=
  String.ofList (text.toList.flatMap fun c =>
    if c.toNat < 0x80 then [c] else asciiChar '\'' c)

/-- A byte string in quotes, marked by a leading `b`. -/
def quotedBytes (bytes : Bytes) : String :=
  let chars := bytes.map fun b => Char.ofNat b.toNat
  let quote := quoteFor chars
  String.ofList ('b' :: quote :: chars.flatMap (asciiChar quote) ++ [quote])

end Foundry.Text
