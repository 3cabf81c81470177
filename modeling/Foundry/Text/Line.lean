/-! Lines of a text. A line ends with LF, CR or CR LF, and no other character ends one. -/
namespace Foundry.Text

/-- The reader of lines: the complete lines (last first), the begun one (last character first),
and whether the last character was a CR. -/
structure LineReader where
  done : List String := []
  begun : List Char := []
  afterReturn : Bool := false

namespace LineReader

/-- The begun line is complete; whatever ended it is shown as an LF. -/
def close (r : LineReader) (afterReturn : Bool) : LineReader :=
  { done := String.ofList ('\n' :: r.begun).reverse :: r.done, begun := [], afterReturn }

/-- Read one character; an LF right after a CR belongs to the same line end. -/
def push (r : LineReader) (c : Char) : LineReader :=
  if c = '\n' then
    if r.afterReturn then { r with afterReturn := false } else r.close false
  else if c = '\r' then r.close true
  else { r with begun := c :: r.begun, afterReturn := false }

/-- The lines read, with a last one without a line end unless it is empty. -/
def finish (r : LineReader) : List String :=
  (if r.begun.isEmpty then r.done else String.ofList r.begun.reverse :: r.done).reverse

end LineReader

/-- The lines of a text, each with an LF at its end, but perhaps not the last one. -/
def lines (text : String) : List String :=
  (text.toList.foldl LineReader.push {}).finish

end Foundry.Text
