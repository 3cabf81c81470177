/-! White space, and the words between it. -/
namespace Foundry.Text

/-- The characters that separate words: the white space of Unicode and the four information
separators U+001C to U+001F. -/
def isBlank (c : Char) : Bool :=
  let n := c.toNat
  (9 ≤ n && n ≤ 13) || (28 ≤ n && n ≤ 32) || n == 0x85 || n == 0xA0 || n == 0x1680 ||
    (0x2000 ≤ n && n ≤ 0x200A) || n == 0x2028 || n == 0x2029 || n == 0x202F || n == 0x205F ||
    n == 0x3000

/-- The reader of words: the complete words (last first) and the begun one (last character
first). -/
structure WordReader where
  done : List String := []
  begun : List Char := []

namespace WordReader

/-- The words read, the begun one included. -/
def close (r : WordReader) : WordReader :=
  if r.begun.isEmpty then r else { done := String.ofList r.begun.reverse :: r.done, begun := [] }

def push (r : WordReader) (c : Char) : WordReader :=
  if isBlank c then r.close else { r with begun := c :: r.begun }

end WordReader

/-- The longest pieces of a text without white space. -/
def words (text : String) : List String :=
  (text.toList.foldl WordReader.push {}).close.done.reverse

end Foundry.Text
