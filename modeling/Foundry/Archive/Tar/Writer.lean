import Foundry.Archive.Tar.Header

/-! Writing tar archives. A name that is long or not ASCII, and a size that is too large for its
field, go into an extended header of their own. -/
namespace Foundry.Tar

/-- What is written: a directory, or a file with its content. -/
structure Item where
  name : String
  content : Option Bytes
deriving DecidableEq, Repr

def blocks (content : Bytes) : Bytes :=
  content ++ List.replicate (padded content.length - content.length) 0

/-- The length of a record whose other parts have `size` bytes, its own digits included. -/
def recordLength (size : Nat) : Nat :=
  ((List.range 20).map fun digits => size + digits + 1).find?
    (fun total => size + (Nat.toDigits 10 total).length = total) |>.getD size

def fieldRecord (key value : Bytes) : Bytes :=
  let length := recordLength (key.length + value.length + 3)
  Utf8.encode (toString length) ++ 0x20 :: key ++ 0x3D :: value ++ [0x0A]

/-- The longest name that a header holds. -/
def nameSize : Nat := 100

/-- The first size that is too large for its field. -/
def sizeLimit : Nat := Nat.pow 8 11

/-- The records of an extended header for what does not fit into the header itself. -/
def records (name : String) (size : Nat) : Bytes :=
  (if name.length ≤ nameSize ∧ name.toList.all (·.toNat < 0x80) then []
    else fieldRecord (Utf8.encode "path") (Utf8.encode name)) ++
  if size < sizeLimit then []
  else fieldRecord (Utf8.encode "size") (Utf8.encode (toString size))

/-- The extended header for a name and a size, if they need one. -/
def extendedHeader (name : String) (size : Nat) : Bytes :=
  let fields := records name size
  if fields.isEmpty then []
  else writeHeader ⟨Utf8.encode "././@PaxHeader", .extended, fields.length, []⟩ ++ blocks fields

def memberHeader (name : String) (kind : Kind) (size : Nat) : Bytes :=
  let field := if size < sizeLimit then size else 0
  extendedHeader name size ++ writeHeader ⟨Utf8.encode name, kind, field, []⟩

def writeItem (item : Item) : Bytes :=
  match item.content with
  | none => memberHeader (item.name ++ "/") .directory 0
  | some content => memberHeader item.name .file content.length ++ blocks content

/-- The size to whose multiple an archive is filled up. -/
def recordSize : Nat := 20 * blockSize

def write (items : List Item) : Bytes :=
  let body := items.flatMap writeItem ++ List.replicate (2 * blockSize) 0
  body ++ List.replicate ((recordSize - body.length % recordSize) % recordSize) 0

end Foundry.Tar
