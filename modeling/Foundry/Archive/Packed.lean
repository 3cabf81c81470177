import Foundry.Archive.Tar.Reader
import Foundry.Archive.Tar.Writer

/-! Packed trees: compressed archives of files and directories. -/
namespace Foundry.Packed

def write (items : List Tar.Item) : Bytes := Gzip.write (Tar.write items)

def itemOf? (stream : DataStream) (member : Tar.Member) : Option Tar.Item := do
  let name := Utf8.decodeLossy member.header.name
  if member.header.kind = .directory then return ⟨name, none⟩
  let content ← (Tar.content stream member).toOption
  return ⟨name, some content⟩

/-- The items of a packed tree, if the bytes are one. -/
def read? (bytes : Bytes) : Option (List Tar.Item) := do
  let stream := Gzip.read bytes
  let members ← (Tar.members stream).toOption
  members.mapM (itemOf? stream)

end Foundry.Packed
