import Foundry.Archive.Tar.Reader
import Foundry.Document.MessagePack.Reader
import Foundry.Files
import Foundry.Library.Release

/-! Reading the manifest of a library, be it packed or a directory. -/
namespace Foundry.Manifest

def failure : Tar.ReadFailure → Failure
  | .malformed => .notArchive
  | .stream ending => .badStream ending

/-- The pieces of a name between its slashes. -/
def pieces (name : Bytes) : List Bytes :=
  name.foldr
    (fun b pieces =>
      if b = Tar.slash then [] :: pieces
      else match pieces with
        | [] => [[b]]
        | piece :: more => (b :: piece) :: more)
    [[]]

/-- A name with `..` and the piece before it taken out, as the number of slashes in front (two, or
else at most one) and the pieces that name something. -/
def normal (name : Bytes) : Nat × List Bytes :=
  let dot := Utf8.encode "."
  let up := Utf8.encode ".."
  let slashes := (name.takeWhile (· = Tar.slash)).length
  let slashes := if slashes = 2 then 2 else min slashes 1
  let steps := (pieces name).foldl
    (fun done piece =>
      if piece.isEmpty || piece = dot then done
      else if piece ≠ up then piece :: done
      else match done with
        | [] => if slashes = 0 then [up] else []
        | last :: before => if last = up then up :: done else before)
    []
  (slashes, steps.reverse)

/-- What stands before the last slash of a name, without slashes at its end unless there is nothing
else. -/
def directoryOf (name : Bytes) : Bytes :=
  let head := (name.reverse.dropWhile (· ≠ Tar.slash)).reverse
  if head.all (· = Tar.slash) then head else Tar.dropSlashes head

def linkTarget (header : Tar.Header) : Bytes :=
  if header.kind = .symbolicLink then
    let directory := directoryOf header.name
    if directory.isEmpty || header.linkName.isEmpty then directory ++ header.linkName
    else directory ++ Tar.slash :: header.linkName
  else header.linkName

/-- The content of a member: that of a file, or of the file that a link leads to through at most as
many links as given; nothing if the member has no content. A symbolic link may lead to any member,
a hard link only to an earlier one; the last one of the name counts. -/
def contentOf (stream : DataStream) (members : List Tar.Member) (member : Tar.Member) :
    Nat → Except Failure (Option Bytes)
  | 0 => .error .linkLoop
  | fuel + 1 =>
    match member.header.kind with
    | .file | .unknown => ((Tar.content stream member).map some).mapError failure
    | .symbolicLink | .hardLink =>
      let among := if member.header.kind = .symbolicLink then members
        else members.takeWhile (· ≠ member)
      let target := linkTarget member.header
      match among.reverse.find? (fun other => normal other.header.name = normal target) with
      | some other => contentOf stream members other fuel
      | none => .error (.linkNotFound target)
    | _ => .ok none

/-- Whether a member is the manifest of the one library that an archive holds. -/
def isManifest (member : Tar.Member) : Bool :=
  match pieces member.header.name with
  | [_, name] => name = Utf8.encode manifestName
  | _ => false

/-- The bytes of the manifest in an archive, if it has one. -/
def inArchive (bytes : Bytes) : Except Failure (Option Bytes) := do
  let stream := Gzip.read bytes
  let members ← (Tar.members stream).mapError failure
  match members.find? isManifest with
  | none => pure none
  | some member => contentOf stream members member (members.length + 1)

def unpack (bytes : Bytes) : Run Value :=
  match MessagePack.unpack? bytes with
  | some value => pure value
  | none => throw .notPacked

def read (path : Path) : Run Value := do
  match ← Files.lookStrictly path.text with
  | some .directory => unpack (← Files.read (path.child manifestName).text)
  | _ => do
    let content ← Files.read path.text
    match inArchive content with
    | .error e => throw e
    | .ok (some bytes) => unpack bytes
    | .ok none => Run.fault (.libraryNotWritten path.text s!"no {manifestName} found")

end Foundry.Manifest
