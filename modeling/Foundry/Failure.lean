import Foundry.Archive.Gzip
import Foundry.Diagnostic.Fault
import Foundry.Document.MessagePack.Writer
import Foundry.FileSystem.Refusal
import Foundry.Path

/-! Everything that can end an operation early. -/
namespace Foundry

/-- Why an operation ended without a result. -/
inductive Failure where
  | fault (f : Fault)
  | refusal (r : Refusal)
  /-- A path holds the character that ends paths. -/
  | zeroInPath
  /-- A name was to be given to a path without a last part. -/
  | emptyName (path : Path)
  /-- A step that takes one object file got another number of them. -/
  | objectCount (count : Nat)
  | notToml
  | notUtf8
  | integerTooLong (digits : Nat)
  | notPacked
  | unpackable (e : PackError)
  | notArchive
  | badStream (ending : StreamEnd)
  | missingKey (key : String)
  /-- A value is of a kind that lacks what was asked of it. -/
  | lacksMember
  /-- A value is of a kind for which an operation has no meaning. -/
  | wrongKind
  | noHome
  /-- A link of an archive leads nowhere. -/
  | linkNotFound (name : Bytes)
  | linkLoop
  | badModule (message : String)
deriving DecidableEq, Repr

end Foundry
