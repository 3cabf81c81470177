import Foundry.FileSystem.Errno
import Foundry.Text.Quoted

/-! Refused file operations, with the files that they were about. -/
namespace Foundry

/-- A file as a message names it: by its path alone, or with a word that it is a path. -/
inductive FileName where
  | text (path : String)
  | typed (path : String)
deriving DecidableEq, Repr

namespace FileName

def plain : FileName → String
  | text path => path
  | typed path => path

def literal : FileName → String
  | text path => Text.quoted path
  | typed path => s!"PosixPath({Text.quoted path})"

end FileName

inductive Refusal where
  | system (errno : Errno) (name : FileName)
  /-- A file was to be copied onto itself. -/
  | sameFile (source target : FileName)
  /-- A copy was to go into a directory that is not there. -/
  | noDirectory (path : String)
  /-- Something has the name already that a moved file is to get in a directory. -/
  | occupied (path : String)
  | intoItself (source target : String)
deriving DecidableEq, Repr

namespace Refusal

/-- What happened, with the files that it is about. -/
def text : Refusal → String
  | system errno name => s!"[Errno {errno.number}] {errno.text}: {name.literal}"
  | sameFile source target => s!"{source.literal} and {target.literal} are the same file"
  | noDirectory path => s!"Directory does not exist: {path}"
  | occupied path => s!"Destination path '{path}' already exists"
  | intoItself source target => s!"Cannot move a directory '{source}' into itself '{target}'."

/-- What happened, without the file where the system gives the reason. -/
def reason : Refusal → String
  | system errno _ => errno.text
  | other => other.text

end Refusal

end Foundry
