/-! Why the system refuses an operation. -/
namespace Foundry

/-- A refusal of the operating system. -/
inductive Errno where
  | noEntry
  | argumentsTooLong
  | badExecutable
  | noPermission
  | busy
  | alreadyExists
  | notDirectory
  | isDirectory
  | invalid
  | nameTooLong
  | notEmpty
deriving DecidableEq, Repr

namespace Errno

def number : Errno → Nat
  | noEntry => 2
  | argumentsTooLong => 7
  | badExecutable => 8
  | noPermission => 13
  | busy => 16
  | alreadyExists => 17
  | notDirectory => 20
  | isDirectory => 21
  | invalid => 22
  | nameTooLong => 36
  | notEmpty => 39

def text : Errno → String
  | noEntry => "No such file or directory"
  | argumentsTooLong => "Argument list too long"
  | badExecutable => "Exec format error"
  | noPermission => "Permission denied"
  | busy => "Device or resource busy"
  | alreadyExists => "File exists"
  | notDirectory => "Not a directory"
  | isDirectory => "Is a directory"
  | invalid => "Invalid argument"
  | nameTooLong => "File name too long"
  | notEmpty => "Directory not empty"

/-- The refusals with which a process may fail to start, each with its symbol. -/
def ofStart : List (String × Errno) :=
  [("ENOENT", noEntry), ("EACCES", noPermission), ("ENOEXEC", badExecutable),
    ("EISDIR", isDirectory), ("ENOTDIR", notDirectory), ("E2BIG", argumentsTooLong)]

end Errno

end Foundry
