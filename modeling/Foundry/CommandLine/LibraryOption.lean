import Foundry.Build.Job

/-! Linked libraries as the command line names them: `NAME=PATH,PATH,...`, and their linker flags as
`NAME=FLAG`. -/
namespace Foundry

/-- Read a linked library; empty paths do not count. -/
def LinkedLibrary.ofText? (text : String) (isDefault : Bool) : Option LinkedLibrary :=
  match Text.cut? '=' text with
  | none | some ("", _) => none
  | some (name, paths) =>
    some {
      name, isDefault
      includedPaths := (Text.split ',' paths).filter (· ≠ "") }

namespace CommandLine

inductive LibraryError where
  | notNamed (text : String)
  | unknownName (name text : String)
deriving DecidableEq, Repr

def LibraryError.message : LibraryError → String
  | notNamed text => s!"expected NAME=PATH[,PATH], got '{text}'"
  | unknownName name text => s!"no library named '{name}' for linker option '{text}'"

def readLibraries (isDefault : Bool) : List String → Except LibraryError (List LinkedLibrary)
  | [] => .ok []
  | text :: rest => do
    match LinkedLibrary.ofText? text isDefault with
    | none => .error (.notNamed text)
    | some library => return library :: (← readLibraries isDefault rest)

/-- The libraries with a flag added to the first one of a name; nothing if there is none. -/
def addFlagToFirst? (name flag : String) : List LinkedLibrary → Option (List LinkedLibrary)
  | [] => none
  | library :: rest =>
    if library.name = name then
      some ({ library with linkerOptions := library.linkerOptions ++ [flag] } :: rest)
    else (addFlagToFirst? name flag rest).map (library :: ·)

/-- The libraries with a flag added to the last one of a name. -/
def addFlag (libraries : List LinkedLibrary) (text : String) :
    Except LibraryError (List LinkedLibrary) :=
  match Text.cut? '=' text with
  | none => .error (.unknownName text text)
  | some (name, flag) =>
    match addFlagToFirst? name flag libraries.reverse with
    | some libraries => .ok libraries.reverse
    | none => .error (.unknownName name text)

/-- The linked libraries, the default ones first, with the flags that are given for them. -/
def linkedLibraries (defaults others flags : List String) :
    Except LibraryError (List LinkedLibrary) := do
  let defaults ← readLibraries true defaults
  let others ← readLibraries false others
  flags.foldlM addFlag (defaults ++ others)

end CommandLine

end Foundry
