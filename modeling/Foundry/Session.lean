import Foundry.Failure
import Foundry.Diagnostic.Report
import Foundry.FileSystem.Operation
import Foundry.Process.Toolset
import Foundry.Text.Utf8

/-! What a run of the program can see and change, as one value, and runs as functions on it. -/
namespace Foundry

/-- What a run finds around it and cannot change. -/
structure Host where
  temporary : String
  home : String
  environment : List (String × String) := []
  /-- Whether the standard error output is a terminal. -/
  terminal : Bool := false
  /-- The triple of the machine itself. -/
  triple : String
  /-- The version of LLVM, if there is one. -/
  llvm : Option (List Value)
  tools : Toolset

/-- A start of a process; `piped` tells whether its diagnostics are read. -/
structure Start where
  argv : List String
  piped : Bool
deriving DecidableEq, Repr

structure Session where
  host : Host
  files : FileSystem
  /-- How many names of temporary files were drawn. -/
  draws : Nat := 0
  /-- The processes started, first one first. -/
  started : List Start := []
  output : String := ""
  errors : String := ""
  /-- The lines that were logged for later. -/
  journal : List String := []
  /-- The directory for the intermediate files of the build, while there is one. -/
  runDirectory : Option String := none
  /-- The bitcode of the module that is built. -/
  module : Bytes := []
  report : Report := {}

def Session.start (s : Session) (start : Start) : Session :=
  { s with started := s.started ++ [start] }

/-- A run: it changes the session and gives a result or fails. What it changed before a failure
stays changed. -/
abbrev Run := EStateM Failure Session

namespace Run

def fault (f : Fault) : Run α := throw (.fault f)

/-- The result of a computation that cannot change anything. -/
def ofExcept : Except Failure α → Run α
  | .ok a => pure a
  | .error e => throw e

def print (line : String) : Run Unit :=
  modify fun s => { s with output := s.output ++ line ++ "\n" }

def printError (line : String) : Run Unit :=
  modify fun s => { s with errors := s.errors ++ line ++ "\n" }

/-- Run `body`, and `finish` after it however it ends; a failure of `finish` counts more. -/
def ensuring (body : Run α) (finish : Run Unit) : Run α := fun s =>
  match body s with
  | .ok a s => match finish s with
    | .ok _ s => .ok a s
    | .error e s => .error e s
  | .error e s => match finish s with
    | .ok _ s => .error e s
    | .error e s => .error e s

def environment? (name : String) : Run (Option String) :=
  return (← get).host.environment.lookup name

end Run

end Foundry
