import Foundry.Files

/-! The run directory: one directory for all intermediate files of a build. It is made when the
first of them is asked for, and removed with all of them when the build is over. -/
namespace Foundry.RunDirectory

/-- What the name of the run directory of a build begins with. -/
def buildStem : String := "kiln"

/-- The run directory; one is made if there is none. -/
def path (stem : String) : Run String := do
  match (← get).runDirectory with
  | some directory => pure directory
  | none => do
    let directory ← Files.makeTemporaryDirectory (stem ++ "-")
    modify fun s => { s with runDirectory := some directory }
    pure directory

def create (stem name suffix : String) : Run String := do
  Files.makeTemporaryFile (← path stem) name suffix

/-- The path of a file with a fixed name in the run directory. -/
def named (stem name : String) : Run String := return joinPaths (← path stem) name

def programBitcode (stem : String) : Run String := named stem "program.bc"

def adapterBitcode (stem : String) : Run String := named stem "api.cpp.bc"

def remove : Run Unit := do
  if let some directory := (← get).runDirectory then
    Files.discardTree directory
    modify fun s => { s with runDirectory := none }

end Foundry.RunDirectory
