import Foundry.Library.Release
import Foundry.Properties.Load

/-! The banner of the program, and what it says about the toolchain of a build. -/
namespace Foundry

/-- Which program this is; one that is not installed is marked. -/
structure Release where
  version : String := programVersion
  isDevelopment : Bool := false
deriving DecidableEq, Repr

namespace Release

def unknown : String := "unknown"

/-- The file that describes a program that is not installed. -/
def projectFile : String := "pyproject.toml"

def ofProject (project : Table) : Except Failure Value := do
  let version ← Properties.member (Properties.sectionOf project "project") "version"
  pure (version.getD (.text unknown))

/-- The version of the program and whether it is a development one: an installed program knows its
version, any other one takes it from the project in its directory. -/
def find (installed : Option String) (directory : Path) : Run (Value × Bool) := do
  match installed with
  | some version => return (.text version, false)
  | none =>
    let version ← tryCatch
      (do
        let content ← Files.read (directory.child projectFile).text
        Run.ofExcept (Properties.parseBytes content >>= ofProject))
      fun
        | .refusal _ | .notToml => pure (.text unknown)
        | other => throw other
    return (version, true)

def llvmVersion (llvm : Option (List Value)) : String :=
  Distribution.orElse (String.intercalate "." ((llvm.getD []).map Value.plain)) unknown

def banner (release : Release) (llvm : Option (List Value)) : String :=
  let mark := if release.isDevelopment then " (dev)" else ""
  s!"{programName} {release.version}{mark} (LLVM {llvmVersion llvm})"

end Release

/-- The tools and files that a build for a target uses; overlays stand in the order in which they
were merged. -/
def Properties.summary (p : Properties) (target : Target) : List String :=
  let d := p.distribution
  let main := p.sources.headD ""
  [s!"target:      {target.name} ({target.triple})",
    s!"llvm:        {d.llvmBin}",
    s!"properties:  {main}"] ++
  (p.sources.drop 1).map (fun source => s!"  overlay:   {source}") ++
  [s!"runtime:     {d.runtime target}",
    s!"natives:     {d.defaultNatives target}"]

inductive Toolkit where
  | unasked
  | found (properties : Properties) (target : Target)
  | problem (message : String)

def Release.print (release : Release) (toolkit : Toolkit) : Run Unit := do
  Run.print (release.banner (← get).host.llvm)
  match toolkit with
  | .unasked | .problem "" => pure ()
  | .found properties target => (properties.summary target).forM Run.print
  | .problem message => Run.printError s!"properties:  unavailable ({message})"

end Foundry
