import Foundry.Build.Job

/-! The link: object files and static libraries become the artifact. -/
namespace Foundry

/-- What starts an argument that a compiler hands on to the linker. -/
def handedOn : String := "-Wl,"

namespace Setup

/-- Arguments for the tool that links. A linker that is run by itself gets the parts of what a
compiler would hand on to it. -/
def linkerArguments (s : Setup) (args : List String) : List String :=
  if s.platform.linksByCompiler then args
  else args.flatMap fun arg =>
    if Text.startsWith arg handedOn then Text.split ',' (Text.drop arg handedOn.length) else [arg]

/-- The flags that make the runtime's entry point the start of the program. -/
def entrySelector (s : Setup) : List String :=
  if s.config.noMain || s.config.isDynamic then [] else s.platform.flags .entrySelector

def frameworkSuffix : String := ".framework"

/-- Where the library of a framework is inside its bundle, and the directories to it; only targets
with frameworks have such a place. -/
def frameworkPlace (target : Target) (name : String) : Except Failure String :=
  match target with
  | .iosArm64 | .iosX64 => .ok name
  | .macosX64 => .ok s!"Versions/A/{name}"
  | _ => .error (.fault (.noFrameworks target))

/-- The file that is linked, with the flags that only frameworks have. The directories of a
framework's bundle are made. -/
def linkOutput (s : Setup) : Run (String × List String) := do
  let file ← Run.ofExcept s.config.outputFile
  if s.config.produce ≠ .kind .framework then return (file, [])
  let bundle := Path.ofText file
  let place ← Run.ofExcept
    (frameworkPlace s.config.target (Text.dropTail bundle.name frameworkSuffix))
  let library := bundle.child place
  Files.makeDirectories library.parent
  return ((← Files.absolute library).text, ["-install_name", s!"@rpath/{bundle.name}/{place}"])

/-- Whether a file is a static library by its name. -/
def isArchive (path : String) : Bool := isUnixArchive path || isWindowsArchive path

/-- Report a file that is a static library by its name but none that is of use for the target. -/
def reportSkipped (s : Setup) (accepted : List String) (file : String) : Run Unit := do
  if !accepted.contains file && isArchive file then
    Run.report (.archiveSkipped file s.config.target) "link"

/-- The static libraries among the files of the linked libraries; the others that are named like one
are reported. -/
def staticLibraries (s : Setup) (files : List String) : Run (List String) := do
  let accepted := s.platform.staticLibraries files
  files.forM (s.reportSkipped accepted)
  return accepted

/-- What a link is made of: the objects, where the artifact goes, the static libraries among the
files of the linked libraries, and the flags that the build adds to those of the platform. -/
structure LinkInputs where
  objects : List String
  output : String
  archives : List String
  frameworkFlags : List String
  libraryFlags : List String
  included : List String
deriving DecidableEq, Repr

structure LinkPlan where
  output : String
  command : Command
  action : LinkAction
deriving DecidableEq, Repr

def linkCommand (s : Setup) (inputs : LinkInputs) : Except Failure Command := do
  let switches := ⟨s.config.optimize, s.config.debug, s.config.isDynamic⟩
  let command ← s.platform.linkCommand inputs.objects inputs.output switches inputs.archives
  pure <| command
    |>.withFlags s.platform.libffi
    |>.withFlags (s.linkerArguments s.config.linkerArgs)
    |>.withFlags s.entrySelector
    |>.withFlags inputs.frameworkFlags
    |>.withFlags s.platform.commandTail
    |>.withFlags inputs.libraryFlags
    |>.withLibraries inputs.included

/-- Collect what is linked; files of default libraries stand before those of other ones. -/
def linkInputs (s : Setup) (objects defaults others libraryFlags : List String) :
    Run LinkInputs := do
  let (output, frameworkFlags) ← s.linkOutput
  let included := defaults ++ others
  let archives ← s.staticLibraries included
  return { objects, output, archives, frameworkFlags, libraryFlags, included }

def planLink (s : Setup) (inputs : LinkInputs) : Except Failure LinkPlan := do
  let command ← s.linkCommand inputs
  let action := s.platform.action inputs.objects inputs.output s.config.debug
  pure { output := inputs.output, command, action }

/-- Carry out a link and give the path of the artifact; nothing if a tool failed, which is reported
then. -/
def carryOut (s : Setup) (plan : LinkPlan) : Run (Option String) :=
  tryCatch
    (do
      plan.action.carryOut s.toolchain.toExecutor plan.command
      pure (some plan.output))
    fun
      | .fault (.toolFailed ..) => do
        Run.report .linkFailed "link"
        pure none
      | other => throw other

def finishLink (s : Setup) (inputs : LinkInputs) : Run (Option String) := do
  s.carryOut (← Run.ofExcept (s.planLink inputs))

/-- Link the artifact with files of default libraries and of other ones, and give its path; nothing
if a tool failed. -/
def link (s : Setup) (objects defaults others libraryFlags : List String) :
    Run (Option String) := do
  s.finishLink (← s.linkInputs objects defaults others libraryFlags)

/-- The files of the default libraries, or those of the other ones. -/
def includedPaths (s : Setup) (isDefault : Bool) : List String :=
  (s.config.libraries.filter (·.isDefault = isDefault)).flatMap (·.includedPaths)

def libraryInputs (s : Setup) (home : String) (objects : List String) : Run LinkInputs := do
  s.toolchain.logger.log s!"# Compiler root: {home}"
  s.linkInputs objects (s.includedPaths true) (s.includedPaths false)
    (s.config.libraries.flatMap (·.linkerOptions))

def linkLibraries (s : Setup) (home : String) (objects : List String) : Run (Option String) := do
  s.finishLink (← s.libraryInputs home objects)

end Setup

end Foundry
