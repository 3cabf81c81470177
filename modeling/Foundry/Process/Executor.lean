import Foundry.Files
import Foundry.Process.Command
import Foundry.Text.Line

/-! Running external tools.

A tool inherits the standard streams, so its diagnostics reach the user as they are printed. Only
for a tool with a filter are they read: lines that hold the filter's text are dropped, and all
others are forwarded. -/
namespace Foundry

inductive Logger where
  | off
  | output
  | journal
deriving DecidableEq, Repr

def Logger.log : Logger → String → Run Unit
  | off, _ => pure ()
  | output, line => Run.print line
  | journal, line => modify fun s => { s with journal := s.journal ++ [line] }

/-- How tools are run: where the commands are logged, and for which tools which text marks a line
of diagnostics as harmless. -/
structure Executor where
  logger : Logger := .off
  filters : List (String × String) := []
deriving Repr

namespace Executor

/-- The exit code of a tool that could not be started. -/
def notStarted : Int := 127

/-- The lines of diagnostics that are forwarded: those without the harmless text, each with one
line end. -/
def forwarded (harmless : String) (stderr : Bytes) : List String :=
  (Text.lines (Utf8.decodeLossy stderr)).filterMap fun line =>
    if Text.contains line harmless then none else some (Text.dropTail line "\n")

/-- Let a successful tool write its output files, as far as they can be written. -/
def writeProducts (argv : List String) (product : Bytes) : Run Unit :=
  modify fun s =>
    { s with
      files := (Toolset.outputs argv).foldl
        (fun fs path => match fs.write path product with
          | .ok fs => fs
          | .error _ => fs)
        s.files }

/-- Run a command to its end and give its exit code. -/
def execute (executor : Executor) (command : Command) : Run Int := do
  executor.logger.log ""
  executor.logger.log command.text
  let filter := executor.filters.lookup command.tool
  let session ← get
  let history := session.started.map (·.argv)
  set (session.start ⟨command.argv, filter.isSome⟩)
  match session.host.tools.respond history command.argv with
  | .notStarted reason => do
    Run.printError s!"error: cannot run {command.tool}: {reason}"
    return notStarted
  | .finished exitCode stderr product => do
    if exitCode = 0 then writeProducts command.argv product
    if let some harmless := filter then
      (forwarded harmless stderr).forM Run.printError
    return exitCode

/-- Run a command; any exit code but zero is a fault. -/
def runTool (executor : Executor) (command : Command) : Run Unit := do
  let exitCode ← executor.execute command
  if exitCode ≠ 0 then Run.fault (.toolFailed command.tool exitCode)

end Executor

/-- Where the tools of a build are: those of LLVM for the machine itself, and those of the
toolchain for the target. -/
structure Toolchain extends Executor where
  llvmBin : String
  target : String
deriving Repr

namespace Toolchain

def hostTool (toolchain : Toolchain) (tool : String) (args : List String) : Run Unit :=
  toolchain.runTool ⟨s!"{toolchain.llvmBin}/{tool}", args, []⟩

def targetTool (toolchain : Toolchain) (tool : String) (args : List String) : Run Unit :=
  toolchain.runTool ⟨s!"{toolchain.target}/bin/{tool}", args, []⟩

end Toolchain

end Foundry
