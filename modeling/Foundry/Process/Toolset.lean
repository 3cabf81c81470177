import Foundry.Bytes
import Foundry.Text.Affix

/-! What external tools do.

A toolset answers each start of a process, knowing the starts before it. It is the only thing that
a build does not decide for itself, so a statement about all builds is one about all toolsets. -/
namespace Foundry

inductive Outcome where
  | notStarted (reason : String)
  /-- The process ended; `product` is what it wrote to its output files if it succeeded. -/
  | finished (exitCode : Int) (stderr : Bytes) (product : Bytes)
deriving DecidableEq, Repr

/-- The answers of the tools: from the arguments of all processes started before, first one first,
and the arguments of the new one. -/
structure Toolset where
  respond : List (List String) → List String → Outcome

namespace Toolset

/-- The argument after the first `-o`. -/
def namedOutput : List String → Option String
  | [] => none
  | flag :: rest => if flag = "-o" then rest.head? else namedOutput rest

/-- The files that a process writes: the one after `-o`, and the archive of an archiver. -/
def outputs (argv : List String) : List String :=
  (namedOutput argv).toList ++
    match argv with
    | tool :: _ :: archive :: _ => if Text.baseName tool = "llvm-ar" then [archive] else []
    | _ => []

end Toolset

end Foundry
