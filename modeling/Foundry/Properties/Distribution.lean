import Foundry.Files
import Foundry.Target.Basic

/-! Where the toolchain distribution is and what is in it. -/
namespace Foundry

/-- The places of a distribution that are given; the others follow from them. -/
structure Distribution where
  home : String
  llvmHome : String
  libLto : String := ""
  dependencies : String := ""
  runtimeOverride : String := ""
deriving DecidableEq, Repr

namespace Distribution

def orElse (first second : String) : String := if first = "" then second else first

def llvmBin (d : Distribution) : String := s!"{d.llvmHome}/bin"

def llvmLib (d : Distribution) : String := s!"{d.llvmHome}/lib"

def clang (d : Distribution) : String := s!"{d.llvmBin}/clang"

/-- Where the dependencies are: a place that is given, or one in the distribution. -/
def dependenciesDir (d : Distribution) : String := orElse d.dependencies s!"{d.home}/dependencies"

def klib (d : Distribution) : String := s!"{d.home}/klib"

def stdlib (d : Distribution) : String := s!"{d.klib}/common/stdlib"

/-- A path among the dependencies, unless it is absolute. -/
def absolute (d : Distribution) (path : String) : String :=
  if Text.startsWith path "/" then path else s!"{d.dependenciesDir}/{path}"

/-- The directory of the bitcode that is linked into programs for a target. -/
def defaultNatives (d : Distribution) (target : Target) : String :=
  s!"{d.home}/kiln/targets/{target.name}/native"

def runtime (d : Distribution) (target : Target) : String :=
  orElse d.runtimeOverride s!"{d.stdlib}/targets/{target.name}/native/runtime.bc"

/-- The bitcode that is linked into programs where nothing else is asked for: the runtime if it is
a file, then the other bitcode in the directory for the target, by name. -/
def defaultNativeLibraries (d : Distribution) (target : Target) : Run (List String) := do
  let runtime := d.runtime target
  let found := if Files.isFile (← Files.look runtime) then [runtime] else []
  let natives := Path.ofText (d.defaultNatives target)
  let names := (← Files.names natives.text).filter (Text.endsWith · ".bc")
  return found ++ (names.map fun name => (natives.child name).text).filter (· ≠ runtime)

end Distribution

end Foundry
