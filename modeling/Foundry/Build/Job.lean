import Foundry.Artifact.Kind
import Foundry.Diagnostic.Notice
import Foundry.Link.Action
import Foundry.Properties.Load

/-! What a build is to do, and what follows from it for all its stages. -/
namespace Foundry

/-- A library that the artifact is linked with, and what it adds to the link. -/
structure LinkedLibrary where
  name : String
  includedPaths : List String := []
  linkerOptions : List String := []
  isDefault : Bool := false
deriving DecidableEq, Repr

/-- The kind of artifact that is asked for, which need not exist. -/
inductive Request where
  | kind (k : ArtifactKind)
  | unknown (name : String)
deriving DecidableEq, Repr

structure Config where
  target : Target
  produce : Request
  outputName : String
  moduleName : String := "main"
  optimize : Bool := false
  debug : Bool := false
  noMain : Bool := false
  unpacked : Bool := false
  verbose : Bool := false
  linkerArgs : List String := []
  manifestFile : Option String := none
  nativeLibraries : List String := []
  defaultNativeLibraries : List String := []
  includedBinaries : List String := []
  libraries : List LinkedLibrary := []
  adapterSource : Option String := none
  abiVersion : Int := 1

namespace Config

/-- The file that is asked for. The name of a library gets its suffix when it is packed. -/
def outputFile (c : Config) : Except Failure String :=
  match c.produce with
  | .kind .library => .ok c.outputName
  | .kind kind => kind.fileFor c.target c.outputName
  | .unknown _ => .error .lacksMember

/-- Whether the artifact is linked so that others can be linked with it. -/
def isDynamic (c : Config) : Bool :=
  c.produce = .kind .dynamic || c.produce = .kind .framework

end Config

/-- Everything that a build is given but for the module that it builds. -/
structure Job where
  config : Config
  properties : Properties
  linkData : Bytes := []
  depends : List String := []
  escapeAnalysis : Option Bytes := none
  dataFlowGraph : Option Bytes := none

/-- What the stages of a build work with. -/
structure Setup where
  config : Config
  platform : Platform
  toolchain : Toolchain

namespace Job

def logger (job : Job) : Logger := if job.config.verbose then .output else .off

def setup (job : Job) : Except Failure Setup := do
  let properties ← job.properties.forTarget job.config.target
  let platform ← Platform.ofProperties properties
  pure {
    config := job.config
    platform
    toolchain := {
      logger := job.logger
      filters := platform.filters
      llvmBin := job.properties.distribution.llvmBin
      target := platform.toolchain } }

end Job

def Run.report (notice : Notice) (stage : String) : Run Unit :=
  modify fun s => { s with report := notice.addTo stage s.report }

end Foundry
