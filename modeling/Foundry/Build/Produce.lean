import Foundry.Build.Compile
import Foundry.Build.Link
import Foundry.Build.Module
import Foundry.Library.Writer

/-! Producing an artifact: the module's bitcode as it is, a library, or something linked. -/
namespace Foundry

inductive Producer where
  | bitcode
  | library
  | linked
deriving DecidableEq, Repr

namespace Job

def producer (job : Job) : Except Failure Producer :=
  match job.config.produce with
  | .unknown name => .error (.fault (.unknownOutputKind name))
  | .kind .bitcode => .ok .bitcode
  | .kind .library => .ok .library
  | .kind .framework =>
    if job.config.target.family = .apple then .ok .linked
    else .error (.fault (.noFrameworks job.config.target))
  | .kind _ => .ok .linked

def setUp (job : Job) : Run Setup := Run.ofExcept job.setup

def produceBitcode (job : Job) : Run (Option String) := do
  let output ← Run.ofExcept job.config.outputFile
  Files.write (Path.ofText output).text (← get).module
  return some output

/-- Lay out the library but for its archives. -/
def layOutLibrary (job : Job) : Run LibraryWriter := do
  let config := job.config
  let output ← Run.ofExcept config.outputFile
  let module := (← get).module
  let staging ← RunDirectory.named RunDirectory.buildStem "library"
  LibraryWriter.build output config.moduleName config.target config.abiVersion config.unpacked
    (some staging) {
      natives := config.nativeLibraries
      included := config.includedBinaries
      needed := job.depends
      linkData := job.linkData
      module
      manifestFile := config.manifestFile
      escapeAnalysis := job.escapeAnalysis
      dataFlowGraph := job.dataFlowGraph }

/-- Compile bitcode into an archive and add it to a library. -/
def addArchive (job : Job) (library : LibraryWriter) (bitcode name : String) : Run Unit := do
  let setup ← job.setUp
  library.addIncluded (← setup.staticLibrary [bitcode] (some name))

/-- Write a library with an archive for each native bitcode file and one for the module. -/
def produceLibrary (job : Job) : Run (Option String) := do
  let library ← job.layOutLibrary
  job.config.nativeLibraries.forM fun native =>
    job.addArchive library native (Text.baseName native ++ ".a")
  job.addArchive library library.mainBitcode.text (job.config.moduleName ++ ".a")
  return some (← library.commit).text

/-- Compile the adapter to C, if a dynamic library has one. -/
def adapterBitcode (job : Job) : Run (Option String) := do
  match job.config.adapterSource with
  | none | some "" => return none
  | some source =>
    if job.config.produce ≠ .kind .dynamic then return none
    let setup ← job.setUp
    let output ← RunDirectory.adapterBitcode RunDirectory.buildStem
    setup.toolchain.runTool ⟨job.properties.distribution.clang,
      ["-x", "c++", "-c", "-emit-llvm"] ++ setup.platform.flags .clang ++ [source, "-o", output],
      []⟩
    return some output

def linkInto (module bitcode : Bytes) : Except String Bytes := do
  Module.link module (← Module.parse bitcode)

def linkNative (library : String) : Run Unit := do
  let bitcode ← tryCatch (Files.read (Path.ofText library).text) fun
    | .refusal r => Run.fault (.bitcodeNotLinked library r.text)
    | other => throw other
  let session ← get
  match linkInto session.module bitcode with
  | .ok module => set { session with module }
  | .error reason => Run.fault (.bitcodeNotLinked library reason)

/-- Write the program's bitcode: the module with all native bitcode linked into it. -/
def produceProgram (job : Job) : Run String := do
  let adapter ← job.adapterBitcode
  (job.config.nativeLibraries ++ job.config.defaultNativeLibraries ++ adapter.toList).forM
    linkNative
  let program ← RunDirectory.programBitcode RunDirectory.buildStem
  Files.write (Path.ofText program).text (← get).module
  return program

def prepareLink (job : Job) : Run (Setup × Setup.LinkInputs) := do
  let program ← job.produceProgram
  let setup ← job.setUp
  let objects ← setup.objectFiles [program]
  return (setup, ← setup.libraryInputs job.properties.distribution.home objects)

def produceLinked (job : Job) : Run (Option String) := do
  let (setup, inputs) ← job.prepareLink
  setup.finishLink inputs

def produceBy (job : Job) : Producer → Run (Option String)
  | .bitcode => job.produceBitcode
  | .library => job.produceLibrary
  | .linked => job.produceLinked

/-- Produce the artifact and give its path; nothing if the link failed. The run directory is removed
however that ends. -/
def produce (job : Job) : Run (Option String) := do
  let producer ← Run.ofExcept job.producer
  Run.ensuring (job.produceBy producer) RunDirectory.remove

end Job

end Foundry
