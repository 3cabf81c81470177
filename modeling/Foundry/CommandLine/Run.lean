import Foundry.Build.Produce
import Foundry.CommandLine.Banner
import Foundry.CommandLine.ExitStatus
import Foundry.CommandLine.LibraryInfo
import Foundry.CommandLine.LibraryOption
import Foundry.CommandLine.Reading
import Foundry.Target.Triple

/-! What the program does with the settings of its command line. -/
namespace Foundry.CommandLine

/-- The text of an argument that is given and not empty. -/
def given (argument : Option Argument) : Option String :=
  (argument.bind Argument.text?).filter (· ≠ "")

/-- The texts of an option that can be repeated. -/
def texts (arguments : List Argument) : List String := arguments.filterMap Argument.text?

namespace Settings

def loadProperties (s : Settings) : Run Properties :=
  Properties.load ((given s.properties).map .ofText) none s.onlyDefaultProfiles (given s.runtime)

/-- The target that is asked for, or else that of the machine itself. -/
def chosenTarget (s : Settings) : Run Target := do
  let name := (given s.target).getD (← get).host.triple
  match Target.resolve? name with
  | some target => pure target
  | none => Run.fault (.unsupportedTarget name)

/-- Print the banner and, if the properties can be loaded, the toolchain. -/
def showVersion (s : Settings) : Run ExitStatus := do
  let toolkit ← tryCatch
    (do
      let properties ← s.loadProperties
      return .found properties (← s.chosenTarget))
    fun
      | .fault f => pure (.problem f.message)
      | other => throw other
  Release.print {} toolkit
  return .success

/-- Whether a file holds assembly text, by its name. -/
def isAssembly (path : Path) : Bool := path.suffix = ".ll"

/-- The module in the content of a source file, or why it is refused. -/
def moduleOf (path : Path) (content : Bytes) : Except Failure (Except String Bytes) :=
  if isAssembly path then
    match Utf8.decode? content with
    | some text => .ok (Module.assemble text)
    | none => .error .notUtf8
  else .ok (Module.parse content)

def config (s : Settings) (source : Path) (target : Target) (libraries : List LinkedLibrary)
    (defaultNatives : List String) : Except Failure Config := do
  let produce ← match s.produce with
    | .text name => ArtifactKind.parse name
    | .nothing => throw .lacksMember
  pure {
    target, libraries
    produce := .kind produce
    outputName := (given s.out).getD (source.withoutSuffix?.getD source).text
    moduleName := s.moduleName.text?.getD "[]"
    optimize := s.optimize
    debug := s.debug
    noMain := s.noMain
    unpacked := s.noPack
    verbose := s.verbose
    linkerArgs := texts s.linkerOptions
    manifestFile := s.manifest.bind Argument.text?
    nativeLibraries := texts s.nativeLibraries
    defaultNativeLibraries := defaultNatives
    includedBinaries := texts s.includedBinaries
    adapterSource := s.adapter.bind Argument.text? }

/-- Build the module of the session, and give the path of the artifact if there is one. -/
def build (s : Settings) (source : Path) (libraries : List LinkedLibrary) (linkData : Bytes) :
    Run (Option String) := do
  let properties ← s.loadProperties
  let target ← s.chosenTarget
  if s.verbose then Release.print {} (.found properties target)
  let named := texts s.defaultNativeLibraries
  let defaultNatives ← if named.isEmpty then
      properties.distribution.defaultNativeLibraries target
    else pure named
  let config ← Run.ofExcept (s.config source target libraries defaultNatives)
  Job.produce { config, properties, linkData, depends := texts s.depends }

def printReport : Run Unit := do
  let session ← get
  let colored := Report.colorsByDefault session.host.terminal (← Run.environment? "NO_COLOR")
    (← Run.environment? "TERM")
  modify fun s => { s with errors := s.errors ++ session.report.printed colored }

/-- Build the module of the session, report, and say how that ended. -/
def buildAndReport (s : Settings) (source : Path) (libraries : List LinkedLibrary)
    (linkData : Bytes) : Run ExitStatus := do
  let artifact ← tryCatch (s.build source libraries linkData) fun
    | .fault f => do
      modify fun s => { s with report := s.report.error f.code f.message (some "backend") }
      pure none
    | other => throw other
  printReport
  let report := (← get).report
  if report.hasErrors then return .failed
  if let some path := artifact then
    if s.verbose then Run.print s!"Wrote {path}"
  return if report.hasWarnings then .warned else .success

def refuse (problem : String) : Run ExitStatus := do
  Run.printError s!"error: {problem}"
  return .failed

/-- Read a file, or say why it cannot be read. -/
def readInput (path : String) : Run (Except String Bytes) :=
  tryCatch ((Files.read (Path.ofText path).text).map Except.ok) fun
    | .refusal r => pure (.error s!"cannot read {path}: {r.reason}")
    | other => throw other

/-- Read the module of a source file into the session, or say why that cannot be. -/
def readModule (source : Path) : Run (Except String Unit) := do
  match ← readInput source.text with
  | .error problem => return .error problem
  | .ok content =>
    match ← Run.ofExcept (moduleOf source content) with
    | .error problem => return .error s!"cannot parse {source.text}: {problem}"
    | .ok module => do
      modify fun s => { s with module }
      return .ok ()

/-- Read the data for linking, if there are any. -/
def readLinkData (s : Settings) : Run (Except String Bytes) :=
  match given s.linkData with
  | none => return .ok []
  | some path => readInput path

def buildSource (s : Settings) (source : String) : Run ExitStatus := do
  let path ← Files.resolve (.ofText source)
  match linkedLibraries (texts s.defaultLibraries) (texts s.libraries)
      (texts s.libraryLinkerOptions) with
  | .error e => refuse e.message
  | .ok libraries =>
    match ← readModule path with
    | .error problem => refuse problem
    | .ok () =>
      match ← s.readLinkData with
      | .error problem => refuse problem
      | .ok linkData => s.buildAndReport path libraries linkData

def run (s : Settings) : Run ExitStatus :=
  if s.version then s.showVersion
  else match given s.libraryInfo with
    | some path => showLibrary (.ofText path)
    | none =>
      match s.source with
      | none | some "" => refuse "source file required"
      | some source => s.buildSource source

end Settings

def run (argv : List String) : Run ExitStatus :=
  match parse argv with
  | .ok settings => settings.run
  | .error stop => do
    modify fun s => { s with errors := s.errors ++ stop.text }
    return stop.status

end Foundry.CommandLine
