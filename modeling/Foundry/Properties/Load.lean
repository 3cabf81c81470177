import Foundry.Document.Merge
import Foundry.Document.Toml.Reader
import Foundry.Properties.TargetProperties

/-! Loading properties: a main file, and over it the files of the platform directories, each
directory in the order of its names. The file read last wins. -/
namespace Foundry

/-- Loaded properties, with the main file and all files that went into them. -/
structure Properties where
  data : Table
  path : String
  sources : List String
  distribution : Distribution

namespace Properties

/-- The file that is loaded where no other is asked for. -/
def fileName : String := "kiln.toml"

/-- The environment variable that names the main file. -/
def fileVariable : String := "KILN_PROPERTIES"

/-- The directory of the user's own files. -/
def userHome (host : Host) : Path := (Path.ofText host.home).child ".kiln"

/-- The value at a key of something that must be a table. -/
def member (value : Value) (key : String) : Except Failure (Option Value) :=
  match value with
  | .table entries => .ok (Table.get? entries key)
  | _ => .error .lacksMember

/-- The section at a key, which is empty if it is not set. -/
def sectionOf (data : Table) (key : String) : Value := (data.get? key).getD (.table [])

def distributionOf (host : Host) (data : Table) (runtime : Option String) :
    Except Failure Distribution := do
  let table := sectionOf data "distribution"
  let entry (key fallback : String) : Except Failure String :=
    (member table key).map fun value => (value.map Value.plain).getD fallback
  let home ← entry "home" (userHome host).text
  let llvmHome ← entry "llvm_home" s!"{home}/llvm"
  let libLto ← entry "lib_lto" ""
  let dependencies ← entry "dependencies" ""
  let override := runtime.getD ""
  let runtimeOverride ← if override = "" then entry "runtime" "" else pure override
  pure { home, llvmHome, libLto, dependencies, runtimeOverride }

def ofData (host : Host) (data : Table) (path : String) (runtime : Option String)
    (sources : List String) : Except Failure Properties := do
  pure { data, path, sources, distribution := ← distributionOf host data runtime }

def dependencyProfiles (p : Properties) : List String :=
  Text.words (((p.data.get? "dependency_profiles").map Value.plain).getD "")

def forTarget (p : Properties) (target : Target) : Except Failure TargetProperties := do
  let table ← member (sectionOf p.data "targets") target.name
  pure { target, table := table.getD (.table []), distribution := p.distribution }

/-- Data with the dependencies restricted to the default profile and the tools pinned, if their
profiles are the two known ones. -/
def keepOnlyDefaultProfiles (data : Table) : Except Failure Table :=
  let profiles := (data.get? "dependency_profiles").getD .null
  if profiles.isText "default alt" then
    .ok ((data.set "dependency_profiles" (.text "default")).set "use_fixed_xcode_version"
      (.text "9.2"))
  else
    .error (.fault (.badProperties "dependency_profiles"
      s!"expected 'default alt', got '{profiles.plain}'"))

def notToml : String := "<toml>"

def parse (text : String) : Except Failure Table :=
  match Toml.read text with
  | .ok table => .ok table
  | .error .malformed => .error .notToml
  | .error (.integerTooLong digits) => .error (.integerTooLong digits)

def parseBytes (bytes : Bytes) : Except Failure Table :=
  match Utf8.decode? bytes with
  | some text => parse text
  | none => .error .notUtf8

def readFile (path : String) : Run Table := do
  let content ← tryCatch (Files.read path) fun
    | .refusal r => Run.fault (.badProperties path r.reason)
    | other => throw other
  match parseBytes content with
  | .ok table => pure table
  | .error .notToml => Run.fault (.badProperties path notToml)
  | .error other => throw other

/-- The home directory as `~` stands for it: slashes at its end do not count, and where nothing else
is there it is the root. -/
def homeText (host : Host) : String :=
  let home := (host.environment.lookup "HOME").getD host.home
  if home.toList.all (· = '/') then "/" else home

/-- A path that may start with the home directory written as `~`. -/
def expandHome (host : Host) (path : Path) : Except Failure Path :=
  if path.anchor ≠ .none then .ok path
  else match path.parts with
    | "~" :: rest =>
      let home := homeText host
      if Text.startsWith home "~" then .error .noHome
      else .ok ((Path.ofText home).join ⟨.none, rest⟩)
    | first :: _ => if Text.startsWith first "~" then .error .noHome else .ok path
    | [] => .ok path

/-- The main file where no other is asked for. -/
def defaultPath (host : Host) : Except Failure Path :=
  match host.environment.lookup fileVariable with
  | none | some "" => .ok ((userHome host).child fileName)
  | some path => expandHome host (.ofText path)

/-- The files of a directory's platforms, by name. -/
def platformFilesIn (root : Path) : Run (List Path) := do
  let directory := root.child "platforms"
  let names ← Files.names directory.text
  return (names.filter (Text.endsWith · ".toml")).map directory.child

/-- The files of the platforms, first those of the distribution, then those of the user; the user's
directory does not count twice. -/
def platformFiles (home : Path) (user : Option Path) : Run (List Path) := do
  let user := user.getD (userHome (← get).host)
  let apart := (← Files.resolve user) ≠ (← Files.resolve home)
  let first ← platformFilesIn home
  let second ← if apart then platformFilesIn user else pure []
  return first ++ second

def homePath (host : Host) (data : Table) : Except Failure Path := do
  match ← member (sectionOf data "distribution") "home" with
  | none => .ok (userHome host)
  | some (.text home) => .ok (.ofText home)
  | some _ => .error .wrongKind

def layFiles (data : Table) : List Path → Run Table
  | [] => pure data
  | file :: rest => do
    let overlay ← readFile file.text
    layFiles (data.merge overlay) rest

/-- Load properties from a main file and the files of the platforms. -/
def load (path : Option Path) (user : Option Path) (onlyDefaultProfiles : Bool)
    (runtime : Option String) : Run Properties := do
  let host := (← get).host
  let path ← match path with
    | some path => pure path
    | none => Run.ofExcept (defaultPath host)
  let main ← readFile path.text
  let home ← Run.ofExcept (homePath host main)
  let files ← platformFiles home user
  let data ← layFiles main files
  let data ← if onlyDefaultProfiles then Run.ofExcept (keepOnlyDefaultProfiles data) else pure data
  Run.ofExcept (ofData host data path.text runtime (path.text :: files.map Path.text))

end Properties

end Foundry
