import Foundry.CommandLine.Run
import Foundry.FileSystem.Listing

/-! The program. It sees the files that its command line and its environment name, and writes the
files that a run changes. It starts no processes: each tool is answered for by a toolset that can
start none. -/
namespace Foundry.Program

/-- No tool can be started. -/
def tools : Toolset := ⟨fun _ _ => .notStarted "processes cannot be started"⟩

/-- The environment variables that a run looks at. -/
def relevant : List String := ["HOME", "NO_COLOR", "TERM", Properties.fileVariable]

def temporary : Location := ["tmp"]

/-- The texts in an argument that may name files. -/
def namesIn (argument : String) : List String :=
  argument :: ((Text.split '=' argument).drop 1).flatMap (Text.split ',')

/-- The files that a path may stand for: one itself, or a library in a directory. -/
def filesAt (path : String) : List String := [path, joinPaths path manifestName]

/-- The paths that are looked at before a run. -/
def wanted (host : Host) (argv : List String) : List String :=
  let properties := match Properties.defaultPath host with
    | .ok path => [path.text]
    | .error _ => []
  ((argv.flatMap namesIn).filter (· ≠ "")).flatMap filesAt ++ properties

/-- What is printed for a failure that has no message of its own. -/
def abortText : Failure → String
  | .fault f => f.text
  | .refusal r => r.text
  | _ => "the input cannot be processed"

/-- What a run comes to: its exit code, and the session after it. -/
def outcome (argv : List String) (session : Session) : Nat × Session :=
  match CommandLine.run argv session with
  | .ok status session => (status.code, session)
  | .error failure session =>
    let text := s!"error: {abortText failure}\n"
    (CommandLine.ExitStatus.failed.code, { session with errors := session.errors ++ text })

/-- The files that a run has changed, but for temporary ones. -/
def changes (before after : FileSystem) : List (String × Bytes) :=
  (before.changed after []).filterMap fun (name, content) =>
    if FileSystem.within temporary (Path.partsOf name) then none
    else content.map fun bytes => ("/" ++ name, bytes)

def readEnvironment : IO (List (String × String)) :=
  relevant.filterMapM fun name => return (← IO.getEnv name).map fun value => (name, value)

/-- The file system with a file in it, if it can be read. -/
def withFile (here : Location) (fs : FileSystem) (path : String) : IO FileSystem := do
  try
    let content ← IO.FS.readBinFile path
    let place := (Path.ofText path).resolve ⟨.root, here⟩
    return fs.plant place.parts (.file content.toList)
  catch _ => return fs

def readSession (argv : List String) : IO Session := do
  let environment ← readEnvironment
  let here := Path.partsOf (← IO.currentDir).toString
  let host : Host := {
    temporary := "/" ++ String.intercalate "/" temporary
    home := (environment.lookup "HOME").getD "/"
    environment
    terminal := ← (← IO.getStderr).isTty
    triple := Target.linuxX64.triple
    llvm := none
    tools }
  let bare := (({ here } : FileSystem).withWay [] here).withWay [] temporary
  let files ← (wanted host argv).foldlM (withFile here) bare
  return { host, files }

/-- Write a file, with the directories above it. -/
def writeFile (path : String) (content : Bytes) : IO Unit := do
  IO.FS.createDirAll (Path.ofText path).parent.text
  IO.FS.writeBinFile path ⟨content.toArray⟩

end Foundry.Program

def main (argv : List String) : IO UInt32 := do
  let before ← Foundry.Program.readSession argv
  let (code, after) := Foundry.Program.outcome argv before
  for (path, content) in Foundry.Program.changes before.files after.files do
    Foundry.Program.writeFile path content
  IO.print after.output
  IO.eprint after.errors
  return code.toUInt32
