import Foundry.FileSystem.Basic

/-! The operations of the system on paths: each gives what it finds and the file system after it,
or why it is refused, and then nothing has changed. -/
namespace Foundry.FileSystem

def read (fs : FileSystem) (path : String) : Except Errno Bytes := do
  match ← fs.stat path with
  | .file content => .ok content
  | .directory => .error .isDirectory

/-- Write a file, new or in place of an older one. -/
def write (fs : FileSystem) (path : String) (content : Bytes) : Except Errno FileSystem := do
  match ← fs.last path with
  | .name directory name false =>
    match fs.entry? (directory ++ [name]) with
    | some .directory => .error .isDirectory
    | _ => .ok (fs.put (directory ++ [name]) (.file content))
  | _ => .error .isDirectory

/-- Make an empty file where nothing is. -/
def create (fs : FileSystem) (path : String) : Except Errno FileSystem := do
  match ← fs.last path with
  | .name directory name false =>
    match fs.entry? (directory ++ [name]) with
    | some _ => .error .alreadyExists
    | none => .ok (fs.put (directory ++ [name]) (.file []))
  | .name _ _ true => .error .isDirectory
  | _ => .error .alreadyExists

def makeDirectory (fs : FileSystem) (path : String) : Except Errno FileSystem := do
  match ← fs.last path with
  | .name directory name _ =>
    match fs.entry? (directory ++ [name]) with
    | some _ => .error .alreadyExists
    | none => .ok (fs.put (directory ++ [name]) .directory)
  | _ => .error .alreadyExists

def removeFile (fs : FileSystem) (path : String) : Except Errno FileSystem := do
  match ← fs.last path with
  | .name directory name slash =>
    match fs.entry? (directory ++ [name]) with
    | none => .error .noEntry
    | some .directory => .error .isDirectory
    | some (.file _) =>
      if slash then .error .notDirectory else .ok (fs.without (directory ++ [name]))
  | _ => .error .isDirectory

/-- Whether the steps of a path, taken from a location, pass through a name below `top`. -/
def passesBelow (top place : Location) : List String → Bool
  | [] => false
  | step :: rest =>
    if step = "" ∨ step = "." then passesBelow top place rest
    else if step = ".." then passesBelow top place.dropLast rest
    else
      let next := place ++ [step]
      within top next && next ≠ top || passesBelow top next rest

/-- Why the directory that a path leads to cannot be removed by that path even when it is empty. A
path that passes through what was in the directory leads nowhere then. -/
def keptDirectory (fs : FileSystem) (path : String) (place : Location) :
    Except Errno (Option Errno) := do
  let (start, steps) ← fs.route path
  if passesBelow place start steps then return some .noEntry
  match ← fs.last path with
  | .name .. => .ok none
  | .self _ => .ok (some .invalid)
  | .above _ => .ok (some .notEmpty)
  | .root => .ok (some .busy)

/-- Remove a directory with everything in it. If the directory itself cannot be removed it is
emptied, and the refusal is given along. -/
def removeTree (fs : FileSystem) (path : String) : Except Errno (FileSystem × Option Errno) := do
  let place ← fs.locate path
  match fs.entry? place with
  | none => .error .noEntry
  | some (.file _) => .error .notDirectory
  | some .directory =>
    match ← fs.keptDirectory path place with
    | none => .ok (fs.withoutTree place, none)
    | some errno => .ok ((fs.withoutTree place).put place .directory, some errno)

/-- Whether a directory or a file may take the place of what the new location holds. -/
def replaces (fs : FileSystem) (moved : Entry) (target : Location) : Except Errno Unit :=
  match moved, fs.entry? target with
  | _, none => .ok ()
  | .file _, some (.file _) => .ok ()
  | .file _, some .directory => .error .isDirectory
  | .directory, some (.file _) => .error .notDirectory
  | .directory, some .directory => if (fs.names target).isEmpty then .ok () else .error .notEmpty

def moveTree (fs : FileSystem) (source target : Location) : FileSystem :=
  let moved := (fs.tree source).map fun (place, entry) =>
    (target ++ place.drop source.length, entry)
  let rest := (fs.withoutTree source).withoutTree target
  { rest with entries := moved ++ rest.entries }

/-- Give what `source` names the name `target`, if the system can do it in one step. -/
def rename (fs : FileSystem) (source target : String) : Except Errno FileSystem := do
  match ← fs.last source, ← fs.last target with
  | .name fromDirectory fromName fromSlash, .name toDirectory toName toSlash =>
    let old := fromDirectory ++ [fromName]
    let new := toDirectory ++ [toName]
    match fs.entry? old with
    | none => .error .noEntry
    | some entry =>
      if (fromSlash || toSlash) && entry ≠ .directory then .error .notDirectory
      else if old = new then .ok fs
      else if within old new then .error .invalid
      else if within new old then .error .notEmpty
      else do
        fs.replaces entry new
        .ok (fs.moveTree old new)
  | _, _ => .error .busy

end Foundry.FileSystem
