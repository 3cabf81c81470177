import Foundry.Session

/-! File operations of a run. They work on paths as texts, and say in their failures which path
they were about. -/
namespace Foundry.Files

def current : Run FileSystem := return (← get).files

def replace (fs : FileSystem) : Run Unit := modify fun s => { s with files := fs }

/-- Whether a path holds the character that ends paths. -/
def holdsZero (path : String) : Bool := path.toList.contains '\x00'

/-- Refuse a path that the system cannot even be asked about. -/
def checked (path : String) : Run Unit :=
  if holdsZero path then throw .zeroInPath else pure ()

/-- The result of an operation on the file called `name`. -/
def settle (name : FileName) : Except Errno α → Run α
  | .ok a => pure a
  | .error errno => throw (.refusal (.system errno name))

def ask (path : String) (question : FileSystem → Except Errno α) : Run α := do
  checked path
  settle (.text path) (question (← current))

def change (path : String) (action : FileSystem → Except Errno FileSystem) : Run Unit := do
  replace (← ask path action)

def read (path : String) : Run Bytes := ask path fun fs => fs.read path

def write (path : String) (content : Bytes) : Run Unit :=
  change path fun fs => fs.write path content

/-- What a path leads to, and nothing if it leads nowhere for whatever reason. -/
def look (path : String) : Run (Option Entry) := do
  if holdsZero path then pure none
  else match (← current).stat path with
    | .ok entry => pure (some entry)
    | .error _ => pure none

/-- What a path leads to, and nothing if nothing is there; other refusals fail. -/
def lookStrictly (path : String) : Run (Option Entry) := do
  if holdsZero path then pure none
  else match (← current).stat path with
    | .ok entry => pure (some entry)
    | .error .noEntry | .error .notDirectory => pure none
    | .error errno => throw (.refusal (.system errno (.text path)))

def isFile (entry : Option Entry) : Bool :=
  match entry with
  | some (.file _) => true
  | _ => false

/-- The names in a directory; none if the path leads to no directory. -/
def names (path : String) : Run (List String) := do
  match ← lookStrictly path with
  | some .directory => do
    let fs ← current
    match fs.locate path with
    | .ok place => pure (fs.names place)
    | .error _ => pure []
  | _ => pure []

def here : Run Path := return ⟨.root, (← current).here⟩

/-- The absolute path without `..` that a path stands for. -/
def resolve (path : Path) : Run Path := do
  checked path.text
  return path.resolve (← here)

/-- The absolute path without `..`, with the slashes that a path starts with. -/
def absolute (path : Path) : Run Path := do
  let here ← here
  return ⟨(here.join path).anchor, (path.resolve here).parts⟩

/-- Make a directory where nothing is but perhaps a directory. -/
def ensureDirectory (path : Path) : Run Unit := do
  checked path.text
  match (← current).makeDirectory path.text with
  | .ok fs => replace fs
  | .error errno =>
    if errno = .noEntry then throw (.refusal (.system errno (.text path.text)))
    else if (← lookStrictly path.text) = some .directory then pure ()
    else throw (.refusal (.system errno (.text path.text)))

/-- Make a directory with the directories above it, as far as they are missing; at most `depth`
levels above it. -/
def ensureDirectories (path : Path) : Nat → Run Unit
  | 0 => ensureDirectory path
  | depth + 1 => do
    checked path.text
    match (← current).makeDirectory path.text with
    | .error .noEntry =>
      if path.parent = path then throw (.refusal (.system .noEntry (.text path.text)))
      ensureDirectories path.parent depth
      ensureDirectory path
    | _ => ensureDirectory path

def makeDirectories (path : Path) : Run Unit := ensureDirectories path path.parts.length

/-- Make a directory with the directories above it that are missing, the highest one first; at most
`depth` levels above it. A directory above it that cannot be made because something is there does
not matter. -/
def makeMissing (path : Path) : Nat → Run Unit
  | 0 => change path.text fun fs => fs.makeDirectory path.text
  | depth + 1 => do
    if (← look path.parent.text).isNone then
      tryCatch (makeMissing path.parent depth) fun
        | .refusal (.system .alreadyExists _) => pure ()
        | other => throw other
    change path.text fun fs => fs.makeDirectory path.text

def removeTree (name : FileName) : Run Unit := do
  checked name.plain
  match (← current).removeTree name.plain with
  | .ok (fs, none) => replace fs
  | .ok (fs, some errno) => do
    replace fs
    throw (.refusal (.system errno (.text name.plain)))
  | .error .notDirectory =>
    if (← look name.plain).isSome then throw (.refusal (.system .notDirectory name))
    else throw (.refusal (.system .notDirectory (.text name.plain)))
  | .error errno => throw (.refusal (.system errno (.text name.plain)))

/-- Remove as much of a directory as can be removed. -/
def discardTree (path : String) : Run Unit := do
  if holdsZero path then pure ()
  else match (← current).removeTree path with
    | .ok (fs, _) => replace fs
    | .error _ => pure ()

def discardFile (path : String) : Run Unit := do
  checked path
  match (← current).removeFile path with
  | .ok fs => replace fs
  | .error .noEntry => pure ()
  | .error errno => throw (.refusal (.system errno (.text path)))

/-- Whether two paths lead to the same entry. The second one does not matter if the first leads
nowhere. -/
def same (first second : String) : Run Bool := do
  checked first
  let fs ← current
  match fs.stat first with
  | .error _ => pure false
  | .ok _ => do
    checked second
    match fs.stat second, fs.locate first, fs.locate second with
    | .ok _, .ok a, .ok b => pure (a = b)
    | _, _, _ => pure false

def copy (source : String) (target : FileName) : Run Unit := do
  if ← same source target.plain then throw (.refusal (.sameFile (.text source) target))
  let content ← read source
  checked target.plain
  match (← current).write target.plain content with
  | .ok fs => replace fs
  | .error .isDirectory =>
    if (← look target.plain).isSome then
      throw (.refusal (.system .isDirectory (.text target.plain)))
    else throw (.refusal (.noDirectory target.plain))
  | .error errno => throw (.refusal (.system errno (.text target.plain)))

/-- The last name of a path, whatever slashes follow it. -/
def lastName (path : String) : String :=
  Text.baseName (String.ofList (path.toList.reverse.dropWhile (· = '/')).reverse)

/-- Whether the absolute form of `target` begins with that of `source`. -/
def leadsInto (source target : String) : Run Bool := do
  let closed (path : Path) := if Text.endsWith path.text "/" then path.text else path.text ++ "/"
  let source ← absolute (.ofText source)
  let target ← absolute (.ofText target)
  return Text.startsWith (closed target) (closed source)

/-- Move what the system does not move in one step: a directory under a name below directories
that are made for it, a file by copying it. -/
def moveByCopy (source target place : String) : Run Unit := do
  match ← look source with
  | some .directory => do
    if ← leadsInto source target then throw (.refusal (.intoItself source target))
    let path := Path.ofText place
    makeMissing path path.parts.length
    change place fun fs => fs.rename source place
  | _ => do
    let place := if (← look place) = some .directory then joinPaths place (Text.baseName source)
      else place
    copy source (.text place)
    change source fun fs => fs.removeFile source

/-- Move a file or a directory to a path, or into the directory that is there. -/
def move (source target : String) : Run Unit := do
  if (← look target) = some .directory then
    let place := joinPaths target (lastName source)
    if ← same source target then
      change source fun fs => fs.rename source target
    else if (← look place).isSome then throw (.refusal (.occupied place))
    else go place
  else go target
where
  go (place : String) : Run Unit := do
    checked source
    checked place
    match (← current).rename source place with
    | .ok fs => replace fs
    | .error _ => moveByCopy source target place

def draw : Run String := do
  modify fun s => { s with draws := s.draws + 1 }
  return toString (← get).draws

/-- How often a name is drawn for one temporary file. -/
def drawLimit : Nat := 10000

/-- Make something under the first drawn name that is free, in at most as many draws as given. -/
def makeDrawn (name : String → String) (make : FileSystem → String → Except Errno FileSystem) :
    Nat → Run String
  | 0 => throw (.refusal (.system .alreadyExists (.text (name ""))))
  | limit + 1 => do
    let path := name (← draw)
    checked path
    match make (← current) path with
    | .ok fs => do
      replace fs
      pure path
    | .error .alreadyExists => makeDrawn name make limit
    | .error errno => throw (.refusal (.system errno (.text path)))

/-- Make a fresh directory for temporary files, named by `stem` and a number. -/
def makeTemporaryDirectory (stem : String) : Run String := do
  let temporary := (← get).host.temporary
  makeDrawn (fun number => joinPaths temporary (stem ++ number)) FileSystem.makeDirectory drawLimit

/-- Make a fresh empty file in a directory, named by `stem`, a number and `tail`. -/
def makeTemporaryFile (directory stem tail : String) : Run String := do
  let directory ← absolute (.ofText directory)
  let path ← makeDrawn (fun number => joinPaths directory.text (stem ++ number ++ tail))
    FileSystem.create drawLimit
  return (← absolute (.ofText path)).text

end Foundry.Files
