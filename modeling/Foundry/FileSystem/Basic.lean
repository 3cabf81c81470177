import Foundry.Bytes
import Foundry.FileSystem.Errno
import Foundry.Text.Affix

/-! File systems: which absolute locations hold a file or a directory, and where a path leads.

A file system is a list of entries, so that what an operation leaves alone is a statement about
looking up one location. -/
namespace Foundry

/-- An absolute location: the names on the way from the root, none of them empty, `.` or `..`. -/
abbrev Location := List String

inductive Entry where
  | directory
  | file (content : Bytes)
deriving DecidableEq, Repr

/-- The entries below the root, which is always a directory, and the current directory. -/
structure FileSystem where
  entries : List (Location × Entry) := []
  here : Location := []
deriving Repr

namespace FileSystem

def entry? (fs : FileSystem) (place : Location) : Option Entry :=
  if place = [] then some .directory else fs.entries.lookup place

/-- The entries without those that a location holds. -/
def without (fs : FileSystem) (place : Location) : FileSystem :=
  { fs with entries := fs.entries.filter (·.1 ≠ place) }

/-- Put an entry at a location, in place of what it held. -/
def put (fs : FileSystem) (place : Location) (entry : Entry) : FileSystem :=
  { fs with entries := (place, entry) :: (fs.without place).entries }

/-- Make a directory of each location on the way from `above` where nothing is. -/
def withWay (fs : FileSystem) (above : Location) : List String → FileSystem
  | [] => fs
  | name :: rest =>
    let place := above ++ [name]
    let fs := if (fs.entry? place).isSome then fs else fs.put place .directory
    withWay fs place rest

/-- Put an entry at a location, below directories that are made where nothing is. -/
def plant (fs : FileSystem) (place : Location) (entry : Entry) : FileSystem :=
  (fs.withWay [] place.dropLast).put place entry

/-- Whether a location is `top` or lies below it. -/
def within (top place : Location) : Bool := top.isPrefixOf place

/-- The file system without a location and everything below it. -/
def withoutTree (fs : FileSystem) (top : Location) : FileSystem :=
  { fs with entries := fs.entries.filter fun (place, _) => !within top place }

def tree (fs : FileSystem) (top : Location) : List (Location × Entry) :=
  fs.entries.filter fun (place, _) => within top place

/-- Put a name among names that are in the order of their characters. -/
def insertName (name : String) : List String → List String
  | [] => [name]
  | other :: rest => if name ≤ other then name :: other :: rest else other :: insertName name rest

/-- Names in the order of their characters. -/
def sortNames (names : List String) : List String := names.foldr insertName []

/-- The names directly below a location, in the order of their characters. -/
def names (fs : FileSystem) (place : Location) : List String :=
  sortNames <| fs.entries.filterMap fun (other, _) =>
    if other.dropLast = place then other.getLast? else none

/-- The longest name of a file, in bytes. -/
def nameLimit : Nat := 255

/-- The length in bytes from which on a path is refused. -/
def pathLimit : Nat := 4096

/-- Go from a location along the steps of a path. Each step but an empty one or `.` names an entry
of the directory reached or goes up from it; the last one need not exist. -/
def follow (fs : FileSystem) (place : Location) : List String → Except Errno Location
  | [] => .ok place
  | step :: rest =>
    match fs.entry? place with
    | none => .error .noEntry
    | some (.file _) => .error .notDirectory
    | some .directory =>
      if step = "" ∨ step = "." then follow fs place rest
      else if step = ".." then follow fs place.dropLast rest
      else if nameLimit < step.utf8ByteSize then .error .nameTooLong
      else follow fs (place ++ [step]) rest

/-- The steps of a path and the location from which they are taken. -/
def route (fs : FileSystem) (path : String) : Except Errno (Location × List String) :=
  if path = "" then .error .noEntry
  else if pathLimit ≤ path.utf8ByteSize then .error .nameTooLong
  else
    let start := if Text.startsWith path "/" then [] else fs.here
    .ok (start, Text.split '/' path)

/-- The location of a path that names something. -/
def locate (fs : FileSystem) (path : String) : Except Errno Location := do
  let (start, steps) ← fs.route path
  fs.follow start steps

def stat (fs : FileSystem) (path : String) : Except Errno Entry := do
  match fs.entry? (← fs.locate path) with
  | some entry => .ok entry
  | none => .error .noEntry

/-- The last step of a path with the directory in which it is to be taken. -/
inductive Last where
  /-- A name in a directory; `slash` tells whether a slash follows it. -/
  | name (directory : Location) (name : String) (slash : Bool)
  | self (place : Location)
  | above (place : Location)
  /-- The path is a slash, or more of them. -/
  | root
deriving DecidableEq, Repr

def last (fs : FileSystem) (path : String) : Except Errno Last := do
  let (start, steps) ← fs.route path
  let slash := steps.getLast? = some ""
  match (steps.reverse.dropWhile (· = "")) with
  | [] => .ok .root
  | step :: before =>
    let directory ← fs.follow start before.reverse
    match fs.entry? directory with
    | none => .error .noEntry
    | some (.file _) => .error .notDirectory
    | some .directory =>
      if step = "." then .ok (.self directory)
      else if step = ".." then .ok (.above directory.dropLast)
      else if nameLimit < step.utf8ByteSize then .error .nameTooLong
      else .ok (.name directory step slash)

end FileSystem

end Foundry
