import Foundry.FileSystem.Basic

/-! What is below a location: its files and its empty directories, and how that changes from one
file system to another. -/
namespace Foundry.FileSystem

/-- A file with its content, or an empty directory, whose name then ends in a slash. -/
abbrev Listed := String × Option Bytes

/-- The files and the empty directories below a location, by their paths from there. -/
def listing (fs : FileSystem) (top : Location) : List Listed :=
  fs.entries.filterMap fun (place, entry) =>
    if place = top || !within top place then none
    else
      let name := String.intercalate "/" (place.drop top.length)
      match entry with
      | .file content => some (name, some content)
      | .directory => if (fs.names place).isEmpty then some (name ++ "/", none) else none

/-- What is below a location but was not so before. -/
def changed (before after : FileSystem) (top : Location) : List Listed :=
  let old := before.listing top
  (after.listing top).filter fun (name, content) => old.lookup name ≠ some content

/-- The names of what was below a location and is there no more, in order. -/
def removed (before after : FileSystem) (top : Location) : List String :=
  let new := after.listing top
  let gone := (before.listing top).filter fun (name, _) => (new.lookup name).isNone
  sortNames (gone.map (·.1))

end Foundry.FileSystem
