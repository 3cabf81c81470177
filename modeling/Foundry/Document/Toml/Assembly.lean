import Foundry.Document.Toml.Scalar

/-! Putting statements together into one table.

A key path may be closed in two ways. A path is opened by a header, or by the keys of one section,
and must not be opened again. A path is fixed by an array or an inline table that is its value, and
nothing at it or below it may change. -/
namespace Foundry

namespace Table

/-- Change the table at a path, making tables on the way as needed. With `inLists` an array on the
way stands for its last item. Nothing if something on the way is no table, or if the change is
refused. -/
def updateAt (inLists : Bool) (action : Table → Option Table) : List String → Table → Option Table
  | [], table => action table
  | key :: rest, table =>
    match table.get? key with
    | none => (updateAt inLists action rest []).map fun inner => table.set key (.table inner)
    | some (.table inner) =>
      (updateAt inLists action rest inner).map fun inner => table.set key (.table inner)
    | some (.array items) =>
      match inLists, items.getLast? with
      | true, some (.table inner) =>
        (updateAt inLists action rest inner).map fun inner =>
          table.set key (.array (items.dropLast ++ [.table inner]))
      | _, _ => none
    | some _ => none

def insertNew (key : String) (value : Value) (table : Table) : Option Table :=
  if table.has key then none else some (table ++ [(key, value)])

/-- Append an empty table to the array at a key, which is made if it is missing. -/
def appendItem (key : String) (table : Table) : Option Table :=
  match table.get? key with
  | none => some (table ++ [(key, .array [.table []])])
  | some (.array items) => some (table.set key (.array (items ++ [.table []])))
  | some _ => none

end Table

namespace Toml

abbrev KeyPath := List String

inductive Statement where
  | entry (key : KeyPath) (value : Value)
  | header (key : KeyPath)
  | arrayHeader (key : KeyPath)
deriving Repr

def splitLast (key : KeyPath) : KeyPath × String := (key.dropLast, key.getLast?.getD "")

/-- The beginnings of a path that are neither empty nor the path itself, shortest first. -/
def properStarts (key : KeyPath) : List KeyPath :=
  (List.range (key.length - 1)).map fun i => key.take (i + 1)

/-- Whether the value holds others, so that its path is fixed. -/
def holdsOthers : Value → Bool
  | .array _ | .table _ => true
  | _ => false

/-- Whether a path is one of the fixed paths or lies below one. -/
def isFixed (fixed : List KeyPath) (key : KeyPath) : Bool := fixed.any (·.isPrefixOf key)

/-- A document under construction. -/
structure Assembly where
  data : Table := []
  /-- The path of the section that is being read. -/
  current : KeyPath := []
  opened : List KeyPath := []
  /-- Paths that are opened when the section ends. -/
  opening : List KeyPath := []
  fixed : List KeyPath := []

namespace Assembly

def endSection (a : Assembly) : Assembly :=
  { a with opened := a.opening ++ a.opened, opening := [] }

/-- The assembly with other data, if there are any. -/
def withData (a : Assembly) : Option Table → Except TomlError Assembly
  | some data => pure { a with data }
  | none => malformed

def addEntry (a : Assembly) (key : KeyPath) (value : Value) : Except TomlError Assembly :=
  let (parents, name) := splitLast key
  let starts := (properStarts key).map (a.current ++ ·)
  if starts.any a.opened.contains then malformed
  else if isFixed a.fixed (a.current ++ parents) then malformed
  else
    let a := { a with
      opening := starts ++ a.opening
      fixed := if holdsOthers value then (a.current ++ key) :: a.fixed else a.fixed }
    a.withData (Table.updateAt true (Table.insertNew name value) (a.current ++ parents) a.data)

def addHeader (a : Assembly) (key : KeyPath) : Except TomlError Assembly :=
  let a := a.endSection
  if a.opened.contains key || isFixed a.fixed key then malformed
  else
    let a := { a with opened := key :: a.opened, current := key }
    a.withData (Table.updateAt true some key a.data)

/-- Begin the section of a new last table of an array. Paths below it are free again. -/
def addArrayHeader (a : Assembly) (key : KeyPath) : Except TomlError Assembly :=
  let a := a.endSection
  if isFixed a.fixed key then malformed
  else
    let (parents, name) := splitLast key
    let others := List.filter fun (path : KeyPath) => !key.isPrefixOf path
    let a := { a with
      opened := key :: others a.opened, fixed := others a.fixed, current := key }
    a.withData (Table.updateAt true (Table.appendItem name) parents a.data)

def add (a : Assembly) : Statement → Except TomlError Assembly
  | .entry key value => a.addEntry key value
  | .header key => a.addHeader key
  | .arrayHeader key => a.addArrayHeader key

end Assembly

/-- Add an entry to an inline table in which some paths are fixed. -/
def addInline (fixed : List KeyPath) (table : Table) (key : KeyPath) (value : Value) :
    Except TomlError Table :=
  let (parents, name) := splitLast key
  if isFixed fixed key then malformed
  else match Table.updateAt false (Table.insertNew name value) parents table with
    | some table => pure table
    | none => malformed

end Toml

end Foundry
