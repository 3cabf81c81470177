import Foundry.Bytes
import Foundry.Number.Binary64
import Foundry.Document.Moment

/-! The values of documents: what a properties file, a library manifest or a diagnostic argument
can hold. A table keeps its keys in the order in which they were first set. -/
namespace Foundry

/-- A value of a document. Not every format has all kinds: only packed documents hold byte strings,
time stamps, extensions, and tables one of whose keys is no text (`mapping`). -/
inductive Value where
  | null
  | bool (b : Bool)
  | int (n : Int)
  | float (x : Binary64)
  | text (s : String)
  | bytes (b : Bytes)
  | moment (m : Moment)
  | timestamp (seconds : Int) (nanoseconds : Nat)
  | extension (code : Int) (data : Bytes)
  | array (items : List Value)
  | table (entries : List (String × Value))
  | mapping (entries : List (Value × Value))
deriving Repr, Inhabited

/-- The entries of a table, in order. -/
abbrev Table := List (String × Value)

namespace Table

def get? (table : Table) (key : String) : Option Value := table.lookup key

def has (table : Table) (key : String) : Bool := (table.get? key).isSome

/-- Set a key: in place if it is set already, else at the end. -/
def set : Table → String → Value → Table
  | [], key, value => [(key, value)]
  | entry :: rest, key, value =>
    if entry.1 = key then (key, value) :: rest else entry :: set rest key value

/-- Set all keys of `other`, one after another. -/
def update (table other : Table) : Table :=
  other.foldl (fun table (key, value) => table.set key value) table

def keys (table : Table) : List String := table.map (·.1)

end Table

namespace Value

def table? : Value → Option Table
  | .table entries => some entries
  | _ => none

def isText (value : Value) (text : String) : Bool :=
  match value with
  | .text s => s = text
  | _ => false

end Value

end Foundry
