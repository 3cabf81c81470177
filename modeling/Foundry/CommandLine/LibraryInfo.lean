import Foundry.Document.Shown
import Foundry.CommandLine.ExitStatus
import Foundry.Library.Manifest

/-! Showing what a library is, from its manifest alone. Whoever wrote the manifest may have put any
value anywhere. -/
namespace Foundry

namespace Value

/-- Whether a value is null, false, zero or without items. -/
def isVoid : Value → Bool
  | .null => true
  | .bool b => !b
  | .int n => n = 0
  | .float x => x.bits.toNat % twoTo 63 = 0
  | .text s => s.isEmpty
  | .bytes b => b.isEmpty
  | .moment _ | .timestamp .. | .extension .. => false
  | .array items => items.isEmpty
  | .table entries => entries.isEmpty
  | .mapping entries => entries.isEmpty

/-- The items of a value, if it has any: those of a list, the keys of a table, the characters of a
text, the bytes of a byte string, and the two parts of an extension. -/
def items? : Value → Option (List Value)
  | .text s => some (s.toList.map fun c => .text c.toString)
  | .bytes b => some (b.map fun byte => .int byte.toNat)
  | .extension code data => some [.int code, .bytes data]
  | .array items => some items
  | .table entries => some (entries.map fun entry => .text entry.1)
  | .mapping entries => some (entries.map (·.1))
  | .null | .bool _ | .int _ | .float _ | .moment _ | .timestamp .. => none

/-- The entries of a value that is a table, each with its key as a value. -/
def entries? : Value → Option (List (Value × Value))
  | .table entries => some (entries.map fun (key, value) => (.text key, value))
  | .mapping entries => some entries
  | _ => none

end Value

namespace Manifest

def notPacked : String := "<msgpack>"

/-- The value of a field, if it is set. -/
def field? (manifest : Value) (key : String) : Except Failure (Option Value) :=
  match manifest.entries? with
  | none => .error .wrongKind
  | some entries => .ok ((entries.find? (·.1.isText key)).map (·.2))

def field (manifest : Value) (key : String) : Except Failure Value := do
  match ← field? manifest key with
  | some value => .ok value
  | none => .error (.missingKey key)

def printField (manifest : Value) (title key : String) : Run Unit := do
  let value ← Run.ofExcept (field manifest key)
  Run.print s!"{title}: {value.plain}"

/-- Print the items of a field under a title, unless there are none. -/
def printItems (manifest : Value) (title key : String) (line : String → String) : Run Unit := do
  let some value ← Run.ofExcept (field? manifest key) | return
  if value.isVoid then return
  let some items := value.items? | throw .wrongKind
  Run.print s!"{title} ({items.length}):"
  items.forM fun item => Run.print (line item.plain)
  Run.print ""

/-- Print the user's own fields, unless there are none. -/
def printProperties (manifest : Value) : Run Unit := do
  let some value ← Run.ofExcept (field? manifest "properties") | return
  if value.isVoid then return
  Run.print "Properties:"
  let some entries := value.entries? | throw .lacksMember
  entries.forM fun (key, value) => Run.print s!"  {key.plain} = {value.plain}"

def print (manifest : Value) : Run Unit := do
  printField manifest "Library" "unique_name"
  printField manifest "Target" "target"
  printField manifest "Compiler" "compiler_version"
  printField manifest "ABI" "abi_version"
  Run.print ""
  printItems manifest "Native bitcode" "native_targets" fun name => s!"  {name}"
  printItems manifest "Dependencies" "depends" fun name => s!"  <{name}>"
  printProperties manifest

/-- The message for a manifest that cannot be read, if the failure has one. -/
def problem? : Failure → Option String
  | .fault f => some f.text
  | .refusal r => some r.text
  | .badStream (.damaged reason) => some reason
  | .notPacked => some notPacked
  | _ => none

end Manifest

namespace CommandLine

def showLibrary (path : Path) : Run ExitStatus := do
  match ← Files.lookStrictly path.text with
  | none => do
    Run.printError s!"Error: file not found: {path.text}"
    return .failed
  | some entry =>
    if entry ≠ .directory ∧ path.suffix ≠ librarySuffix then
      Run.printError s!"Error: expected {librarySuffix} file, got: {path.text}"
      return .failed
    let found ← tryCatch ((Manifest.read path).map Except.ok) fun failure =>
      match Manifest.problem? failure with
      | some problem => pure (.error problem)
      | none => throw failure
    match found with
    | .error problem => do
      Run.printError s!"Error: {problem}"
      return .failed
    | .ok manifest => do
      Manifest.print manifest
      return .success

end CommandLine

end Foundry
