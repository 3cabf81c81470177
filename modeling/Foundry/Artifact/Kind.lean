import Foundry.Failure
import Foundry.Target.Basic

/-! The kinds of artifacts, and what their files are called on each target. -/
namespace Foundry

inductive ArtifactKind where
  | program
  | dynamic
  | framework
  | library
  | bitcode
deriving DecidableEq, Repr

namespace ArtifactKind

def all : List ArtifactKind := [program, dynamic, framework, library, bitcode]

def name : ArtifactKind → String
  | program => "program"
  | dynamic => "dynamic"
  | framework => "framework"
  | library => "library"
  | bitcode => "bitcode"

/-- The kind of exactly this name. -/
def ofName? (name : String) : Option ArtifactKind := all.find? (·.name = name)

/-- The kind of a name in any case. -/
def parse (name : String) : Except Failure ArtifactKind :=
  match ofName? (Text.asciiLower name) with
  | some kind => .ok kind
  | none => .error (.fault (.unknownOutputKind name))

/-- What the file name ends in. -/
def suffix (kind : ArtifactKind) (target : Target) : String :=
  match kind, target.family with
  | program, .mingw => ".exe"
  | program, .wasm => ".wasm"
  | program, _ => ".kexe"
  | dynamic, .mingw => ".dll"
  | dynamic, .apple => ".dylib"
  | dynamic, _ => ".so"
  | framework, _ => ".framework"
  | library, _ => ".klib"
  | bitcode, _ => ".bc"

/-- What the file name starts with. -/
def lead (kind : ArtifactKind) (target : Target) : String :=
  match kind, target.family with
  | dynamic, .mingw => ""
  | dynamic, _ => "lib"
  | _, _ => ""

/-- The file of an artifact that is called `name`: the name itself if it has the suffix, else the
same path with the suffix and the lead that its last part lacks. -/
def fileFor (kind : ArtifactKind) (target : Target) (name : String) : Except Failure String :=
  let suffix := kind.suffix target
  if Text.endsWith name suffix then .ok name
  else
    let path := Path.ofText name
    let lead := kind.lead target
    let stem := if Text.startsWith path.name lead then path.name else lead ++ path.name
    match path.withName? (stem ++ suffix) with
    | some path => .ok path.text
    | none => .error (.emptyName path)

end ArtifactKind

end Foundry
