import Foundry.Link.Platform
import Foundry.Process.Executor

/-! Carrying out a link. -/
namespace Foundry

/-- How a platform carries out its link command. -/
inductive LinkAction where
  | run
  /-- Run the linker and, once it has succeeded, the tool that extracts debug symbols. -/
  | runThenExtract (extract : Command)
  /-- Copy the one object to the artifact, and write a script of the libraries' scripts beside
  it. -/
  | copyWithScript (objects : List String) (artifact : String)
deriving DecidableEq, Repr

namespace LinkAction

def scriptStart : String := "var konan = \x7b libraries: [] \x7d;\n"

def isScript (library : String) : Bool := Text.endsWith library ".js"

/-- A file that is written piece by piece: what has reached it, and what still waits. -/
structure Pending where
  path : String
  written : Bytes := []
  waiting : Bytes := []

namespace Pending

/-- How many bytes may wait. -/
def limit : Nat := 4096

/-- All bytes of the file reach it. -/
def flush (p : Pending) : Run Unit := Files.write p.path (p.written ++ p.waiting)

/-- Add a piece. It waits if it can; else what waited reaches the file, and so does the piece if it
is too large to wait. -/
def add (p : Pending) (piece : Bytes) : Run Pending := do
  if p.waiting.length + piece.length ≤ limit then
    return { p with waiting := p.waiting ++ piece }
  else
    let written := p.written ++ p.waiting
    let next := if limit < piece.length then { p with written := written ++ piece, waiting := [] }
      else { p with written, waiting := piece }
    Files.write p.path next.written
    return next

/-- Add the content of files, one after another. What was added before a file that cannot be read
reaches the file all the same. -/
def addFiles (p : Pending) : List String → Run Unit
  | [] => p.flush
  | file :: rest => do
    let content ← tryCatch (Files.read (Path.ofText file).text) fun failure => do
      p.flush
      throw failure
    let next ← p.add content
    addFiles next rest

end Pending

/-- Write the script of an artifact, and give the name of its file. -/
def writeScript (artifact : String) (scripts : List String) : Run String := do
  let path := Path.ofText (artifact ++ ".js")
  Files.write path.text []
  let script ← Pending.add { path := path.text } (Utf8.encode scriptStart)
  script.addFiles scripts
  return path.name

def carryOut (action : LinkAction) (executor : Executor) (command : Command) : Run Unit :=
  match action with
  | run => executor.runTool command
  | runThenExtract extract => do
    executor.runTool command
    executor.runTool extract
  | copyWithScript objects artifact =>
    match objects with
    | [object] => do
      executor.logger.log s!"cp {object} {artifact}"
      Files.copy object (.text artifact)
      discard (writeScript artifact (command.libs.filter isScript))
    | _ => throw (.objectCount objects.length)

end LinkAction

def Platform.action (p : Platform) (objects : List String) (artifact : String) (debug : Bool) :
    LinkAction :=
  match p.recipe with
  | .apple dsymutil _ =>
    if debug then .runThenExtract (extractCommand dsymutil artifact) else .run
  | .copy => .copyWithScript objects artifact
  | _ => .run

end Foundry
