import Foundry.Build.Job
import Foundry.Build.RunDirectory

/-! From bitcode to object files and archives. Every intermediate file is a fresh one in the run
directory.

WebAssembly takes a way of its own through assembly text, since its toolchain has no step from
bitcode to objects. -/
namespace Foundry.Setup

/-- A fresh file in the run directory. -/
def fresh (name suffix : String) : Run String :=
  RunDirectory.create RunDirectory.buildStem name suffix

/-- The level of optimization: the highest, or none for debugging, or else a low one. -/
def optimizationLevel (s : Setup) : String :=
  if s.config.optimize then "-O3" else if s.config.debug then "-O0" else "-O1"

def codeFlags (s : Setup) : List String :=
  if s.config.optimize then s.platform.flags .compileOptimized
  else if s.config.debug then s.platform.flags .compileDebug
  else s.platform.flags .compilePlain

def linkBitcode (s : Setup) (files : List String) : Run String := do
  let linked ← fresh "linked" ".o"
  s.toolchain.hostTool "llvm-link" (files ++ ["-o", linked])
  return linked

def optimizeBitcode (s : Setup) (file : String) : Run String := do
  let optimized ← fresh "optimized" ".bc"
  s.toolchain.hostTool "opt" [file, s.optimizationLevel, "-o", optimized]
  return optimized

def compileBitcode (s : Setup) (file : String) : Run String := do
  let compiled ← fresh "compiled" ".o"
  s.toolchain.hostTool "llc" (file :: s.codeFlags ++ ["-filetype=obj", "-o", compiled])
  return compiled

def objectOf (s : Setup) (file : String) : Run String := do
  s.compileBitcode (← s.optimizeBitcode file)

def wasmOf (s : Setup) (files : List String) : Run String := do
  let bitcode ← fresh "combined" ".bc"
  s.toolchain.hostTool "llvm-link" (files ++ ["-o", bitcode])
  let assembly ← fresh "combined" ".s"
  s.toolchain.targetTool "llc" [bitcode, "-o", assembly]
  let text ← fresh "combined" ".wast"
  s.toolchain.targetTool "s2wasm" ([assembly, "-o", text] ++ s.platform.flags .assembler)
  let wasm ← fresh "combined" ".wasm"
  let sourceMap ← fresh "combined" ".smap"
  s.toolchain.targetTool "wasm-as" [text, "-o", wasm, "-g", "-s", sourceMap]
  return wasm

/-- Compile bitcode files, which are linked first if there is not exactly one. -/
def objectFiles (s : Setup) (files : List String) : Run (List String) := do
  if s.config.target = .wasm32 then return [← s.wasmOf files]
  match files with
  | [file] => return [← s.objectOf file]
  | _ => return [← s.objectOf (← s.linkBitcode files)]

/-- The path of an archive in the run directory, which has a given name or a fresh one. -/
def archivePath : Option String → Run String
  | none | some "" => fresh "lib" ".a"
  | some name => RunDirectory.named RunDirectory.buildStem name

def archive (s : Setup) (objects : List String) (name : Option String) : Run String := do
  let output ← archivePath name
  s.toolchain.hostTool "llvm-ar" (["rcs", output] ++ objects)
  return output

def objectsOf (s : Setup) : List String → Run (List String)
  | [] => pure []
  | file :: rest => do
    let first ← s.objectOf file
    return first :: (← s.objectsOf rest)

/-- The object files for an archive of bitcode files, which are compiled each by itself. -/
def archivedObjects (s : Setup) (files : List String) : Run (List String) := do
  if s.config.target = .wasm32 then return [← s.wasmOf files]
  s.objectsOf files

def staticLibrary (s : Setup) (files : List String) (name : Option String) : Run String := do
  s.archive (← s.archivedObjects files) name

end Foundry.Setup
