import Foundry.Build.Compile
import Foundry.Proofs.Build.RunDirectory

/-! Compiling stops at the first tool that fails. What else can end it is a refused operation on the
files of the run directory. -/
namespace Foundry.Setup
open Run

/-- A compilation that stops at the first failed tool, or fails on a file. -/
abbrev Compiles (run : Run α) : Prop := Obeys (stopsAtFailure Failure.IsOfFile) run

theorem fresh_compiles (name suffix : String) : Compiles (fresh name suffix) :=
  (RunDirectory.create_toolless _ _ _).stops

theorem hostTool_compiles (toolchain : Toolchain) (tool : String) (args : List String) :
    Compiles (toolchain.hostTool tool args) :=
  Executor.runTool_stopsAtFailure _ _

theorem targetTool_compiles (toolchain : Toolchain) (tool : String) (args : List String) :
    Compiles (toolchain.targetTool tool args) :=
  Executor.runTool_stopsAtFailure _ _

variable (s : Setup)

theorem linkBitcode_compiles (files : List String) : Compiles (s.linkBitcode files) :=
  (fresh_compiles _ _).bind fun _ => (hostTool_compiles _ _ _).bind fun _ => obeys_pure _

theorem optimizeBitcode_compiles (file : String) : Compiles (s.optimizeBitcode file) :=
  (fresh_compiles _ _).bind fun _ => (hostTool_compiles _ _ _).bind fun _ => obeys_pure _

theorem compileBitcode_compiles (file : String) : Compiles (s.compileBitcode file) :=
  (fresh_compiles _ _).bind fun _ => (hostTool_compiles _ _ _).bind fun _ => obeys_pure _

theorem objectOf_compiles (file : String) : Compiles (s.objectOf file) :=
  (s.optimizeBitcode_compiles file).bind fun _ => s.compileBitcode_compiles _

theorem wasmOf_compiles (files : List String) : Compiles (s.wasmOf files) :=
  (fresh_compiles _ _).bind fun _ => (hostTool_compiles _ _ _).bind fun _ =>
    (fresh_compiles _ _).bind fun _ => (targetTool_compiles _ _ _).bind fun _ =>
    (fresh_compiles _ _).bind fun _ => (targetTool_compiles _ _ _).bind fun _ =>
    (fresh_compiles _ _).bind fun _ => (fresh_compiles _ _).bind fun _ =>
    (targetTool_compiles _ _ _).bind fun _ => obeys_pure _

theorem objectFiles_compiles (files : List String) : Compiles (s.objectFiles files) := by
  unfold objectFiles
  split
  · exact (s.wasmOf_compiles files).bind fun _ => obeys_pure _
  · split
    · exact (s.objectOf_compiles _).bind fun _ => obeys_pure _
    · exact (s.linkBitcode_compiles _).bind fun _ => (s.objectOf_compiles _).bind fun _ => obeys_pure _

theorem objectsOf_compiles (files : List String) : Compiles (s.objectsOf files) := by
  induction files with
  | nil => exact obeys_pure _
  | cons file rest ih => exact (s.objectOf_compiles file).bind fun _ => ih.bind fun _ => obeys_pure _

theorem archivedObjects_compiles (files : List String) : Compiles (s.archivedObjects files) := by
  unfold archivedObjects
  split
  · exact (s.wasmOf_compiles files).bind fun _ => obeys_pure _
  · exact s.objectsOf_compiles files

theorem archivePath_compiles (name : Option String) : Compiles (archivePath name) := by
  unfold archivePath
  split
  · exact fresh_compiles _ _
  · exact fresh_compiles _ _
  · exact (RunDirectory.named_toolless _ _).stops

theorem staticLibrary_compiles (files : List String) (name : Option String) :
    Compiles (s.staticLibrary files name) :=
  (s.archivedObjects_compiles files).bind fun _ => (archivePath_compiles name).bind fun _ =>
    (hostTool_compiles _ _ _).bind fun _ => obeys_pure _

end Foundry.Setup
