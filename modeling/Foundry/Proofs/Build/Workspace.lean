import Foundry.Build.Compile
import Foundry.Proofs.Files.Temporary
import Foundry.Proofs.Process.Archiver

/-! Work in the run directory. While a build has a run directory, compiling writes fresh files that
lie directly in it, and nothing else changes but the processes that were started. -/
namespace Foundry

open FileSystem Run

/-- Every tool is told to write the file that the build names: no flag for generating code is `-o`. -/
def Setup.NamesOutputs (setup : Setup) : Prop := "-o" ∉ setup.codeFlags

namespace Session

/-- The session has a run directory, and a file system that makes sense. -/
structure WorksIn (s : Session) (directory : String) : Prop where
  runDirectory : s.runDirectory = some directory
  sound : s.files.Sound

/-- A location directly in the run directory. -/
def Scratch (s : Session) (directory : String) (place : Location) : Prop :=
  ∃ name, place = spot s.files.here directory ++ [name]

/-- A session after work in the run directory that made no archive. -/
structure Advances (directory : String) (s t : Session) : Prop where
  works : t.WorksIn directory
  host : t.host = s.host
  started : s.started <+: t.started
  unarchived : s.archivesSince t = []
  files : s.files.Extends (s.Scratch directory) t.files

/-- The path of a file of the run directory, as it is handed to tools. -/
structure Intermediate (s : Session) (directory path : String) : Prop where
  scratch : s.Scratch directory (spot s.files.here path)
  rooted : Text.startsWith path "/" = true

namespace Advances

theorem refl (works : s.WorksIn directory) : Advances directory s s :=
  ⟨works, rfl, List.prefix_refl _, archivesSince_same rfl, .refl _⟩

theorem scratch (advanced : Advances directory s t) : t.Scratch directory = s.Scratch directory := by
  funext place
  rw [Scratch, Scratch, advanced.files.here]

theorem trans (first : Advances directory s t) (second : Advances directory t u) :
    Advances directory s u where
  works := second.works
  host := second.host.trans first.host
  started := first.started.trans second.started
  unarchived := by
    rw [archivesSince_trans first.host first.started second.started, first.unarchived,
      second.unarchived]
    rfl
  files := first.files.trans (first.scratch ▸ second.files)

theorem intermediate (advanced : Advances directory s t) (given : s.Intermediate directory path) :
    t.Intermediate directory path :=
  ⟨by rw [advanced.scratch, advanced.files.here]; exact given.scratch, given.rooted⟩

end Advances

theorem Intermediate.notFlag {s : Session} (given : s.Intermediate directory path) : path ≠ "-o" := by
  rintro rfl
  exact absurd given.rooted (by decide)

end Session

namespace RunDirectory

theorem path_of_some {s : Session} (there : s.runDirectory = some directory) (stem : String) :
    path stem s = .ok directory s := by
  simp [path, bind, EStateM.bind, there, pure, EStateM.pure]

theorem named_of_some {s : Session} (there : s.runDirectory = some directory) (stem name : String) :
    named stem name s = .ok (joinPaths directory name) s :=
  bind_of_ok (path_of_some there stem)

theorem path_ok {s t : Session} (works : s.runDirectory = some directory)
    (ran : path stem s = .ok found t) : found = directory ∧ t = s := by
  rw [path_of_some works] at ran
  cases ran
  exact ⟨rfl, rfl⟩

theorem named_ok {s t : Session} (works : s.runDirectory = some directory)
    (ran : named stem name s = .ok found t) : found = joinPaths directory name ∧ t = s := by
  rw [named_of_some works] at ran
  cases ran
  exact ⟨rfl, rfl⟩

/-- The run directory of a build, as it is named when it is made. -/
def new (host : Host) (stem : String) (number : Nat) : String :=
  joinPaths host.temporary (stem ++ "-" ++ toString number)

/-- The last name in the path of the run directory of a build. -/
theorem isName_new (number : Nat) : IsName (buildStem ++ "-" ++ toString number) :=
  Files.isName_numbered (by decide) number

theorem spot_new_build (here : Location) (host : Host) (number : Nat) :
    spot here (new host buildStem number) =
      spot here host.temporary ++ [buildStem ++ "-" ++ toString number] :=
  spot_joinPaths_name _ _ (isName_new number)

theorem descends_new {host : Host} (descends : ".." ∉ Text.split '/' host.temporary) (number : Nat) :
    ".." ∉ Text.split '/' (new host buildStem number) :=
  descends_joinPaths descends (isName_new number)

/-- What comes before the number in the path of a run directory. -/
def front (host : Host) (stem : String) : String := joinPaths host.temporary (stem ++ "-")

theorem new_eq (host : Host) (stem : String) (number : Nat) :
    new host stem number = front host stem ++ toString number :=
  joinPaths_append _ (by simp) _

theorem baseName_new_nonempty (host : Host) (stem : String) (number : Nat) :
    Text.baseName (new host stem number) ≠ "" := by
  rw [new_eq, Text.baseName_append_tail _ (Files.slash_not_mem_number number), ← String.toList_inj.ne,
    String.toList_append, Nat.toString_eq_repr, Nat.toList_repr]
  simp [Nat.toDigits_ne_nil]

theorem path_made {s t : Session} (none : s.runDirectory = none) (ran : path stem s = .ok directory t) :
    ∃ u, Files.makeTemporaryDirectory (stem ++ "-") s = .ok directory u ∧
      t = { u with runDirectory := some directory } := by
  rw [path] at ran
  obtain ⟨s', a, got, rest⟩ := bind_eq_ok.mp ran
  obtain ⟨rfl, rfl⟩ : s = s' ∧ s = a := by simpa using got
  simp only [none] at rest
  obtain ⟨made, u, making, rest⟩ := bind_eq_ok.mp rest
  obtain ⟨rfl, rfl⟩ : made = directory ∧ { u with runDirectory := some made } = t := by
    simpa [bind, EStateM.bind, pure, EStateM.pure] using rest
  exact ⟨u, making, rfl⟩

theorem path_new {s t : Session} (none : s.runDirectory = none) (ran : path stem s = .ok directory t) :
    ∃ number fs draws, directory = new s.host stem number ∧ Files.holdsZero directory = false ∧
      s.files.makeDirectory directory = .ok fs ∧
      t = { s with files := fs, draws := draws, runDirectory := some directory } := by
  obtain ⟨u, making, rfl⟩ := path_made none ran
  obtain ⟨number, fs, draws, rfl, whole, done, rfl⟩ := Files.makeTemporaryDirectory_ok making
  exact ⟨number, fs, draws, rfl, whole, done, rfl⟩

theorem path_current {s t : Session} (ran : path stem s = .ok directory t) : t.runDirectory = some directory := by
  cases before : s.runDirectory with
  | none =>
      obtain ⟨number, fs, draws, -, -, -, rfl⟩ := path_new before ran
      rfl
  | some other =>
      obtain ⟨rfl, rfl⟩ := path_ok before ran
      exact before

/-- A run directory that was just made is empty. -/
theorem path_vacant {s t : Session} (sound : s.files.Sound) (none : s.runDirectory = none)
    (ran : path stem s = .ok directory t) : t.files.Vacant (spot s.files.here directory) := by
  obtain ⟨number, fs, draws, rfl, -, done, rfl⟩ := path_new none ran
  obtain ⟨standing, free, rfl⟩ := makeDirectory_ok done
  refine ⟨entry?_put_self _ standing.below _, fun child => ?_⟩
  rw [entry?_put_of_ne _ (by simp [new])]
  have inside : s.files.entry? (spot s.files.here (new s.host stem number)) ≠ some .directory := by
    rw [free]
    simp
  exact sound.free_below inside (List.cons_ne_nil child [])

/-- Where there was no run directory, an empty one is made in a place where nothing was. -/
theorem named_new {s t : Session} (sound : s.files.Sound) (none : s.runDirectory = none)
    (ran : named stem name s = .ok found t) :
    ∃ number, let directory := new s.host stem number
      found = joinPaths directory name ∧ t.WorksIn directory ∧ t.host = s.host ∧
      t.started = s.started ∧ t.module = s.module ∧ s.files.Extends (fun _ => False) t.files ∧
      s.files.entry? (spot s.files.here directory) = .none ∧
      t.files.Vacant (spot s.files.here directory) := by
  obtain ⟨above, u, there, given⟩ := bind_eq_ok.mp ran
  obtain ⟨rfl, rfl⟩ := pure_eq_ok.mp given
  have vacant := path_vacant sound none there
  obtain ⟨number, fs, draws, rfl, -, done, rfl⟩ := path_new none there
  have grown : s.files.Extends (fun _ => False) fs := makeDirectory_extends done
  have free := (makeDirectory_ok done).2.1
  exact ⟨number, rfl, ⟨rfl, grown.sound sound⟩, rfl, rfl, rfl, grown, free, vacant⟩

end RunDirectory

namespace Setup
open Session

variable {directory : String} {s t : Session}

theorem fresh_ok (works : s.WorksIn directory) (cleanName : '/' ∉ name.toList)
    (cleanSuffix : '/' ∉ suffix.toList) (ran : fresh name suffix s = .ok path t) :
    s.Advances directory t ∧ t.Intermediate directory path := by
  obtain ⟨above, u, there, made⟩ := bind_eq_ok.mp ran
  obtain ⟨rfl, rfl⟩ := RunDirectory.path_ok works.runDirectory there
  obtain ⟨drawn, fs, draws, place, rooted, grown, rfl⟩ :=
    Files.makeTemporaryFile_ok works.sound.here cleanName cleanSuffix made
  have inside : u.files.Extends (u.Scratch above) fs := grown.mono fun _ same => ⟨drawn, same⟩
  refine ⟨⟨⟨works.runDirectory, inside.sound works.sound⟩, rfl, List.prefix_refl _,
    archivesSince_same rfl, inside⟩, ⟨drawn, ?_⟩, rooted⟩
  exact (grown.here.symm ▸ place : spot fs.here path = spot fs.here above ++ [drawn])

theorem archive?_of_other (other : Text.baseName tool ≠ "llvm-ar") (args : List String)
    (outcome : Outcome) : Outcome.archive? (tool :: args, outcome) = none := by
  unfold Outcome.archive?
  split
  · rename_i tool' _ archive _ product same
    obtain ⟨same, -⟩ := Prod.mk.inj same
    obtain rfl := (List.cons.inj same).1
    simp [other]
  · rfl

/-- A tool that writes into the run directory alone. -/
theorem runTool_advances {executor : Executor} {command : Command} (works : s.WorksIn directory)
    (other : Text.baseName command.tool ≠ "llvm-ar")
    (writes : ∀ path ∈ Toolset.outputs command.argv, s.Scratch directory (spot s.files.here path))
    (ran : executor.runTool command s = .ok u t) : s.Advances directory t := by
  obtain ⟨stderr, product, piped, -, files, host, -, kept⟩ := Executor.runTool_succeeded ran
  obtain ⟨started, archives⟩ := Executor.runTool_archives ran
  have grown := writeEach_extends writes product
  rw [← files] at grown
  refine ⟨⟨kept ▸ works.runDirectory, grown.sound works.sound⟩, host, started, ?_, grown⟩
  rw [archives, Command.argv, archive?_of_other other]
  rfl

theorem tool_notFlag (bin tool : String) : bin ++ "/" ++ tool ≠ "-o" := by
  intro same
  have slash : '/' ∈ (bin ++ "/" ++ tool).toList := by simp
  rw [same] at slash
  contradiction

/-- A tool of LLVM or of the target that is told to write an intermediate file. -/
theorem tool_advances {executor : Executor} {bin tool output : String} {before rest : List String}
    (works : s.WorksIn directory) (clean : '/' ∉ tool.toList) (other : tool ≠ "llvm-ar")
    (absent : "-o" ∉ before) (given : s.Intermediate directory output)
    (ran : executor.runTool ⟨bin ++ "/" ++ tool, before ++ "-o" :: output :: rest, []⟩ s = .ok u t) :
    s.Advances directory t := by
  have base : Text.baseName (bin ++ "/" ++ tool) ≠ "llvm-ar" := by
    rw [Text.baseName_append bin clean]
    exact other
  have written := Toolset.outputs_of_named absent base (tool_notFlag bin tool) output rest
  have writes : ∀ path ∈ Toolset.outputs
      (Command.mk (bin ++ "/" ++ tool) (before ++ "-o" :: output :: rest) []).argv,
      s.Scratch directory (spot s.files.here path) := by
    intro path member
    rw [Command.argv, written, List.mem_singleton] at member
    rw [member]
    exact given.scratch
  refine runTool_advances works ?_ ?_ ran
  · exact base
  · exact writes

theorem targetTool_advances {toolchain : Toolchain} {tool input output : String} {rest : List String}
    (works : s.WorksIn directory) (clean : '/' ∉ tool.toList) (other : tool ≠ "llvm-ar")
    (notFlag : input ≠ "-o") (given : s.Intermediate directory output)
    (ran : toolchain.targetTool tool (input :: "-o" :: output :: rest) s = .ok u t) :
    s.Advances directory t := by
  have path : s!"{toolchain.target}/bin/{tool}" = toolchain.target ++ "/bin" ++ "/" ++ tool := by
    rw [← String.toList_inj]
    simp [toString]
  have args : input :: "-o" :: output :: rest = [input] ++ "-o" :: output :: rest := rfl
  rw [Toolchain.targetTool, path, args] at ran
  have absent : "-o" ∉ [input] := by simpa using Ne.symm notFlag
  exact tool_advances works clean other absent given ran

variable {setup : Setup}

theorem optimizeBitcode_ok (works : s.WorksIn directory) (notFlag : file ≠ "-o")
    (ran : setup.optimizeBitcode file s = .ok path t) :
    s.Advances directory t ∧ t.Intermediate directory path := by
  obtain ⟨optimized, u, made, rest⟩ := bind_eq_ok.mp ran
  obtain ⟨first, given⟩ := fresh_ok works (by decide) (by decide) made
  obtain ⟨_, v, tool, returned⟩ := bind_eq_ok.mp rest
  obtain ⟨rfl, rfl⟩ := pure_eq_ok.mp returned
  have level : setup.optimizationLevel ≠ "-o" := by
    unfold optimizationLevel
    split
    · decide
    · split <;> decide
  have args : [file, setup.optimizationLevel, "-o", optimized] =
      [file, setup.optimizationLevel] ++ "-o" :: optimized :: [] := rfl
  rw [args] at tool
  have absent : "-o" ∉ [file, setup.optimizationLevel] := by
    simp [Ne.symm notFlag, Ne.symm level]
  have second := tool_advances first.works (by decide) (by decide) absent given tool
  exact ⟨first.trans second, second.intermediate given⟩

theorem compileBitcode_ok (works : s.WorksIn directory) (named : setup.NamesOutputs)
    (notFlag : file ≠ "-o") (ran : setup.compileBitcode file s = .ok path t) :
    s.Advances directory t ∧ t.Intermediate directory path := by
  obtain ⟨compiled, u, made, rest⟩ := bind_eq_ok.mp ran
  obtain ⟨first, given⟩ := fresh_ok works (by decide) (by decide) made
  obtain ⟨_, v, tool, returned⟩ := bind_eq_ok.mp rest
  obtain ⟨rfl, rfl⟩ := pure_eq_ok.mp returned
  have absent : "-o" ∉ file :: setup.codeFlags ++ ["-filetype=obj"] := by
    have flags : "-o" ∉ setup.codeFlags := named
    simp [Ne.symm notFlag, flags]
  have args : file :: setup.codeFlags ++ ["-filetype=obj", "-o", compiled] =
      (file :: setup.codeFlags ++ ["-filetype=obj"]) ++ "-o" :: compiled :: [] := by simp
  rw [args] at tool
  have second := tool_advances first.works (by decide) (by decide) absent given tool
  exact ⟨first.trans second, second.intermediate given⟩

theorem objectOf_ok (works : s.WorksIn directory) (named : setup.NamesOutputs)
    (notFlag : file ≠ "-o") (ran : setup.objectOf file s = .ok path t) :
    s.Advances directory t ∧ t.Intermediate directory path := by
  obtain ⟨optimized, u, optimizing, compiling⟩ := bind_eq_ok.mp ran
  obtain ⟨first, between⟩ := optimizeBitcode_ok works notFlag optimizing
  obtain ⟨second, given⟩ := compileBitcode_ok first.works named between.notFlag compiling
  exact ⟨first.trans second, given⟩

theorem wasmOf_ok {files : List String} (works : s.WorksIn directory) (notFlags : "-o" ∉ files)
    (ran : setup.wasmOf files s = .ok path t) :
    s.Advances directory t ∧ t.Intermediate directory path := by
  obtain ⟨bitcode, a, made, rest⟩ := bind_eq_ok.mp ran
  obtain ⟨first, linked⟩ := fresh_ok works (by decide) (by decide) made
  obtain ⟨_, b, linking, rest⟩ := bind_eq_ok.mp rest
  have linking := tool_advances first.works (by decide) (by decide) notFlags linked linking
  obtain ⟨assembly, c, made, rest⟩ := bind_eq_ok.mp rest
  obtain ⟨second, assembled⟩ := fresh_ok linking.works (by decide) (by decide) made
  obtain ⟨_, d, assembling, rest⟩ := bind_eq_ok.mp rest
  have assembling := targetTool_advances second.works (by decide) (by decide)
    linked.notFlag assembled assembling
  obtain ⟨text, e, made, rest⟩ := bind_eq_ok.mp rest
  obtain ⟨third, written⟩ := fresh_ok assembling.works (by decide) (by decide) made
  obtain ⟨_, f, converting, rest⟩ := bind_eq_ok.mp rest
  have converting := targetTool_advances third.works (by decide) (by decide)
    assembled.notFlag written converting
  obtain ⟨wasm, g, made, rest⟩ := bind_eq_ok.mp rest
  obtain ⟨fourth, encoded⟩ := fresh_ok converting.works (by decide) (by decide) made
  obtain ⟨map, h, made, rest⟩ := bind_eq_ok.mp rest
  obtain ⟨fifth, -⟩ := fresh_ok fourth.works (by decide) (by decide) made
  obtain ⟨_, i, encoding, returned⟩ := bind_eq_ok.mp rest
  have given := fifth.intermediate encoded
  have encoding := targetTool_advances fifth.works (by decide) (by decide)
    written.notFlag given encoding
  obtain ⟨rfl, rfl⟩ := pure_eq_ok.mp returned
  refine ⟨?_, encoding.intermediate given⟩
  exact first.trans (linking.trans (second.trans (assembling.trans (third.trans
    (converting.trans (fourth.trans (fifth.trans encoding)))))))

theorem objectsOf_ok {files objects : List String} (works : s.WorksIn directory)
    (named : setup.NamesOutputs) (notFlags : "-o" ∉ files)
    (ran : setup.objectsOf files s = .ok objects t) :
    s.Advances directory t ∧ ∀ object ∈ objects, Text.startsWith object "/" = true := by
  induction files generalizing s objects with
  | nil =>
      obtain ⟨rfl, rfl⟩ := pure_eq_ok.mp ran
      exact ⟨.refl works, by simp⟩
  | cons file files ih =>
      simp only [List.mem_cons, not_or] at notFlags
      obtain ⟨object, u, first, rest⟩ := bind_eq_ok.mp ran
      obtain ⟨advanced, given⟩ := objectOf_ok works named (Ne.symm notFlags.1) first
      obtain ⟨more, v, others, returned⟩ := bind_eq_ok.mp rest
      obtain ⟨rfl, rfl⟩ := pure_eq_ok.mp returned
      obtain ⟨advanced', rooted⟩ := ih advanced.works notFlags.2 others
      refine ⟨advanced.trans advanced', fun path member => ?_⟩
      rcases List.mem_cons.mp member with rfl | member
      · exact given.rooted
      · exact rooted path member

theorem archivedObjects_ok {files objects : List String} (works : s.WorksIn directory)
    (named : setup.NamesOutputs) (notFlags : "-o" ∉ files)
    (ran : setup.archivedObjects files s = .ok objects t) :
    s.Advances directory t ∧ ∀ object ∈ objects, Text.startsWith object "/" = true := by
  unfold archivedObjects at ran
  split at ran
  · obtain ⟨object, u, made, returned⟩ := bind_eq_ok.mp ran
    obtain ⟨rfl, rfl⟩ := pure_eq_ok.mp returned
    obtain ⟨advanced, given⟩ := wasmOf_ok works notFlags made
    exact ⟨advanced, by simpa using given.rooted⟩
  · exact objectsOf_ok works named notFlags ran

theorem archivePath_some {name : String} (nonempty : name ≠ "") :
    archivePath (some name) = RunDirectory.named RunDirectory.buildStem name := by
  unfold archivePath
  split
  · contradiction
  · rename_i empty
    exact absurd (Option.some.inj empty) nonempty
  · rename_i given
    rw [Option.some.inj given]

theorem archivePath_ok {name path : String} (works : s.runDirectory = some directory)
    (nonempty : name ≠ "") (ran : archivePath (some name) s = .ok path t) :
    path = joinPaths directory name ∧ t = s :=
  RunDirectory.named_ok works (archivePath_some nonempty ▸ ran)

/-- An archive is made of objects that were compiled before it, and it is written where the build
says. -/
theorem staticLibrary_ok {files : List String} {name path : String} (works : s.WorksIn directory)
    (named : setup.NamesOutputs) (notFlags : "-o" ∉ files) (nonempty : name ≠ "")
    (notFlag : joinPaths directory name ≠ "-o")
    (ran : setup.staticLibrary files (some name) s = .ok path t) :
    path = joinPaths directory name ∧ ∃ m product, s.Advances directory m ∧ t.host = s.host ∧
      t.runDirectory = some directory ∧ s.started <+: t.started ∧
      s.archivesSince t = [(path, product)] ∧ t.files = m.files.writeEach [path] product := by
  obtain ⟨objects, m, compiling, making⟩ := bind_eq_ok.mp ran
  obtain ⟨advanced, rooted⟩ := archivedObjects_ok works named notFlags compiling
  obtain ⟨archive, u, pathed, running⟩ := bind_eq_ok.mp making
  obtain ⟨_, v, archiving, returned⟩ := bind_eq_ok.mp running
  obtain ⟨rfl, rfl⟩ := archivePath_ok advanced.works.runDirectory nonempty pathed
  obtain ⟨rfl, rfl⟩ := pure_eq_ok.mp returned
  have archiver : Text.baseName (setup.toolchain.llvmBin ++ "/" ++ "llvm-ar") = "llvm-ar" :=
    Text.baseName_append _ (by decide)
  have absent : "-o" ∉ objects := fun member => absurd (rooted _ member) (by decide)
  have outputs := Toolset.outputs_of_archiver absent archiver (tool_notFlag _ _) notFlag
  obtain ⟨stderr, product, piped, outcome, files, host, -, kept⟩ :=
    Executor.runTool_succeeded archiving
  obtain ⟨started, archives⟩ := Executor.runTool_archives archiving
  refine ⟨rfl, u, product, advanced, host.trans advanced.host,
    kept.trans advanced.works.runDirectory, advanced.started.trans started, ?_, ?_⟩
  · rw [archivesSince_trans advanced.host advanced.started started, advanced.unarchived, archives,
      outcome]
    simp only [Command.argv, Outcome.archive?, List.cons_append, List.nil_append]
    exact congrArg Option.toList (if_pos archiver)
  · rw [files]
    exact congrArg (fun paths => u.files.writeEach paths product) outputs

end Setup

end Foundry
