import Foundry.Build.Produce
import Foundry.Proofs.Build.Workspace
import Foundry.Proofs.FileSystem.Reach

/-! Builds that leave alone what is not theirs. From its first intermediate file on, a build changes
its run directory and the places that are said beforehand, however it goes on and whether or not it
fails; when the run directory is removed, nothing but those places has changed. -/
namespace Foundry

open FileSystem Run

namespace Run

/-- The run keeps a property of sessions. -/
def keeping (P : Session → Prop) : Contract := fun _ s t => P s → P t

instance (P : Session → Prop) : (keeping P).Composes := ⟨fun _ => id, fun first second => second ∘ first⟩

/-- The run changes neither the files nor what the run directory is, and it starts no process. -/
def bystanding : Contract := fun _ s t =>
  t.files = s.files ∧ t.host = s.host ∧ t.runDirectory = s.runDirectory ∧ t.started = s.started

instance : bystanding.Composes where
  refl _ := ⟨rfl, rfl, rfl, rfl⟩
  trans := by
    rintro _ s t u ⟨files, host, runDirectory, started⟩ ⟨files', host', runDirectory', started'⟩
    exact ⟨files'.trans files, host'.trans host, runDirectory'.trans runDirectory,
      started'.trans started⟩

theorem OnFiles.bystanding {run : Run α} (only : OnFiles F run) (kept : Obeys still run) :
    Obeys bystanding run := by
  intro s
  have same := (only.obeys s).1
  refine ⟨kept s, ?_, ?_, ?_⟩
  · rw [same]
  · rw [same]
  · rw [same]

theorem throw_bystanding (e : Failure) : Obeys Run.bystanding (throw e : Run α) :=
  fun _ => ⟨rfl, rfl, rfl, rfl⟩

theorem ofExcept_bystanding (result : Except Failure α) : Obeys Run.bystanding (ofExcept result) :=
  obeys_ofExcept fun _ _ _ => ⟨rfl, rfl, rfl, rfl⟩

/-- Going on from what can be computed without changing anything. -/
theorem ofExcept_keeping {P : Session → Prop} {result : Except Failure α} {next : α → Run β}
    (rest : ∀ a, result = .ok a → Obeys (keeping P) (next a)) :
    Obeys (keeping P) (ofExcept result >>= next) := by
  cases result with
  | error e => exact fun _ => id
  | ok a => exact rest a rfl

end Run

theorem Logger.log_bystanding (logger : Logger) (line : String) :
    Obeys Run.bystanding (logger.log line) := by
  intro s
  obtain ⟨output, journal, ran⟩ := logger.log_ok line s
  rw [Meets, after_of_ok ran]
  exact ⟨rfl, rfl, rfl, rfl⟩

namespace Session

variable {origin s t : Session} {F D : Location → Prop} {directory : String}

theorem Scratch.inside (scratch : origin.Scratch directory place) :
    within (spot origin.files.here directory) place = true := by
  obtain ⟨name, same⟩ := scratch
  rw [same]
  exact within_append _ _

/-- Where the processes of a build may write: in places of `F`, and directly in its run directory. -/
def Permits (origin : Session) (F : Location → Prop) (directory path : String) : Prop :=
  F (spot origin.files.here path) ∨ origin.Scratch directory (spot origin.files.here path)

/-- Since `origin` only processes were started that write where they may. -/
def Starts (origin : Session) (F : Location → Prop) (directory : String) (t : Session) : Prop :=
  ∃ new, t.started = origin.started ++ new ∧
    ∀ start ∈ new, ∀ path ∈ Toolset.outputs start.argv, origin.Permits F directory path

/-- A session of a build that began at `origin` and works in a run directory, where there was nothing
before: it has written files in places of `F`, has made directories in places of `D`, and did as it
liked in the run directory, where its processes wrote files too. -/
structure Confined (origin : Session) (F D : Location → Prop) (directory : String) (t : Session) :
    Prop where
  sound : origin.files.Sound
  runDirectory : t.runDirectory = some directory
  drawn : ∃ number, directory = RunDirectory.new origin.host RunDirectory.buildStem number
  host : t.host = origin.host
  starts : origin.Starts F directory t
  free : origin.files.entry? (spot origin.files.here directory) = none
  files : origin.files.Grows
    (fun place => F place ∨ within (spot origin.files.here directory) place = true)
    (fun place => D place ∨ place = spot origin.files.here directory) t.files
  stands : t.files.entry? (spot origin.files.here directory) = some .directory
  named : ∃ above name, t.files.last directory = .ok (.name above name false)
  straight : passesBelow (spot origin.files.here directory) (startOf origin.files.here directory)
    (Text.split '/' directory) = false
  whole : Files.holdsZero directory = false

namespace Confined

theorem works (confined : origin.Confined F D directory s) : s.WorksIn directory :=
  ⟨confined.runDirectory, confined.files.sound confined.sound⟩

theorem here (confined : origin.Confined F D directory s) : s.files.here = origin.files.here :=
  confined.files.here

/-- Going on with such changes and such processes alone. -/
theorem step (confined : origin.Confined F D directory s) (host : t.host = s.host)
    (runDirectory : t.runDirectory = s.runDirectory) (new : List Start)
    (started : t.started = s.started ++ new)
    (permitted : ∀ start ∈ new, ∀ path ∈ Toolset.outputs start.argv, origin.Permits F directory path)
    (grown : s.files.Grows
      (fun place => F place ∨ within (spot origin.files.here directory) place = true)
      (fun place => D place ∨ place = spot origin.files.here directory) t.files) :
    origin.Confined F D directory t where
  sound := confined.sound
  runDirectory := runDirectory.trans confined.runDirectory
  drawn := confined.drawn
  host := host.trans confined.host
  starts := by
    obtain ⟨old, before, permitted'⟩ := confined.starts
    refine ⟨old ++ new, by rw [started, before, List.append_assoc], fun start member => ?_⟩
    rcases List.mem_append.mp member with earlier | later
    · exact permitted' start earlier
    · exact permitted start later
  free := confined.free
  files := confined.files.trans grown
  stands := grown.directory confined.stands
  named := by
    obtain ⟨above, name, found⟩ := confined.named
    exact ⟨above, name, last_stays grown.here (.of_directories fun _ => grown.directory) found⟩
  straight := confined.straight
  whole := confined.whole

/-- Going on with such changes and no process. -/
theorem unaided (confined : origin.Confined F D directory s) (host : t.host = s.host)
    (runDirectory : t.runDirectory = s.runDirectory) (started : t.started = s.started)
    (grown : s.files.Grows
      (fun place => F place ∨ within (spot origin.files.here directory) place = true)
      (fun place => D place ∨ place = spot origin.files.here directory) t.files) :
    origin.Confined F D directory t :=
  confined.step host runDirectory [] (by rw [started, List.append_nil]) nofun grown

theorem bystander (confined : origin.Confined F D directory s) (files : t.files = s.files)
    (host : t.host = s.host) (runDirectory : t.runDirectory = s.runDirectory)
    (started : t.started = s.started) : origin.Confined F D directory t :=
  confined.unaided host runDirectory started (files ▸ .refl _)

end Confined

end Session

namespace Run

variable {origin : Session} {F D : Location → Prop} {directory : String}

theorem Obeys.keeping {run : Run α} (kept : Obeys Run.bystanding run) :
    Obeys (keeping (origin.Confined F D directory)) run := by
  intro s confined
  obtain ⟨files, host, runDirectory, started⟩ := kept s
  exact confined.bystander files host runDirectory started

/-- Operations that let the files grow where a build may change something. -/
theorem keeping_of_files {run : Run α} (only : OnFiles G run)
    (grows : Obeys (relating origin.files.here (Grows
      (fun place => F place ∨ within (spot origin.files.here directory) place = true)
      (fun place => D place ∨ place = spot origin.files.here directory))) run) :
    Obeys (keeping (origin.Confined F D directory)) run := by
  intro s confined
  have same := (only.obeys s).1
  exact confined.unaided (by rw [same]) (by rw [same]) (by rw [same]) (grows s confined.here)

/-- Writing one file where a build may write. -/
theorem write_keeping {path : String} (allowed : F (spot origin.files.here path) ∨
      within (spot origin.files.here directory) (spot origin.files.here path) = true)
    (content : Bytes) : Obeys (keeping (origin.Confined F D directory)) (Files.write path content) := by
  apply keeping_of_files (Files.change_filesOnly _ _)
  exact Files.write_relating fun _ _ same done => write_grows done (same ▸ allowed)

theorem copy_keeping {source : String} {target : FileName}
    (allowed : F (spot origin.files.here target.plain) ∨
      within (spot origin.files.here directory) (spot origin.files.here target.plain) = true) :
    Obeys (keeping (origin.Confined F D directory)) (Files.copy source target) := by
  apply keeping_of_files (Files.copy_filesOnly _ _)
  exact Files.copy_relating fun _ _ _ same _ done => write_grows done (same ▸ allowed)

/-- Making a directory with those on the way to it, where a build may make them. -/
theorem makeDirectories_keeping {path : Path}
    (allowed : ∀ place, path.Leads origin.files.here place →
      D place ∨ place = spot origin.files.here directory) :
    Obeys (keeping (origin.Confined F D directory)) (Files.makeDirectories path) := by
  apply keeping_of_files (Files.makeDirectories_filesOnly _)
  exact Files.makeDirectories_relating fun first begins _ _ same done =>
    makeDirectory_grows done (allowed _ ⟨first, begins, by rw [same]⟩)

end Run

theorem FileSystem.writeEach_grows {Z D : Location → Prop} {fs : FileSystem} {paths : List String}
    (inside : ∀ path ∈ paths, Z (spot fs.here path)) (content : Bytes) :
    fs.Grows Z D (fs.writeEach paths content) := by
  induction paths generalizing fs with
  | nil => exact .refl fs
  | cons path rest ih =>
      rw [writeEach, List.foldl_cons]
      have later (path' : String) (member : path' ∈ rest) := inside path' (List.mem_cons_of_mem _ member)
      cases done : fs.write path content with
      | error errno => exact ih later
      | ok fs' =>
          have first : fs.Grows Z D fs' := write_grows done (inside path List.mem_cons_self)
          refine first.trans (@ih fs' fun path' member => ?_)
          rw [first.here]
          exact later path' member

namespace Executor

variable {origin : Session} {F D : Location → Prop} {directory : String}

/-- A tool that writes where the build may write, if it succeeds. -/
theorem runTool_keeping {executor : Executor} {command : Command}
    (writes : ∀ path ∈ Toolset.outputs command.argv, origin.Permits F directory path) :
    Obeys (keeping (origin.Confined F D directory)) (executor.runTool command) := by
  intro s confined
  obtain ⟨piped, output, errors, journal, ended⟩ := executor.runTool_after command s
  rw [ended]
  refine confined.step rfl rfl [⟨command.argv, piped⟩] rfl (by simpa using writes) ?_
  simp only [Session.afterProcess, Outcome.filesAfter]
  split
  · exact .refl _
  · split
    · apply writeEach_grows
      rw [confined.here]
      exact fun path member => (writes path member).imp_right Session.Scratch.inside
    · exact .refl _

/-- A tool that is told by its arguments which file to write. -/
theorem named_keeping {executor : Executor} {bin tool output : String} {before : List String}
    (rest : List String) (clean : '/' ∉ tool.toList) (other : tool ≠ "llvm-ar") (absent : "-o" ∉ before)
    (allowed : origin.Permits F directory output) :
    Obeys (keeping (origin.Confined F D directory))
      (executor.runTool ⟨bin ++ "/" ++ tool, before ++ "-o" :: output :: rest, []⟩) := by
  apply runTool_keeping
  intro path member
  have base : Text.baseName (bin ++ "/" ++ tool) ≠ "llvm-ar" := by
    rw [Text.baseName_append bin clean]
    exact other
  rw [Command.argv, Toolset.outputs_of_named absent base (Setup.tool_notFlag bin tool),
    List.mem_singleton] at member
  rw [member]
  exact allowed

end Executor

namespace Setup

variable {origin : Session} {F D : Location → Prop} {directory : String} {setup : Setup}

theorem fresh_keeping {name suffix : String} (cleanName : '/' ∉ name.toList)
    (cleanSuffix : '/' ∉ suffix.toList) :
    Obeys (keeping (origin.Confined F D directory)) (fresh name suffix) := by
  intro s confined
  have making : (fresh name suffix).after s = (Files.makeTemporaryFile directory name suffix).after s :=
    after_bind_of_ok (RunDirectory.path_of_some confined.runDirectory _)
  rw [making]
  have inside (path drawn : String)
      (same : spot origin.files.here path = spot origin.files.here directory ++ [drawn]) :
      within (spot origin.files.here directory) (spot origin.files.here path) = true := by
    rw [same, within_append]
  refine keeping_of_files (Files.makeTemporaryFile_filesOnly _ _ _) ?_ s confined
  refine Files.makeTemporaryFile_relating confined.sound.here cleanName cleanSuffix
    fun path drawn named fs fs' same done => create_grows done ?_
  rw [same]
  exact .inr (inside path drawn named)

/-- A fresh file lies in the run directory. -/
theorem fresh_inside {name suffix : String} {s t : Session}
    (confined : origin.Confined F D directory s) (cleanName : '/' ∉ name.toList)
    (cleanSuffix : '/' ∉ suffix.toList) (ran : fresh name suffix s = .ok path t) :
    origin.Scratch directory (spot origin.files.here path) ∧ path ≠ "-o" := by
  obtain ⟨advanced, given⟩ := fresh_ok confined.works cleanName cleanSuffix ran
  refine ⟨?_, given.notFlag⟩
  obtain ⟨drawn, there⟩ := given.scratch
  rw [advanced.files.here, confined.here] at there
  exact ⟨drawn, there⟩

/-- Going on from a fresh file with something that keeps the build confined. -/
theorem fresh_bind {name suffix : String} {next : String → Run α} (cleanName : '/' ∉ name.toList)
    (cleanSuffix : '/' ∉ suffix.toList)
    (rest : ∀ path, origin.Scratch directory (spot origin.files.here path) → path ≠ "-o" → Obeys (keeping (origin.Confined F D directory)) (next path)) :
    Obeys (keeping (origin.Confined F D directory)) (fresh name suffix >>= next) := by
  intro s confined
  refine (fresh_keeping cleanName cleanSuffix s).bind (fun path t made => ?_) confined
  obtain ⟨inside, notFlag⟩ := fresh_inside confined cleanName cleanSuffix made
  exact rest path inside notFlag t

theorem hostTool_keeping {tool output : String} {before : List String} (clean : '/' ∉ tool.toList)
    (other : tool ≠ "llvm-ar") (absent : "-o" ∉ before)
    (inside : origin.Scratch directory (spot origin.files.here output)) :
    Obeys (keeping (origin.Confined F D directory))
      (setup.toolchain.hostTool tool (before ++ ["-o", output])) :=
  Executor.named_keeping [] clean other absent (.inr inside)

theorem targetTool_keeping {tool input output : String} {rest : List String}
    (clean : '/' ∉ tool.toList) (other : tool ≠ "llvm-ar") (notFlag : input ≠ "-o")
    (inside : origin.Scratch directory (spot origin.files.here output)) :
    Obeys (keeping (origin.Confined F D directory))
      (setup.toolchain.targetTool tool (input :: "-o" :: output :: rest)) := by
  have path : s!"{setup.toolchain.target}/bin/{tool}" =
      setup.toolchain.target ++ "/bin" ++ "/" ++ tool := by
    rw [← String.toList_inj]
    simp [toString]
  have args : input :: "-o" :: output :: rest = [input] ++ "-o" :: output :: rest := rfl
  rw [Toolchain.targetTool, path, args]
  exact Executor.named_keeping rest clean other (by simpa using Ne.symm notFlag) (.inr inside)

theorem optimizeBitcode_keeping {file : String} (notFlag : file ≠ "-o") :
    Obeys (keeping (origin.Confined F D directory)) (setup.optimizeBitcode file) := by
  refine fresh_bind (by decide) (by decide) fun optimized inside _ => ?_
  have level : setup.optimizationLevel ≠ "-o" := by
    unfold optimizationLevel
    split
    · decide
    · split <;> decide
  have absent : "-o" ∉ [file, setup.optimizationLevel] := by
    simp [Ne.symm notFlag, Ne.symm level]
  exact (hostTool_keeping (by decide) (by decide) absent inside).bind fun _ => obeys_pure _

theorem compileBitcode_keeping {file : String} (named : setup.NamesOutputs) (notFlag : file ≠ "-o") :
    Obeys (keeping (origin.Confined F D directory)) (setup.compileBitcode file) := by
  refine fresh_bind (by decide) (by decide) fun compiled inside _ => ?_
  have flags : "-o" ∉ setup.codeFlags := named
  have absent : "-o" ∉ file :: setup.codeFlags ++ ["-filetype=obj"] := by
    simp [Ne.symm notFlag, flags]
  have args : file :: setup.codeFlags ++ ["-filetype=obj", "-o", compiled] =
      (file :: setup.codeFlags ++ ["-filetype=obj"]) ++ ["-o", compiled] := by simp
  rw [args]
  exact (hostTool_keeping (by decide) (by decide) absent inside).bind fun _ => obeys_pure _

theorem objectOf_keeping {file : String} (named : setup.NamesOutputs) (notFlag : file ≠ "-o") :
    Obeys (keeping (origin.Confined F D directory)) (setup.objectOf file) := by
  intro s confined
  refine (optimizeBitcode_keeping notFlag s).bind (fun optimized t made => ?_) confined
  have given := (optimizeBitcode_ok confined.works notFlag made).2
  exact compileBitcode_keeping named given.notFlag t

theorem wasmOf_keeping {files : List String} (notFlags : "-o" ∉ files) :
    Obeys (keeping (origin.Confined F D directory)) (setup.wasmOf files) := by
  refine fresh_bind (by decide) (by decide) fun bitcode linked notFlag => ?_
  refine (hostTool_keeping (by decide) (by decide) notFlags linked).bind fun _ => ?_
  refine fresh_bind (by decide) (by decide) fun assembly assembled notFlag' => ?_
  refine (targetTool_keeping (by decide) (by decide) notFlag assembled).bind fun _ => ?_
  refine fresh_bind (by decide) (by decide) fun text converted notFlag'' => ?_
  refine (targetTool_keeping (by decide) (by decide) notFlag' converted).bind fun _ => ?_
  refine fresh_bind (by decide) (by decide) fun wasm encoded _ => ?_
  refine fresh_bind (by decide) (by decide) fun map _ _ => ?_
  exact (targetTool_keeping (by decide) (by decide) notFlag'' encoded).bind fun _ => obeys_pure _

theorem objectFiles_keeping {file : String} (named : setup.NamesOutputs) (notFlag : file ≠ "-o") :
    Obeys (keeping (origin.Confined F D directory)) (setup.objectFiles [file]) := by
  unfold objectFiles
  split
  · have notFlags : "-o" ∉ [file] := by simpa using Ne.symm notFlag
    exact (wasmOf_keeping notFlags).bind fun _ => obeys_pure _
  · exact (objectOf_keeping named notFlag).bind fun _ => obeys_pure _

theorem objectsOf_keeping {files : List String} (named : setup.NamesOutputs)
    (notFlags : "-o" ∉ files) :
    Obeys (keeping (origin.Confined F D directory)) (setup.objectsOf files) := by
  induction files with
  | nil => exact obeys_pure _
  | cons file rest ih =>
      simp only [List.mem_cons, not_or] at notFlags
      refine (objectOf_keeping named (Ne.symm notFlags.1)).bind fun _ => ?_
      exact (ih notFlags.2).bind fun _ => obeys_pure _

theorem archivedObjects_keeping {files : List String} (named : setup.NamesOutputs)
    (notFlags : "-o" ∉ files) :
    Obeys (keeping (origin.Confined F D directory)) (setup.archivedObjects files) := by
  unfold archivedObjects
  split
  · exact (wasmOf_keeping notFlags).bind fun _ => obeys_pure _
  · exact objectsOf_keeping named notFlags

/-- An archive is made under its name, if that leads to where the build may write. -/
theorem staticLibrary_keeping {files : List String} {name : String} (named : setup.NamesOutputs)
    (notFlags : "-o" ∉ files) (nonempty : name ≠ "") (notFlag : joinPaths directory name ≠ "-o")
    (allowed : origin.Permits F directory (joinPaths directory name)) :
    Obeys (keeping (origin.Confined F D directory)) (setup.staticLibrary files (some name)) := by
  intro s confined
  refine (archivedObjects_keeping named notFlags s).bind (fun objects t compiled => ?_) confined
  have rooted := (archivedObjects_ok confined.works named notFlags compiled).2
  have absent : "-o" ∉ objects := fun member => absurd (rooted _ member) (by decide)
  have archiver : Text.baseName (setup.toolchain.llvmBin ++ "/" ++ "llvm-ar") = "llvm-ar" :=
    Text.baseName_append _ (by decide)
  intro confined'
  have there : archivePath (some name) t = .ok (joinPaths directory name) t := by
    rw [archivePath_some nonempty, RunDirectory.named_of_some confined'.runDirectory]
  have archiving : (setup.archive objects (some name)).after t =
      (setup.toolchain.hostTool "llvm-ar" (["rcs", joinPaths directory name] ++ objects) >>= fun _ =>
        (pure (joinPaths directory name) : Run String)).after t := after_bind_of_ok there
  rw [archiving]
  have tool : Obeys (keeping (origin.Confined F D directory))
      (setup.toolchain.hostTool "llvm-ar" (["rcs", joinPaths directory name] ++ objects)) := by
    refine Executor.runTool_keeping fun path member => ?_
    have outputs := Toolset.outputs_of_archiver absent archiver (tool_notFlag _ _) notFlag
    have member : path ∈ Toolset.outputs ((setup.toolchain.llvmBin ++ "/" ++ "llvm-ar") ::
      "rcs" :: joinPaths directory name :: objects) := member
    rw [outputs, List.mem_singleton] at member
    rw [member]
    exact allowed
  exact (tool.bind fun _ => obeys_pure _) t confined'

end Setup

end Foundry
