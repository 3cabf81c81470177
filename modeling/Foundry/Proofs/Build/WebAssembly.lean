import Foundry.Proofs.Artifact.Naming
import Foundry.Proofs.Build.Archives
import Foundry.Proofs.Build.Scope
import Foundry.Proofs.FileSystem.Deposit
import Foundry.Proofs.Files.Writable

/-! The link for WebAssembly. The one object is the artifact, and beside it stands a script of the
libraries' scripts: those of the default libraries first, each as often as it is given. Nothing else of
the libraries is used, and what looks like a static library is reported. -/
namespace Foundry

open FileSystem Run

namespace FileSystem

/-- A path that ends in more than dots leads to a name that ends so. -/
theorem getLast?_spot_append (here : Location) (front : String) {tail : String} {c : Char}
    (clean : '/' ∉ tail.toList) (member : c ∈ tail.toList) (notDot : c ≠ '.') :
    (spot here (front ++ tail)).getLast? = some (Text.baseName front ++ tail) := by
  have base : Text.baseName (front ++ tail) = Text.baseName front ++ tail :=
    Text.baseName_append_tail front clean
  have proper : IsName (Text.baseName front ++ tail) := by
    refine .of_mem (c := c) (by simp [member]) notDot ?_
    rw [← base]
    exact Text.not_mem_baseName _
  obtain ⟨before, steps⟩ := List.getLast?_eq_some_iff.mp (Text.getLast?_split (front ++ tail))
  rw [spot, steps, walk_append, base, proper.walk, List.getLast?_concat]

end FileSystem

namespace LinkAction.Pending
variable {p : Pending} {s : Session}

/-- The session in which what has reached the file is there. -/
def showing (p : Pending) (s : Session) : Session :=
  s.writing p.path p.written

/-- More bytes that reach the file take the place of those that have reached it. -/
theorem write_showing (writable : s.files.Writable p.path) (content : Bytes) :
    Files.write p.path content (p.showing s) = .ok () (s.writing p.path content) := by
  have again : (p.showing s).files.Writable p.path := writable.put writable.free _
  rw [Files.write_of_writable again, showing, Session.writing_writing]

/-- A piece is added behind the bytes that there are, whether it waits or reaches the file. -/
theorem add_showing (writable : s.files.Writable p.path) (piece : Bytes) :
    ∃ next, p.add piece (p.showing s) = .ok next (next.showing s) ∧ next.path = p.path ∧
      next.written ++ next.waiting = p.written ++ p.waiting ++ piece := by
  unfold add
  split
  · exact ⟨_, rfl, rfl, (List.append_assoc ..).symm⟩
  · by_cases large : limit < piece.length
    · refine ⟨{ p with written := p.written ++ p.waiting ++ piece, waiting := [] }, ?_, rfl, by simp⟩
      simp only [large, if_true]
      exact bind_eq_ok.mpr ⟨(), _, write_showing writable _, rfl⟩
    · refine ⟨{ p with written := p.written ++ p.waiting, waiting := piece }, ?_, rfl, rfl⟩
      simp only [large, if_false]
      exact bind_eq_ok.mpr ⟨(), _, write_showing writable _, rfl⟩

/-- Files that can be read, and none of which is the one that is written, are added in their order. -/
theorem addFiles_showing {files : List String} {content : String → Bytes}
    (writable : s.files.Writable p.path)
    (readable : ∀ file ∈ files, s.files.Readable (Path.ofText file).text (content file))
    (apart : ∀ file ∈ files, spot s.files.here file ≠ spot s.files.here p.path) :
    p.addFiles files (p.showing s) =
      .ok () (s.writing p.path (p.written ++ p.waiting ++ files.flatMap content)) := by
  induction files generalizing p with
  | nil =>
      rw [List.flatMap_nil, List.append_nil]
      exact write_showing writable _
  | cons file rest ih =>
      have other : spot s.files.here (Path.ofText file).text ≠ spot s.files.here p.path := by
        rw [Path.spot_ofText]
        exact apart file (by simp)
      have again : (p.showing s).files.Readable (Path.ofText file).text (content file) :=
        (readable file (by simp)).put writable.free other _
      obtain ⟨next, added, path, bytes⟩ := add_showing writable (content file)
      have rest := @ih next (path ▸ writable) (fun file member => readable file (by simp [member]))
        (fun file member => path ▸ apart file (by simp [member]))
      refine bind_eq_ok.mpr ⟨_, _, tryCatch_of_ok (Files.read_of_readable again), ?_⟩
      refine bind_eq_ok.mpr ⟨next, _, added, ?_⟩
      rw [rest, bytes, path, List.flatMap_cons, List.append_assoc _ (content file)]

end LinkAction.Pending

namespace LinkAction
variable {s : Session} {object artifact : String} {bytes : Bytes} {content : String → Bytes}

/-- What the scripts of libraries hold, one after another. -/
def scriptsOf (content : String → Bytes) (libraries : List LinkedLibrary) : Bytes :=
  libraries.flatMap fun library => (library.includedPaths.filter isScript).flatMap content

theorem flatMap_scripts (content : String → Bytes) (libraries : List LinkedLibrary) :
    ((libraries.flatMap (·.includedPaths)).filter isScript).flatMap content = scriptsOf content libraries := by
  rw [List.filter_flatMap, List.flatMap_assoc, scriptsOf]

/-- The script of an artifact is its start and what the scripts hold. -/
theorem writeScript_joins {scripts : List String}
    (writable : s.files.Writable (Path.ofText (artifact ++ ".js")).text)
    (readable : ∀ script ∈ scripts, s.files.Readable (Path.ofText script).text (content script))
    (apart : ∀ script ∈ scripts, spot s.files.here script ≠ spot s.files.here (artifact ++ ".js")) :
    writeScript artifact scripts s = .ok (Path.ofText (artifact ++ ".js")).name
      (s.writing (artifact ++ ".js") (Utf8.encode scriptStart ++ scripts.flatMap content)) := by
  let script : Pending := { path := (Path.ofText (artifact ++ ".js")).text }
  have place : spot s.files.here script.path = spot s.files.here (artifact ++ ".js") :=
    Path.spot_ofText ..
  obtain ⟨next, added, path, bytes⟩ :=
    Pending.add_showing (p := script) writable (Utf8.encode scriptStart)
  have joined := Pending.addFiles_showing (p := next) (path ▸ writable) readable
    (fun file member => by rw [path, place]; exact apart file member)
  rw [bytes, path] at joined
  refine bind_eq_ok.mpr ⟨(), _, Files.write_of_writable writable _, bind_eq_ok.mpr ⟨next, _, added,
    bind_eq_ok.mpr ⟨(), _, joined, ?_⟩⟩⟩
  rw [Session.writing, Session.writing, ← place]
  rfl

/-- What ends as a script is never an artifact for WebAssembly. -/
theorem script_ne_artifact {kind : ArtifactKind} (linked : kind = .program ∨ kind = .dynamic)
    (named : Text.endsWith artifact (kind.suffix .wasm32) = true) (script : isScript file = true)
    (here : Location) : spot here file ≠ spot here artifact := by
  obtain ⟨front, rfl⟩ := Text.endsWith_iff.mp script
  obtain ⟨front', rfl⟩ := Text.endsWith_iff.mp named
  obtain ⟨c, member, notDot⟩ := kind.suffix_notDots .wasm32
  have name : (spot here (front ++ ".js")).getLast? = some (Text.baseName front ++ ".js") :=
    getLast?_spot_append here front (c := 'j') (by decide) (by decide) (by decide)
  have name' := getLast?_spot_append here front' (kind.suffix_clean .wasm32) member notDot
  have letter : (kind.suffix .wasm32).toList.getLast? = some 'm' ∨
      (kind.suffix .wasm32).toList.getLast? = some 'o' := by
    rcases linked with rfl | rfl
    · exact .inl rfl
    · exact .inr rfl
  intro same
  rw [same, name'] at name
  have letters := congrArg (·.toList.getLast?) (Option.some.inj name)
  rcases letter with letter | letter <;>
    simp [String.toList_append, List.getLast?_append, letter] at letters

/-- The object that can be read is copied to the artifact, and the scripts that can be read are joined
beside it. -/
theorem copyWithScript_joins {kind : ArtifactKind} {command : Command}
    (linked : kind = .program ∨ kind = .dynamic)
    (named : Text.endsWith artifact (kind.suffix .wasm32) = true)
    (object' : s.files.Readable object bytes)
    (readable : ∀ file ∈ command.libs, isScript file = true →
      s.files.Readable (Path.ofText file).text (content file))
    (apart : ∀ file ∈ command.libs, isScript file = true →
      spot s.files.here file ≠ spot s.files.here (artifact ++ ".js"))
    (copied : s.files.Writable artifact)
    (written : s.files.Writable (Path.ofText (artifact ++ ".js")).text)
    (other : spot s.files.here object ≠ spot s.files.here artifact) (executor : Executor) :
    ∃ output journal, (copyWithScript [object] artifact).carryOut executor command s =
      .ok () (({ s with output, journal }.writing artifact bytes).writing (artifact ++ ".js")
        (Utf8.encode scriptStart ++ (command.libs.filter isScript).flatMap content)) := by
  obtain ⟨output, journal, logged⟩ := executor.logger.log_ok s!"cp {object} {artifact}" s
  let told : Session := { s with output, journal }
  have copying : Files.copy object (.text artifact) told = .ok () (told.writing artifact bytes) :=
    Files.copy_of_writable object' copied other
  let copy := told.writing artifact bytes
  have readable' : ∀ file ∈ command.libs.filter isScript,
      copy.files.Readable (Path.ofText file).text (content file) := fun file member => by
    obtain ⟨member, script⟩ := List.mem_filter.mp member
    refine (readable file member script).put copied.free ?_ bytes
    rw [Path.spot_ofText]
    exact script_ne_artifact linked named script _
  have apart' : ∀ file ∈ command.libs.filter isScript,
      spot copy.files.here file ≠ spot copy.files.here (artifact ++ ".js") := fun file member => by
    obtain ⟨member, script⟩ := List.mem_filter.mp member
    exact apart file member script
  have joining := writeScript_joins (s := copy) (written.put copied.free bytes) readable' apart'
  refine ⟨output, journal, bind_eq_ok.mpr ⟨(), told, logged, bind_eq_ok.mpr ⟨(), _, copying, ?_⟩⟩⟩
  exact bind_eq_ok.mpr ⟨_, _, joining, rfl⟩

end LinkAction

namespace Setup
variable {job : Job} {setup : Setup} {s : Session} {object output home : String} {bytes : Bytes}
  {content : String → Bytes}

/-- For WebAssembly nothing is run. -/
theorem recipe_of_wasm (prepared : job.setup = .ok setup) (target : setup.config.target = .wasm32) :
    setup.platform.recipe = .copy := by
  obtain ⟨config, properties, given, made⟩ := Job.setup_of_ok prepared
  rw [config] at target
  refine (Platform.recipe_of_family made).1.mpr ?_
  rw [Job.target_of_forTarget given, target]
  rfl

/-- A link without a bundle is for the file that is asked for, with the files of the libraries. -/
theorem libraryInputs_unbundled (unbundled : setup.config.produce ≠ .kind .framework)
    (named : setup.config.outputFile = .ok output) (home : String) (objects : List String) (s : Session) :
    ∃ printed journal, setup.libraryInputs home objects s =
      .ok ⟨objects, output, setup.platform.staticLibraries setup.includedFiles, [],
          setup.config.libraries.flatMap (·.linkerOptions), setup.includedFiles⟩
        ({ s with output := printed, journal }.reporting (setup.skippedWarnings setup.includedFiles)) := by
  obtain ⟨printed, journal, logged⟩ := setup.toolchain.logger.log_ok s!"# Compiler root: {home}" s
  have placed : setup.linkOutput { s with output := printed, journal } =
      .ok (output, []) { s with output := printed, journal } := by
    simp only [linkOutput, named]
    exact bind_eq_ok.mpr ⟨output, _, rfl, by rw [if_pos unbundled]; rfl⟩
  exact ⟨printed, journal, libraryInputs_of_place logged placed objects⟩

/-- Where nothing is run, the files of the libraries are all that counts of the command. -/
theorem planLink_copy (copying : setup.platform.recipe = .copy) (objects included : List String)
    (output : String) (archives frameworkFlags libraryFlags : List String) :
    ∃ command : Command, command.libs = included ∧
      setup.planLink ⟨objects, output, archives, frameworkFlags, libraryFlags, included⟩ =
        .ok ⟨output, command, .copyWithScript objects output⟩ := by
  simp only [planLink, linkCommand, Platform.linkCommand, Platform.action, copying]
  exact ⟨_, rfl, rfl⟩

/-- What is reported of the files of the libraries where no static library is of use. -/
theorem skippedWarnings_copy (copying : setup.platform.recipe = .copy) (files : List String) :
    setup.skippedWarnings files =
      (files.filter isArchive).map (Notice.archiveWarning · setup.config.target "link") := by
  simp only [skippedWarnings, skipped, Platform.acceptsArchive_copy copying, Bool.not_false, Bool.and_true]

/-- A link for WebAssembly starts nothing. It leaves the object as the artifact, and beside it the
scripts of the default libraries and then those of the other ones; no other file changes, and each file
that is named like a static library is reported. -/
theorem wasm_link_joins_scripts (prepared : job.setup = .ok setup)
    (target : setup.config.target = .wasm32)
    (linked : setup.config.produce = .kind .program ∨ setup.config.produce = .kind .dynamic)
    (named : setup.config.outputFile = .ok output) (object' : s.files.Readable object bytes)
    (readable : ∀ file ∈ setup.includedFiles, LinkAction.isScript file = true →
      s.files.Readable (Path.ofText file).text (content file))
    (apart : ∀ file ∈ setup.includedFiles, LinkAction.isScript file = true →
      spot s.files.here file ≠ spot s.files.here (output ++ ".js"))
    (copied : s.files.Writable output)
    (written : s.files.Writable (Path.ofText (output ++ ".js")).text)
    (other : spot s.files.here object ≠ spot s.files.here output) :
    ∃ t, setup.linkLibraries home [object] s = .ok (some output) t ∧ t.started = s.started ∧
      t.files.file? (spot s.files.here output) = some bytes ∧
      t.files.file? (spot s.files.here (output ++ ".js")) = some (Utf8.encode LinkAction.scriptStart ++
        LinkAction.scriptsOf content (setup.config.libraries.filter (·.isDefault)) ++
        LinkAction.scriptsOf content (setup.config.libraries.filter (!·.isDefault))) ∧
      (∀ place, place ≠ spot s.files.here output → place ≠ spot s.files.here (output ++ ".js") →
        t.files.entry? place = s.files.entry? place) ∧
      t.report.items = s.report.items ++ (setup.includedFiles.filter isArchive).map
        (Notice.archiveWarning · .wasm32 "link") := by
  have copying := recipe_of_wasm prepared target
  obtain ⟨kind, produce, linked⟩ : ∃ kind, setup.config.produce = .kind kind ∧
      (kind = .program ∨ kind = .dynamic) := by
    rcases linked with produce | produce
    · exact ⟨_, produce, .inl rfl⟩
    · exact ⟨_, produce, .inr rfl⟩
  have suffixed : Text.endsWith output (kind.suffix .wasm32) = true := by
    have settled : kind.fileFor .wasm32 setup.config.outputName = .ok output := by
      rw [← target, ← named, Config.outputFile, produce]
      rcases linked with rfl | rfl <;> rfl
    exact ArtifactKind.endsWith_of_fileFor settled
  have unbundled : setup.config.produce ≠ .kind .framework := by
    rw [produce]
    rcases linked with rfl | rfl <;> decide
  obtain ⟨printed, journal, collected⟩ := libraryInputs_unbundled unbundled named home [object] s
  obtain ⟨command, libs, planned⟩ := planLink_copy copying [object] setup.includedFiles output
    (setup.platform.staticLibraries setup.includedFiles) [] (setup.config.libraries.flatMap (·.linkerOptions))
  rw [← libs] at readable apart
  let collecting := { s with output := printed, journal }.reporting
    (setup.skippedWarnings setup.includedFiles)
  obtain ⟨printed', journal', done⟩ := LinkAction.copyWithScript_joins (s := collecting) linked suffixed
    object' readable apart copied written other setup.toolchain.toExecutor
  have script : spot s.files.here output ≠ spot s.files.here (output ++ ".js") :=
    (LinkAction.script_ne_artifact linked suffixed (Text.endsWith_iff.mpr ⟨_, rfl⟩) _).symm
  have below : spot s.files.here (output ++ ".js") ≠ [] := Path.spot_ofText _ (output ++ ".js") ▸ written.below
  have joined : (command.libs.filter LinkAction.isScript).flatMap content =
      LinkAction.scriptsOf content (setup.config.libraries.filter (·.isDefault)) ++
        LinkAction.scriptsOf content (setup.config.libraries.filter (!·.isDefault)) := by
    rw [libs, includedFiles, List.filter_append, List.flatMap_append]
    simp only [includedPaths, LinkAction.flatMap_scripts, Bool.decide_eq_true, Bool.decide_eq_false]
  refine ⟨_, bind_eq_ok.mpr ⟨_, _, collected, bind_eq_ok.mpr ⟨_, _, ofExcept_eq_ok.mpr ⟨planned, rfl⟩,
    carryOut_of_ok done⟩⟩, rfl, ?_, ?_, fun place elsewhere elsewhere' => ?_, ?_⟩
  · refine (Holds.file?_put below _ _).trans ?_
    rw [if_neg script]
    exact (Holds.file?_put copied.below _ _).trans (if_pos rfl)
  · rw [List.append_assoc, ← joined]
    exact (Holds.file?_put below _ _).trans (if_pos rfl)
  · exact (entry?_put_of_ne _ elsewhere' _).trans (entry?_put_of_ne _ elsewhere _)
  · rw [← target, ← skippedWarnings_copy copying]
    rfl

/-- A program for WebAssembly, with a library of the user before a default one. -/
def ofScripts : Job where
  config := {
    target := .wasm32
    produce := .kind .program
    outputName := "app"
    libraries := [
      { name := "user", includedPaths := ["a.js", "x.a", "a.js"] },
      { name := "runtime", includedPaths := ["b.js", "b.txt"], isDefault := true }] }
  properties := {
    data := [("targets", .table [("wasm32", .table [
      ("target_toolchain", .text "toolchain"), ("target_sysroot", .text "sysroot")])])]
    path := "kiln.toml"
    sources := ["kiln.toml"]
    distribution := { home := "/home", llvmHome := "/llvm" } }

/-- A session with an object and two scripts. -/
def withScripts : Session :=
  { Session.blank with
    files := { entries := [(["main.o"], .file [1, 2]), (["a.js"], .file [3]), (["b.js"], .file [4])] } }

/-- The script of the default library comes first, and the one that is given twice is there twice. -/
theorem scripts_joined_in_order : ∃ setup t, ofScripts.setup = .ok setup ∧
    setup.linkLibraries "/home" ["main.o"] withScripts = .ok (some "app.wasm") t ∧ t.started = [] ∧
    t.files.file? ["app.wasm"] = some [1, 2] ∧
    t.files.file? ["app.wasm.js"] = some (Utf8.encode LinkAction.scriptStart ++ [4, 3, 3]) ∧
    t.report.items = [Notice.archiveWarning "x.a" .wasm32 "link"] := by
  obtain ⟨setup, ready⟩ : ∃ setup, ofScripts.setup = .ok setup := ⟨_, rfl⟩
  have config := (Job.setup_of_ok ready).1
  have included : setup.includedFiles = ["b.js", "b.txt", "a.js", "x.a", "a.js"] := by
    simp only [includedFiles, includedPaths, config]
    decide
  let content : String → Bytes := fun file => if file = "a.js" then [3] else [4]
  have readable : ∀ file ∈ setup.includedFiles, LinkAction.isScript file = true →
      withScripts.files.Readable (Path.ofText file).text (content file) := by
    intro file member script
    have scripts : setup.includedFiles.filter LinkAction.isScript = ["b.js", "a.js", "a.js"] := by
      rw [included]
      decide
    have among := List.mem_filter.mpr ⟨member, script⟩
    rw [scripts] at among
    simp only [List.mem_cons, List.not_mem_nil, or_false, or_self] at among
    rcases among with rfl | rfl
    · exact ⟨rfl, rfl⟩
    · exact ⟨rfl, rfl⟩
  have apart : ∀ file ∈ setup.includedFiles, LinkAction.isScript file = true →
      spot withScripts.files.here file ≠ spot withScripts.files.here "app.wasm.js" := by
    rw [included]
    decide
  obtain ⟨t, linked, started, artifact, script, -, items⟩ :=
    @wasm_link_joins_scripts ofScripts setup withScripts "main.o" "app.wasm" "/home" [1, 2] content
      ready (config ▸ rfl) (config ▸ .inl rfl) (config ▸ rfl) ⟨rfl, rfl⟩ readable apart
      ⟨rfl, ⟨_, _, rfl⟩, by decide⟩ ⟨rfl, ⟨_, _, rfl⟩, by decide⟩ (by decide)
  refine ⟨setup, t, ready, linked, started, artifact, ?_, ?_⟩
  · rw [config, List.append_assoc] at script
    exact script
  · rw [items, included]
    rfl

end Setup

end Foundry
