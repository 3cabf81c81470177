import Foundry.Proofs.Build.FailStop
import Foundry.Proofs.Build.LibraryArchives
import Foundry.Proofs.Library.Publication

/-! The inputs of a library in what is published. Files from four sources are filed under the last
names of their paths in two directories, so all of them are there exactly if those names differ. -/
namespace Foundry

open FileSystem Run LibraryWriter

namespace Job

/-- What a library is built from lies outside of every directory that the build itself makes, and
nothing that a tool is given looks like the flag for its output. -/
structure MakesLibrary (job : Job) (s : Session) : Prop where
  library : job.config.produce = .kind .library
  fresh : s.runDirectory = none
  sound : s.files.Sound
  outside : ∀ path ∈ job.config.nativeLibraries ++ job.config.includedBinaries, OutsideRuns s path
  notFlags : "-o" ∉ job.config.nativeLibraries
  named : ∀ setup, job.setup = .ok setup → setup.NamesOutputs

/-- The names in the manifest of the native bitcode. -/
def nativeNames (job : Job) : List String := job.config.nativeLibraries.map nameOf

/-- The names of the archives that are made for a library. -/
def archiveNames (job : Job) : List String :=
  (job.config.nativeLibraries.map Text.baseName ++ [Text.baseName job.config.moduleName]).map
    (· ++ ".a")

/-- What a published library holds of its inputs: a file for each native bitcode file, under its
name in the manifest, and a file for each binary and each archive, under whatever name. -/
structure KeepsInputs (job : Job) (held : Location → Option Bytes) (natives binaries : List Bytes) :
    Prop where
  native : OneFileEach (fun name => held ["targets", job.config.target.name, "native", name])
    job.nativeNames natives
  included : ∃ names,
    OneFileEach (fun name => held ["targets", job.config.target.name, "included", name]) names binaries

/-- Where native bitcode is laid out in a run directory. -/
def nativePlace (job : Job) (here : Location) (directory : String) : Location :=
  spot here ((Path.ofText (joinPaths directory "library")).child
    (Path.ofText (Text.dropTail job.config.outputName librarySuffix)).name).text ++
      ["targets", job.config.target.name, "native"]

/-- No two inputs are filed under one name, and the archive of the module is not made among the
native bitcode, unless it is the same as the file there. -/
structure FilesApart (job : Job) (here : Location) (directory : String) (natives : List Bytes)
    (archives : List (String × Bytes)) : Prop where
  nativeNames : job.nativeNames.Nodup
  includedNames : (job.config.includedBinaries.map nameOf ++ job.archiveNames).Nodup
  moduleArchive : ∀ name content,
    spot here (joinPaths directory (job.config.moduleName ++ ".a")) =
        job.nativePlace here directory ++ [name] →
      (archives.map (·.2)).getLast? = some content → (name, content) ∈ job.nativeNames.zip natives

variable {job : Job} {s t : Session} {here : Location}

theorem producer_library (library : job.config.produce = .kind .library) :
    job.producer = .ok .library := by
  simp [producer, library]

theorem outputFile_library (library : job.config.produce = .kind .library) :
    job.config.outputFile = .ok job.config.outputName := by
  simp [Config.outputFile, library]

theorem filed_names {archives : List (String × Bytes)}
    (paths : archives.map (·.1) =
      (job.config.nativeLibraries.map Text.baseName ++ [job.config.moduleName]).map
        fun stem => joinPaths directory (stem ++ ".a")) :
    (archives.map filed).map (·.1) = job.archiveNames := by
  have whole : (archives.map filed).map (·.1) = (archives.map (·.1)).map Text.baseName := by
    simp [filed]
  have base (path : String) : Text.baseName (Text.baseName path) = Text.baseName path :=
    Text.baseName_of_not_mem (Text.not_mem_baseName path)
  rw [whole, paths]
  simp [archiveNames, baseName_archive, base]

theorem Holding.length {fs : FileSystem} {paths : List String} {contents : List Bytes}
    (holding : Holding fs paths contents) : paths.length = contents.length := by
  simpa using congrArg List.length holding

theorem place_native {w : LibraryWriter} {output : String} (here : Location)
    (begun : w.BegunAs output (joinPaths directory "library") job.config.target job.config.unpacked)
    (same : output = job.config.outputName) :
    w.place here ++ w.nativeSteps = job.nativePlace here directory := by
  rw [place, root, begun.staging, begun.output, nativeSteps, targetSteps, begun.target, same]
  rfl

/-- All inputs are held exactly if they were put under different names. -/
theorem keepsInputs_iff {held : Location → Option Bytes} {natives included : List Bytes}
    {strays archives : List (String × Bytes)}
    (nativeSources : Holding fs job.config.nativeLibraries natives)
    (includedSources : Holding fs job.config.includedBinaries included)
    (native : ∀ name, held ["targets", job.config.target.name, "native", name] =
      lastOf (job.nativeNames.zip natives ++ strays) name)
    (other : ∀ name, held ["targets", job.config.target.name, "included", name] =
      lastOf ((job.config.includedBinaries.map nameOf).zip included ++ archives.map filed) name)
    (few : strays.length ≤ 1) (names : (archives.map filed).map (·.1) = job.archiveNames) :
    job.KeepsInputs held natives (included ++ archives.map (·.2)) ↔
      job.nativeNames.Nodup ∧ (∀ stray ∈ strays, stray ∈ job.nativeNames.zip natives) ∧
        (job.config.includedBinaries.map nameOf ++ job.archiveNames).Nodup := by
  have nativeLength : job.nativeNames.length = natives.length := by
    simpa [nativeNames] using nativeSources.length
  have includedLength : (job.config.includedBinaries.map nameOf).length = included.length := by
    simpa using includedSources.length
  have nativeIff := oneFileEach_stray_iff native few
  rw [List.map_fst_zip (Nat.le_of_eq nativeLength),
    List.map_snd_zip (Nat.le_of_eq nativeLength.symm)] at nativeIff
  have includedIff := exists_oneFileEach_iff other
  rw [List.map_append, List.map_append, names, List.map_fst_zip (Nat.le_of_eq includedLength),
    List.map_snd_zip (Nat.le_of_eq includedLength.symm), List.map_map] at includedIff
  constructor
  · rintro ⟨first, second⟩
    obtain ⟨distinct, member⟩ := nativeIff.mp first
    exact ⟨distinct, member, includedIff.mp second⟩
  · rintro ⟨distinct, member, distinct'⟩
    exact ⟨nativeIff.mpr ⟨distinct, member⟩, includedIff.mpr distinct'⟩

/-- Native bitcode is laid out three steps below the run directory at least. -/
theorem length_nativePlace (job : Job) (here : Location) (directory : String) :
    (spot here directory).length + 3 ≤ (job.nativePlace here directory).length := by
  let w : LibraryWriter := {
    output := .ofText (Text.dropTail job.config.outputName librarySuffix), name := ""
    target := job.config.target, abiVersion := 0, unpacked := job.config.unpacked
    ownsStaging := false, staging := .ofText (joinPaths directory "library") }
  have begun : w.BegunAs job.config.outputName (joinPaths directory "library") job.config.target
    job.config.unpacked := ⟨rfl, rfl, rfl, rfl, rfl⟩
  have staged := begun.stagedAt here
  have same : w.place here ++ w.nativeSteps = job.nativePlace here directory :=
    place_native here begun rfl
  rw [← same, List.length_append]
  exact Nat.add_le_add_right staged.length_place 3

/-- The archive of a module whose name has no slash is made in the run directory itself. -/
theorem filesApart_iff (plain : '/' ∉ job.config.moduleName.toList) :
    job.FilesApart here directory natives archives ↔ job.nativeNames.Nodup ∧
      (job.config.includedBinaries.map nameOf ++ job.archiveNames).Nodup := by
  constructor
  · exact fun apart => ⟨apart.nativeNames, apart.includedNames⟩
  · rintro ⟨distinct, distinct'⟩
    refine ⟨distinct, distinct', fun name content into _ => ?_⟩
    have proper := archiveName job.config.moduleName
    rw [Text.baseName_of_not_mem plain] at proper
    rw [spot_joinPaths_name _ _ proper] at into
    have deep := length_nativePlace job here directory
    have length := congrArg List.length into
    simp only [List.length_append, List.length_cons, List.length_nil] at length
    omega

/-- What lies outside of the directory for temporary files lies outside of the run directories. -/
theorem outsideRuns_of_temporary
    (outside : within (spot s.files.here s.host.temporary) (spot s.files.here path) = false) :
    OutsideRuns s path := by
  intro number
  rw [RunDirectory.spot_new_build]
  exact within_false (within_append _ _) outside

/-- What was filled in from a build holds all inputs exactly if no two of them were filed under one
name. -/
theorem Filled.keepsInputs_iff {held : Location → Option Bytes} {w : LibraryWriter}
    {natives included : List Bytes} {strays : List (String × Bytes)}
    (filled : job.Filled s t directory w natives included strays)
    (begun : w.BegunAs job.config.outputName (joinPaths directory "library") job.config.target
      job.config.unpacked)
    (native : ∀ name, held (w.nativeSteps ++ [name]) =
      lastOf ((job.config.nativeLibraries.map nameOf).zip natives ++ strays) name)
    (other : ∀ name, held (w.includedSteps ++ [name]) =
      lastOf ((job.config.includedBinaries.map nameOf).zip included ++ (s.archivesSince t).map filed)
        name) :
    job.KeepsInputs held natives (included ++ (s.archivesSince t).map (·.2)) ↔
      job.FilesApart s.files.here directory natives (s.archivesSince t) := by
  rw [nativeSteps, targetSteps, begun.target] at native
  rw [includedSteps, targetSteps, begun.target] at other
  rw [Job.keepsInputs_iff filled.nativeSources filled.includedSources native other filled.few
    (filed_names filled.archives)]
  have stray := filled.stray
  rw [place_native s.files.here begun rfl] at stray
  constructor
  · rintro ⟨distinct, inside, distinct'⟩
    exact ⟨distinct, distinct', fun name content into last =>
      inside _ ((stray name content).mpr ⟨into, last⟩)⟩
  · rintro ⟨distinct, distinct', inside⟩
    refine ⟨distinct, ?_, distinct'⟩
    rintro ⟨name, content⟩ member
    obtain ⟨into, last⟩ := (stray name content).mp member
    exact inside name content into last

/-- A library that was published holds all its inputs exactly if no two of them are filed under one
name. -/
theorem produce_keeps_inputs_iff (makes : job.MakesLibrary s) (outside : OutsideRuns s path)
    (ran : job.produce s = .ok (some path) t) :
    ∃ number place held natives included manifest table,
      let directory := RunDirectory.new s.host RunDirectory.buildStem number
      let library := (Path.ofText (Text.dropTail job.config.outputName librarySuffix)).name
      (place = spot s.files.here path ∨ job.config.unpacked = false ∧
        t.files.entry? (spot s.files.here path) = some .directory ∧
        place = spot s.files.here path ++ [library ++ librarySuffix]) ∧
      Published t.files place held job.config.unpacked ∧
      Holding s.files job.config.nativeLibraries natives ∧
      Holding s.files job.config.includedBinaries included ∧
      (s.archivesSince t).map (·.1) =
        (job.config.nativeLibraries.map Text.baseName ++ [job.config.moduleName]).map
          (fun stem => joinPaths directory (stem ++ ".a")) ∧
      held [manifestName] = some manifest ∧ MessagePack.pack (.table table) = .ok manifest ∧
      table.lookup "native_targets" = some (.array (job.nativeNames.map .text)) ∧
      (job.KeepsInputs held natives (included ++ (s.archivesSince t).map (·.2)) ↔
        job.FilesApart s.files.here directory natives (s.archivesSince t)) := by
  rw [produce_of_way (producer_library makes.library)] at ran
  obtain ⟨t₁, producing, removing⟩ := ensuring_ok ran
  obtain ⟨number, w, natives, included, strays, m, published, filled, committing, same⟩ :=
    produceLibrary_ok makes.named makes.notFlags makes.sound makes.fresh makes.outside producing
  obtain rfl := Option.some.inj same
  obtain ⟨output, found, begun⟩ := filled.begun
  rw [outputFile_library makes.library] at found
  obtain rfl := Except.ok.inj found
  have here := filled.proceeds.here
  have staged : w.StagedAt m.files.here
      (spot s.files.here (RunDirectory.new s.host RunDirectory.buildStem number)) := by
    rw [here]
    exact filled.staged
  have apart : within (spot s.files.here (RunDirectory.new s.host RunDirectory.buildStem number))
      (spot m.files.here published.text) = false := by
    rw [here]
    exact outside number
  obtain ⟨place, held, manifest, reached, published', here', stable, packed, written, native, other⟩ :=
    commit_ok staged filled.proceeds.works.sound filled.laid begun.staged apart committing
  have kept := ((commit_filesOnly w).obeys m).of_ok committing
  have there : t₁.runDirectory = some (RunDirectory.new s.host RunDirectory.buildStem number) := by
    rw [kept.1]
    exact filled.proceeds.works.runDirectory
  -- after the library was published only the run directory is removed, which lies elsewhere
  have removed := RunDirectory.remove_within there removing
  rw [here', here] at removed
  have started : t.started = m.started := by
    rw [(RunDirectory.remove_toolless t₁).of_ok removing |>.2.1, kept.1]
  have archives : s.archivesSince t = s.archivesSince m := by
    rw [Session.archivesSince, Session.archivesSince, started]
  rw [here] at reached
  rw [begun.unpacked] at reached published' stable
  rw [begun.output] at reached
  refine ⟨number, place, held, natives, included, manifest, w.manifest, ?_, ?_, filled.nativeSources,
    filled.includedSources, ?_, written, packed, ?_, ?_⟩
  · rcases reached with same | ⟨packed, directory, same⟩
    · exact .inl same
    · exact .inr ⟨packed, (removed.kept _ (outside number)).trans directory, same⟩
  · exact published'.congr fun steps all => removed.kept _ (stable steps all)
  · rw [archives]
    exact filled.archives
  · simp [LibraryWriter.manifest, List.lookup_cons, filled.nativeTargets, nativeNames]
  · rw [archives]
    exact Filled.keepsInputs_iff filled begun native other

section SameNames

/-- A library with native bitcode and binaries. -/
def ofLibraries (natives binaries : List String) : Job where
  config := {
    target := .linuxX64
    produce := .kind .library
    outputName := "lib"
    unpacked := true
    nativeLibraries := natives
    includedBinaries := binaries }
  properties := {
    data := [("targets", .table [("linux_x64", .table [
      ("target_toolchain", .text "toolchain"), ("target_sysroot", .text "sysroot"),
      ("lib_gcc", .text "gcc")])])]
    path := "kiln.toml"
    sources := ["kiln.toml"]
    distribution := { home := "/home", llvmHome := "/llvm" } }

/-- A session with two files of one name. -/
def withSameNames : Session :=
  { Session.blank with
    files := { entries := [(["tmp"], .directory), (["a"], .directory), (["b"], .directory),
      (["a", "x"], .file [1]), (["b", "x"], .file [2])] } }

theorem makesLibrary_ofLibraries : (ofLibraries ["a/x"] ["b/x"]).MakesLibrary withSameNames := by
  refine ⟨rfl, rfl, Sound.of_entries (by decide) (by decide), fun path member => ?_, by decide,
    fun setup ready => ?_⟩
  · apply outsideRuns_of_temporary
    revert path
    decide
  · have flags : (ofLibraries ["a/x"] ["b/x"]).setup.map (·.codeFlags) = .ok [] := by decide +kernel
    rw [ready] at flags
    have none : setup.codeFlags = [] := Except.ok.inj flags
    rw [Setup.NamesOutputs, none]
    decide

theorem runs_ofLibraries :
    (ofLibraries ["a/x"] ["b/x"]).produce.outcome? (fun _ => ()) withSameNames =
      some (some "lib", ()) := by
  decide +kernel

/-- Files of one name are kept where one is native bitcode and the other one a binary. -/
theorem keeps_inputs_of_two_kinds :
    let job := ofLibraries ["a/x"] ["b/x"]
    job.MakesLibrary withSameNames ∧ OutsideRuns withSameNames "lib" ∧
      ∃ t held product product', job.produce withSameNames = .ok (some "lib") t ∧
        Published t.files ["lib"] held true ∧
        job.KeepsInputs held [[1]] [[2], product, product'] := by
  intro job
  have makes := makesLibrary_ofLibraries
  have outside : OutsideRuns withSameNames "lib" := outsideRuns_of_temporary (by decide)
  obtain ⟨t, ran, -⟩ := outcome?_eq_some.mp runs_ofLibraries
  obtain ⟨number, place, held, natives, included, manifest, table, reached, published, sources, sources',
    archives, -, -, -, keeps⟩ := produce_keeps_inputs_iff makes outside ran
  have natives₁ : natives = [[1]] := by
    have same : natives.map some = [some [1]] := sources.symm.trans (by decide +kernel)
    simpa [List.map_eq_cons_iff] using same
  have included₁ : included = [[2]] := by
    have same : included.map some = [some [2]] := sources'.symm.trans (by decide +kernel)
    simpa [List.map_eq_cons_iff] using same
  have count : (withSameNames.archivesSince t).length = 2 := by
    simpa [ofLibraries] using congrArg List.length archives
  obtain ⟨first, second, made⟩ := List.length_eq_two.mp count
  have there : place = ["lib"] := by
    rcases reached with same | ⟨packed, -⟩
    · exact same.trans (by decide +kernel)
    · exact absurd packed (by decide)
  rw [natives₁, included₁, made] at keeps
  refine ⟨makes, outside, t, held, first.2, second.2, ran, there ▸ published, keeps.mpr ?_⟩
  exact (filesApart_iff (by decide)).mpr ⟨by decide +kernel, by decide +kernel⟩

theorem runs_ofSameNames :
    (ofLibraries ["a/x", "b/x"] []).produce.outcome?
      (fun t => t.files.names ["lib", "targets", "linux_x64", "native"]) withSameNames =
      some (some "lib", ["x"]) := by
  decide +kernel

/-- Of two native bitcode files of one name, only one is in the library. -/
theorem native_bitcode_lost :
    ∃ t, (ofLibraries ["a/x", "b/x"] []).produce withSameNames = .ok (some "lib") t ∧
      ¬ ∃ names, OneFileEach
        (fun name => t.files.file? ["lib", "targets", "linux_x64", "native", name]) names
        [[1], [2]] := by
  obtain ⟨t, ran, only⟩ := outcome?_eq_some.mp runs_ofSameNames
  refine ⟨t, ran, ?_⟩
  rintro ⟨names, each⟩
  have single {name : String} {content : Bytes}
      (held : t.files.file? ["lib", "targets", "linux_x64", "native", name] = some content) :
      name = "x" := by
    have stands := Option.isSome_of_eq_some (file?_eq_some.mp held)
    have member : name ∈ t.files.names ["lib", "targets", "linux_x64", "native"] := mem_names.mpr stands
    simpa [only] using member
  obtain ⟨first, second, rfl⟩ := List.length_eq_two.mp each.length
  have distinct : first ≠ second := by simpa using each.distinct
  have held := each.held first
  have held' := each.held second
  have other : (second == first) = false := by simpa using distinct.symm
  simp only [List.zip_cons_cons, List.lookup_cons, beq_self_eq_true, other] at held held'
  exact distinct ((single held).trans (single held').symm)

end SameNames

end Job

end Foundry
