import Foundry.Proofs.Build.LinkCommand
import Foundry.Proofs.Files.Frame
import Foundry.Proofs.Files.Temporary

/-! Where the library of a framework is linked. The linker, the tool that extracts debug symbols and
whoever asked for the framework are given one and the same file. Its text is the directory of the bundle
and behind it what the library calls itself, and the directories to it are there before anything is
started. -/
namespace Foundry

open FileSystem Run

namespace Setup
variable {job : Job} {setup : Setup} {s t : Session} {file output : String}

/-- The directories in a framework's bundle to its library. -/
def bundleDirectories (target : Target) : List String :=
  if target = .macosX64 then ["Versions", "A"] else []

theorem frameworkPlace_apple (apple : target.family = .apple) (name : String) :
    frameworkPlace target name = .ok (String.intercalate "/" (bundleDirectories target ++ [name])) := by
  have versions : s!"Versions/A/{name}" = String.intercalate "/" ["Versions", "A", name] := by
    rw [← String.toList_inj]
    simp [toString]
  cases target with
  | macosX64 =>
      rw [frameworkPlace, versions]
      rfl
  | iosArm64 | iosX64 => simp [frameworkPlace, bundleDirectories]
  | _ => cases apple

theorem bundleDirectories_proper (target : Target) : Proper (bundleDirectories target) := by
  unfold bundleDirectories
  split <;> decide

/-- What is left of a part of a path without the suffix of frameworks names something only if the part
does. -/
theorem isName_of_bundle {part : String} (clean : '/' ∉ part.toList)
    (proper : IsName (Text.dropTail part frameworkSuffix)) : IsName part := by
  refine ⟨?_, ?_, ?_, clean⟩
  · rintro rfl
    exact proper.nonempty (by decide)
  · rintro rfl
    exact proper.notSelf (by decide)
  · rintro rfl
    exact proper.notAbove (by decide)

/-- What is inside of a bundle has one absolute path: below the directory that holds the bundle. -/
theorem absolute_inside {inside : List String} (bundle : IsName (Path.ofText file).name)
    (steps : Proper inside) (whole : Proper s.files.here) :
    ∃ directory output, Files.absolute (Path.ofText file).parent s = .ok directory s ∧
      Files.absolute ⟨(Path.ofText file).anchor, (Path.ofText file).parts ++ inside⟩ s =
        .ok output s ∧
      output.text = joinPaths directory.text
        (String.intercalate "/" ((Path.ofText file).name :: inside)) ∧
      spot s.files.here output.text = spot s.files.here file ++ inside := by
  have clean := Path.ofText_clean file
  have parts : (Path.ofText file).parts = (Path.ofText file).parent.parts ++ [(Path.ofText file).name] :=
    Path.parts_of_named bundle.nonempty
  have ofBundle : Proper ((Path.ofText file).name :: inside) := by
    simpa [Proper, bundle] using steps
  obtain ⟨output, found, text⟩ := Files.absolute_append whole ((Path.parent_begins _).clean clean) ofBundle
    (by simp) rfl
  have sameLibrary : Path.mk (Path.ofText file).parent.anchor ((Path.ofText file).parent.parts ++
      (Path.ofText file).name :: inside) = ⟨(Path.ofText file).anchor, (Path.ofText file).parts ++ inside⟩ := by
    rw [parts, List.append_assoc]
    rfl
  rw [sameLibrary] at found
  refine ⟨_, output, rfl, found, text, ?_⟩
  have there := (Files.absolute_spot whole (Path.append_clean clean steps) found).1
  rw [there, Path.spot_append_names _ clean steps, Path.spot_ofText]

/-- Once the directories of the bundle are made, the library of a framework has its place. -/
theorem linkOutput_framework (apple : setup.config.target.family = .apple)
    (framework : setup.config.produce = .kind .framework) (named : setup.config.outputFile = .ok file)
    (proper : IsName (Text.dropTail (Path.ofText file).name frameworkSuffix)) (whole : Proper s.files.here)
    (made : Files.makeDirectories ⟨(Path.ofText file).anchor,
      (Path.ofText file).parts ++ bundleDirectories setup.config.target⟩ s = .ok () t) :
    let inside := bundleDirectories setup.config.target ++
      [Text.dropTail (Path.ofText file).name frameworkSuffix]
    let installed := String.intercalate "/" ((Path.ofText file).name :: inside)
    ∃ directory output, Files.absolute (Path.ofText file).parent s = .ok directory s ∧
      setup.linkOutput s = .ok (output, ["-install_name", "@rpath/" ++ installed]) t ∧
      output = joinPaths directory.text installed ∧
      spot s.files.here output = spot s.files.here file ++ inside ∧
      t.files.entry? (spot s.files.here file ++ bundleDirectories setup.config.target) = some .directory := by
  intro inside installed
  have clean := Path.ofText_clean file
  have bundle : IsName (Path.ofText file).name := isName_of_bundle (Path.name_clean clean).1 proper
  have steps : Proper inside := by
    simp only [inside, Proper, List.mem_append, List.mem_singleton]
    rintro step (above | rfl)
    · exact bundleDirectories_proper _ _ above
    · exact proper
  have library : (Path.ofText file).child (String.intercalate "/" inside) =
      ⟨(Path.ofText file).anchor, (Path.ofText file).parts ++ inside⟩ :=
    Path.child_names steps (by simp [inside])
  have above : (Path.mk (Path.ofText file).anchor ((Path.ofText file).parts ++ inside)).parent =
      ⟨(Path.ofText file).anchor, (Path.ofText file).parts ++ bundleDirectories setup.config.target⟩ := by
    simp [Path.parent, inside, ← List.append_assoc]
  have grown := (Files.makeDirectories_extending (Z := fun _ => False) _ s).of_ok made rfl
  obtain ⟨directory, output, holding, found, text, there⟩ := absolute_inside bundle steps whole
  refine ⟨directory, output.text, holding, ?_, text, there, ?_⟩
  · refine bind_eq_ok.mpr ⟨file, s, ofExcept_eq_ok.mpr ⟨named, rfl⟩, ?_⟩
    rw [if_neg (not_not_intro framework)]
    refine bind_eq_ok.mpr ⟨_, s, ofExcept_eq_ok.mpr ⟨frameworkPlace_apple apple _, rfl⟩, ?_⟩
    rw [library, above]
    refine bind_eq_ok.mpr ⟨(), t, made, bind_eq_ok.mpr ⟨output, t, Files.absolute_of_here grown.here found, ?_⟩⟩
    let place := String.intercalate "/" inside
    have joined : installed = (Path.ofText file).name ++ "/" ++ place :=
      String.intercalate_cons_of_ne_nil (by simp [inside])
    have value : s!"@rpath/{(Path.ofText file).name}/{place}" = "@rpath/" ++ installed := by
      rw [joined, ← String.toList_inj]
      simp [toString]
    rw [← value]
    rfl
  · have stands := Files.ensureDirectories_ok made
    rwa [Path.spot_append_names _ clean (bundleDirectories_proper _), Path.spot_ofText] at stands

/-- A build logs to the output if it logs at all. -/
theorem logger_ok (ready : job.setup = .ok setup) (line : String) (s : Session) :
    ∃ printed, setup.toolchain.logger.log line s = .ok () { s with output := printed } := by
  obtain ⟨properties, -, rest⟩ := except_bind_eq_ok.mp ready
  obtain ⟨platform, -, rest⟩ := except_bind_eq_ok.mp rest
  cases rest
  unfold Job.logger
  split
  · exact ⟨_, rfl⟩
  · exact ⟨s.output, rfl⟩

/-- The tools of Apple's systems. -/
theorem recipe_of_apple (ready : job.setup = .ok setup) (apple : setup.config.target.family = .apple) :
    ∃ libLto, setup.platform.recipe = .apple s!"{job.properties.distribution.llvmBin}/llvm-dsymutil" libLto := by
  obtain ⟨config, properties, given, made⟩ := Job.setup_of_ok ready
  obtain ⟨-, -, chosen⟩ := Platform.ofProperties_of_ok made
  obtain ⟨table, -, rest⟩ := except_bind_eq_ok.mp given
  obtain rfl := except_pure_eq_ok.mp rest
  rw [config] at apple
  simp only [Platform.recipeFor, apple] at chosen
  exact ⟨_, (except_pure_eq_ok.mp chosen).symm⟩

/-- How a link goes on from the session `mid` once the artifact has its place: a property of the platform is
missing, so that nothing is started, or the linker is started in that session, and after it the tool that
extracts debug symbols from the artifact. -/
inductive LinksFrom (setup : Setup) (dsymutil tool : String) (frame : LinkFrame) (home : String)
    (objects : List String) (output : String) (flags : List String) (s mid : Session) : Prop where
  | unset (missing) : setup.platform.unsetLate? = some missing →
      setup.linkLibraries home objects s =
        .error (.fault (.missingProperty missing setup.config.target)) mid →
      LinksFrom setup dsymutil tool frame home objects output flags s mid
  | ran (plan artifact t) : setup.platform.unsetLate? = none →
      setup.linkLibraries home objects s = setup.carryOut plan mid →
      setup.carryOut plan mid = .ok artifact t →
      plan.command.argv = tool :: (frame.args objects output ++ setup.appended flags) →
      t.started.map (·.argv) = s.started.map (·.argv) ++ plan.command.argv ::
        (if setup.config.debug = true ∧ (s.outcome plan.command.argv).exitCode = 0 then
          [[dsymutil, output]] else []) →
      (artifact = some output ∧ (∀ p ∈ s.processesSince t, p.exitCode = 0) ∨
        artifact = none ∧ ∃ p ∈ s.processesSince t, p.exitCode ≠ 0) →
      LinksFrom setup dsymutil tool frame home objects output flags s mid

/-- A link for which everything is collected goes on so. -/
theorem linksFrom_of_inputs (ready : job.setup = .ok setup)
    (recipe : setup.platform.recipe = .apple dsymutil libLto)
    (framed : setup.platform.Frames setup.switches
      (setup.platform.staticLibraries setup.includedFiles) tool frame)
    (collected : setup.libraryInputs home objects s = .ok ⟨objects, output,
      setup.platform.staticLibraries setup.includedFiles, flags,
      setup.config.libraries.flatMap (·.linkerOptions), setup.includedFiles⟩ mid)
    (started : mid.started = s.started) (host : mid.host = s.host) :
    setup.LinksFrom dsymutil tool frame home objects output flags s mid := by
  have config := (Job.setup_of_ok ready).1
  have linked : setup.platform.recipe ≠ .copy := by
    rw [recipe]
    nofun
  generalize inputs' : LinkInputs.mk _ _ _ _ _ _ = inputs at collected
  cases planned : setup.planLink inputs with
  | error e =>
      obtain ⟨missing, unset, rfl⟩ := (Job.planLink_error_iff ready inputs).mp planned
      refine .unset missing unset (bind_eq_error.mpr (.inr ⟨inputs, mid, collected, ?_⟩))
      exact bind_eq_error.mpr (.inl (ofExcept_eq_error.mpr ⟨config ▸ planned, rfl⟩))
  | ok plan =>
      have unset : setup.platform.unsetLate? = none := by
        rw [Option.eq_none_iff_forall_ne_some]
        intro missing unset
        have failed := (Job.planLink_error_iff ready inputs).mpr ⟨missing, unset, rfl⟩
        rw [planned] at failed
        nomatch failed
      subst inputs'
      obtain ⟨made, -⟩ := planLink_of_ok planned
      have argv := linkCommand_argv framed rfl made
      obtain ⟨artifact, t, carried, starts, ends⟩ := carryOut_linked linked planned mid
      have since : mid.processesSince t = s.processesSince t := by
        simp only [Session.processesSince, started, host]
      have outcome : mid.outcome plan.command.argv = s.outcome plan.command.argv := by
        simp only [Session.outcome, started, host]
      rw [started, outcome] at starts
      rw [since] at ends
      simp only [extracts, recipe] at starts
      refine .ran plan artifact t unset ?_ carried argv starts ends
      rw [linkLibraries, bind_of_ok collected, finishLink, planned]
      rfl

/-- The library of a framework is linked into its bundle: flat on iOS, among the versions on macOS. Its text
is the absolute directory of the bundle and behind it what the library is told to be installed as. When the
linker is started the directories to the library are there; and it is the one file that the linker is told
to write, that debug symbols are extracted from and that is given back. -/
theorem framework_linked_into_bundle (ready : job.setup = .ok setup)
    (apple : setup.config.target.family = .apple) (framework : setup.config.produce = .kind .framework)
    (named : setup.config.outputFile = .ok file)
    (nonempty : Text.dropTail (Path.ofText file).name frameworkSuffix ≠ "")
    (notSelf : Text.dropTail (Path.ofText file).name frameworkSuffix ≠ ".")
    (notAbove : Text.dropTail (Path.ofText file).name frameworkSuffix ≠ "..")
    (whole : Proper s.files.here)
    (unblocked : Files.makeDirectories ⟨(Path.ofText file).anchor,
      (Path.ofText file).parts ++ bundleDirectories setup.config.target⟩ s = .ok () made)
    (home : String) (objects : List String) :
    let inside := bundleDirectories setup.config.target ++
      [Text.dropTail (Path.ofText file).name frameworkSuffix]
    let installed := String.intercalate "/" ((Path.ofText file).name :: inside)
    ∃ tool frame directory output mid,
      setup.platform.linker? = some tool ∧
      Files.absolute (Path.ofText file).parent s = .ok directory s ∧
      output = joinPaths directory.text installed ∧
      spot s.files.here output = spot s.files.here file ++ inside ∧
      mid.started = s.started ∧
      mid.files.entry? (spot s.files.here file ++ bundleDirectories setup.config.target) =
        some .directory ∧
      setup.LinksFrom s!"{job.properties.distribution.llvmBin}/llvm-dsymutil" tool frame home objects output
        ["-install_name", "@rpath/" ++ installed] s mid := by
  intro inside installed
  have clean := (Path.name_clean (Path.ofText_clean file)).1
  have proper : IsName (Text.dropTail (Path.ofText file).name frameworkSuffix) :=
    ⟨nonempty, notSelf, notAbove, Text.dropTail_clean clean⟩
  obtain ⟨libLto, recipe⟩ := recipe_of_apple ready apple
  obtain ⟨tool, frame, framed⟩ := setup.platform.apple_framed setup.switches
    (setup.platform.staticLibraries setup.includedFiles) recipe
  obtain ⟨printed, logged⟩ := logger_ok ready s!"# Compiler root: {home}" s
  let told : Session := { s with output := printed }
  -- What the log prints does not matter to the directories.
  have same : s.unprinted = told.unprinted := rfl
  obtain ⟨made', created, -⟩ := (Files.makeDirectories_filesOnly _).steady.of_ok same unblocked
  obtain ⟨directory, output, found, placed, text, there, stands⟩ :=
    linkOutput_framework (s := told) apple framework named proper whole created
  have collected := libraryInputs_of_place logged placed objects
  have still := (((Files.makeDirectories_filesOnly _).obeys told).of_ok created).1
  have started : made'.started = s.started := by rw [still]
  have host : made'.host = s.host := by rw [still]
  exact ⟨tool, frame, directory, output, made'.reporting (setup.skippedWarnings setup.includedFiles),
    framed.1, Files.absolute_of_here (s := told) rfl found, text, there, started, stands,
    linksFrom_of_inputs ready recipe framed collected started host⟩

/-- A framework for macOS with debug symbols, whose name goes up and down again. -/
def ofNestedName : Job :=
  let job := Job.withLibraries false [] []
  { job with
    config := { job.config with
      produce := .kind .framework
      outputName := "out//../out/Kit"
      debug := true } }

/-- Its library stands in the one directory that the name leads to. -/
theorem nested_name_linked : ∃ setup tool frame mid, ofNestedName.setup = .ok setup ∧ mid.started = [] ∧
    mid.files.entry? ["work", "out", "Kit.framework", "Versions", "A"] = some .directory ∧
    setup.LinksFrom "/llvm/bin/llvm-dsymutil" tool frame "/home" ["a.o"]
      "/work/out/Kit.framework/Versions/A/Kit" ["-install_name", "@rpath/Kit.framework/Versions/A/Kit"]
      .blank mid := by
  obtain ⟨setup, ready⟩ : ∃ setup, ofNestedName.setup = .ok setup := ⟨_, rfl⟩
  have config := (Job.setup_of_ok ready).1
  have named : setup.config.outputFile = .ok "out/../out/Kit.framework" := by
    rw [config]
    decide
  obtain ⟨made, unblocked⟩ : ∃ made, Files.makeDirectories
      ⟨.none, ["out", "..", "out", "Kit.framework"] ++ bundleDirectories setup.config.target⟩ .blank =
        .ok () made := by
    rw [config]
    exact ⟨_, rfl⟩
  obtain ⟨tool, frame, directory, output, mid, -, found, text, -, started, stands, links⟩ :=
    framework_linked_into_bundle (s := .blank) ready (config ▸ rfl) (config ▸ rfl) named (by decide) (by decide)
      (by decide) (by decide) unblocked "/home" ["a.o"]
  obtain ⟨rfl, -⟩ := Files.absolute_ok found
  rw [config] at text stands links
  have place : output = "/work/out/Kit.framework/Versions/A/Kit" := by
    rw [text]
    decide
  exact ⟨setup, tool, frame, mid, ready, started, stands, place ▸ links⟩

end Setup

end Foundry
