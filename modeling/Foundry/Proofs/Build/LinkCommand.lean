import Foundry.Proofs.Build.FailedLink
import Foundry.Proofs.Build.LateFailure
import Foundry.Proofs.Link.Frame

/-! The command of a link. A link that is not given up starts the linker once. What the linker is told
is the frame of its platform around the objects and the artifact, and behind it what the build adds; and
that frame stays as it is when only what the build adds is changed. -/
namespace Foundry

open Run

theorem Platform.dsymutil_of_recipe {properties : TargetProperties}
    {root : String} (chosen : Platform.recipeFor properties root = .ok (.apple dsymutil libLto)) :
    dsymutil = properties.distribution.llvmBin ++ "/" ++ "llvm-dsymutil" := by
  have family := Platform.recipeFor_family chosen
  simp only [Platform.recipeFor, ← family, Recipe.family] at chosen
  obtain ⟨rfl, -⟩ := Recipe.apple.inj (except_pure_eq_ok.mp chosen)
  rw [← String.toList_inj]
  simp [toString]

/-- A library but for the options that it adds. -/
def LinkedLibrary.bare (library : LinkedLibrary) : LinkedLibrary := { library with linkerOptions := [] }

/-- The other build differs in arguments for the linker, in whether the program gets the entry point of
the runtime, and in the linker options of its libraries alone. -/
def Job.LinksLike (job other : Job) : Prop :=
  ∃ linkerArgs noMain libraries,
    libraries.map LinkedLibrary.bare = job.config.libraries.map LinkedLibrary.bare ∧
    other = { job with config := { job.config with linkerArgs, noMain, libraries } }

namespace Setup

variable {setup : Setup} {inputs : LinkInputs} {tool : String} {frame : LinkFrame} {s t : Session}

/-- What a build adds behind the frame of its link command. -/
def appended (s : Setup) (frameworkFlags : List String) : List String :=
  s.platform.libffi ++ s.linkerArguments s.config.linkerArgs ++
  (if s.config.noMain || s.config.isDynamic then [] else s.platform.flags .entrySelector) ++
  frameworkFlags ++ (if s.platform.recipe = .mingw then s.platform.flags .linkAlways else []) ++
  s.config.libraries.flatMap (·.linkerOptions)

/-- The tool that is run after a linker that succeeded, if there is one, is given the artifact. -/
def extracts (s : Setup) (exitCode : Int) (output : String) : List (List String) :=
  match s.platform.recipe with
  | .apple dsymutil _ => if s.config.debug = true ∧ exitCode = 0 then [[dsymutil, output]] else []
  | _ => []

/-- What is linked from a directory, and the flags that only a framework has. -/
def linkPlace (s : Setup) (here : List String) : Except Failure (String × List String) := do
  let file ← s.config.outputFile
  if s.config.produce = .kind .framework then
    let bundle := Path.ofText file
    let place ← frameworkPlace s.config.target (Text.dropTail bundle.name frameworkSuffix)
    pure ((Path.mk ((Path.mk .root here).join (bundle.child place)).anchor
        ((bundle.child place).resolve ⟨.root, here⟩).parts).text,
      ["-install_name", s!"@rpath/{bundle.name}/{place}"])
  else pure (file, [])

/-- How a link goes: it is given up before anything is started, or the linker is started, and after it
at most the tool that extracts debug symbols. -/
inductive LinkRun (setup : Setup) (tool : String) (frame : LinkFrame) (home : String)
    (objects : List String) (s : Session) : Prop where
  | raised (e t) : setup.linkLibraries home objects s = .error e t → t.started = s.started →
      (setup.Misplaces e ∨ ∃ name, setup.platform.unsetLate? = some name ∧
        e = .fault (.missingProperty name setup.config.target)) →
      LinkRun setup tool frame home objects s
  | ran (output flags argv artifact t) : setup.linkLibraries home objects s = .ok artifact t →
      setup.linkPlace s.files.here = .ok (output, flags) →
      argv = tool :: (frame.args objects output ++ setup.appended flags) →
      t.started.map (·.argv) =
        s.started.map (·.argv) ++ argv :: setup.extracts (s.outcome argv).exitCode output →
      (artifact = some output ∧ (∀ p ∈ s.processesSince t, p.exitCode = 0) ∨
        artifact = none ∧ ∃ p ∈ s.processesSince t, p.exitCode ≠ 0) →
      LinkRun setup tool frame home objects s

/-- The place of the artifact is known from the directory in which the link is run. -/
theorem linkOutput_place (ran : setup.linkOutput s = .ok place t) :
    setup.linkPlace s.files.here = .ok place := by
  obtain ⟨file, u, found, rest⟩ := bind_eq_ok.mp ran
  obtain ⟨named, rfl⟩ := ofExcept_eq_ok.mp found
  refine except_bind_eq_ok.mpr ⟨file, named, ?_⟩
  split at rest
  · rename_i other
    obtain ⟨rfl, -⟩ := pure_eq_ok.mp rest
    rw [if_neg other]
    rfl
  · rename_i framework
    obtain ⟨inBundle, v, found, rest⟩ := bind_eq_ok.mp rest
    obtain ⟨placed, rfl⟩ := ofExcept_eq_ok.mp found
    obtain ⟨_, w, made, rest⟩ := bind_eq_ok.mp rest
    obtain ⟨library, x, absolute, given⟩ := bind_eq_ok.mp rest
    obtain ⟨rfl, -⟩ := pure_eq_ok.mp given
    have grown := (Files.makeDirectories_extending (Z := fun _ => False) _ s).of_ok made rfl
    obtain ⟨rfl, -⟩ := Files.absolute_ok absolute
    rw [if_pos (Decidable.not_not.mp framework), grown.here]
    exact except_bind_eq_ok.mpr ⟨inBundle, placed, rfl⟩

/-- What is collected for a link. -/
theorem libraryInputs_given (collected : setup.libraryInputs home objects s = .ok inputs t) :
    inputs.objects = objects ∧
      setup.linkPlace s.files.here = .ok (inputs.output, inputs.frameworkFlags) ∧
      inputs.libraryFlags = setup.config.libraries.flatMap (·.linkerOptions) := by
  obtain ⟨_, u, logged, rest⟩ := bind_eq_ok.mp collected
  obtain ⟨⟨output, flags⟩, v, found, rest⟩ := bind_eq_ok.mp rest
  obtain ⟨archives, w, -, given⟩ := bind_eq_ok.mp rest
  obtain ⟨rfl, -⟩ := pure_eq_ok.mp given
  have same : u.files = s.files := by
    obtain ⟨_, _, logs⟩ := setup.toolchain.logger.log_ok s!"# Compiler root: {home}" s
    cases logs.symm.trans logged
    rfl
  exact ⟨rfl, same ▸ linkOutput_place found, rfl⟩

/-- Where the place of the artifact is not found, the link is given up. -/
theorem libraryInputs_failed (failed : setup.libraryInputs home objects s = .error e t) :
    t.started = s.started ∧ setup.Misplaces e := by
  have logs := setup.toolchain.logger.log_toolless (F := fun _ => False) s!"# Compiler root: {home}" s
  rcases bind_eq_error.mp failed with unlogged | ⟨_, u, logged, rest⟩
  · exact ((logs.of_error unlogged).2.2.2 e rfl).elim
  rcases bind_eq_error.mp rest with lost | ⟨⟨output, flags⟩, v, found, rest⟩
  · have places := (setup.linkOutput_filesOnly.toolless u).of_error lost
    exact ⟨places.2.1.trans (logs.of_ok logged).2.1, places.2.2.2 e rfl⟩
  -- once the artifact has its place, nothing can fail
  · rcases bind_eq_error.mp rest with unreported | ⟨archives, w, -, given⟩
    · rw [staticLibraries_ok] at unreported
      contradiction
    · contradiction

/-- The switches of a build. -/
def switches (s : Setup) : Platform.Switches := ⟨s.config.optimize, s.config.debug, s.config.isDynamic⟩

/-- The whole command of a link, in a frame of its platform. -/
theorem linkCommand_argv (framed : setup.platform.Frames setup.switches inputs.archives tool frame)
    (flags : inputs.libraryFlags = setup.config.libraries.flatMap (·.linkerOptions))
    (made : setup.linkCommand inputs = .ok command) :
    command.argv = tool :: (frame.args inputs.objects inputs.output ++
      setup.appended inputs.frameworkFlags) := by
  obtain ⟨bare, linked, rest⟩ := except_bind_eq_ok.mp made
  rw [framed.2.2 _ _ _ linked] at rest
  cases rest
  simp [Command.argv, Command.withFlags, Command.withLibraries, appended, flags, entrySelector,
    Platform.commandTail]

/-- Carrying out a link starts the linker, and nothing more unless that succeeds. -/
theorem action_started (linked : setup.platform.recipe ≠ .copy) (objects : List String) (output : String)
    (command : Command) (s : Session) :
    (((setup.platform.action objects output setup.config.debug).carryOut
          setup.toolchain.toExecutor command).after s).started.map (·.argv) =
      s.started.map (·.argv) ++
        command.argv :: setup.extracts (s.outcome command.argv).exitCode output := by
  obtain ⟨piped, first⟩ := setup.toolchain.toExecutor.runTool_started command s
  have alone (extracts : setup.extracts (s.outcome command.argv).exitCode output = []) :
      ((setup.toolchain.toExecutor.runTool command).after s).started.map (·.argv) =
        s.started.map (·.argv) ++
          command.argv :: setup.extracts (s.outcome command.argv).exitCode output := by
    simp [first, extracts]
  cases recipe : setup.platform.recipe with
  | copy => contradiction
  | gold | android | mingw =>
      simp only [Platform.action, recipe, LinkAction.carryOut]
      exact alone (by simp [extracts, recipe])
  | apple dsymutil libLto =>
      cases debug : setup.config.debug with
      | false =>
          simp only [Platform.action, recipe, LinkAction.carryOut]
          exact alone (by simp [extracts, recipe, debug])
      | true =>
          simp only [Platform.action, recipe, if_true, LinkAction.carryOut]
          cases ran : setup.toolchain.toExecutor.runTool command s with
          | ok _ t =>
              obtain ⟨passed, -⟩ := Executor.runTool_passed ran
              obtain ⟨_, second⟩ := setup.toolchain.toExecutor.runTool_started
                (Platform.extractCommand dsymutil output) t
              rw [after_of_ok ran] at first
              rw [after_bind_of_ok ran, second, first]
              rw [extracts, recipe, debug, passed]
              simp [Platform.extractCommand, Command.argv]
          | error e t =>
              obtain ⟨failed, -⟩ := Executor.runTool_failed ran
              rw [after_of_error ran] at first
              rw [after_bind_of_error ran, first]
              simp [extracts, recipe, failed]

/-- Carrying out a link always comes to an end that is no failure: the artifact, or nothing once a tool
has failed. -/
theorem carryOut_linked (linked : setup.platform.recipe ≠ .copy)
    (planned : setup.planLink inputs = .ok plan) (s : Session) :
    ∃ artifact t, setup.carryOut plan s = .ok artifact t ∧
      t.started.map (·.argv) = s.started.map (·.argv) ++
        plan.command.argv :: setup.extracts (s.outcome plan.command.argv).exitCode inputs.output ∧
      (artifact = some inputs.output ∧ (∀ p ∈ s.processesSince t, p.exitCode = 0) ∨
        artifact = none ∧ ∃ p ∈ s.processesSince t, p.exitCode ≠ 0) := by
  obtain ⟨-, action⟩ := planLink_of_ok planned
  have started := action_started linked inputs.objects inputs.output plan.command s
  rw [← action] at started
  have breaks (e : Failure) : ¬ plan.action.Breaks e := by
    rw [action, Platform.action]
    cases recipe : setup.platform.recipe with
    | copy => contradiction
    | gold | android | mingw => exact id
    | apple => cases setup.config.debug <;> exact id
  have kept := plan.action.carryOut_stopsAtFailure setup.toolchain.toExecutor plan.command s
  cases ran : plan.action.carryOut setup.toolchain.toExecutor plan.command s with
  | ok _ t =>
      rw [after_of_ok ran] at started
      exact ⟨_, t, carryOut_of_ok ran, started,
        .inl ⟨congrArg some (planLink_output planned), (kept.of_ok ran).2.2.2.of_none⟩⟩
  | error e t =>
      rw [after_of_error ran] at started
      have ends := (kept.of_error ran).2.2.2
      generalize processes : s.processesSince t = row at ends
      cases ends with
      | passed _ _ kind _ => exact absurd (kind e rfl) (breaks e)
      | failed earlier last _ nonzero =>
          exact ⟨_, _, carryOut_of_toolFailed ran, started,
            .inr ⟨rfl, last, processes ▸ by simp, nonzero⟩⟩

/-- Within the frame of its platform, a link goes in one of the two ways. -/
theorem linkRun_framed (linked : setup.platform.recipe ≠ .copy)
    (framed : setup.platform.Frames setup.switches
      (setup.platform.staticLibraries setup.includedFiles) tool frame)
    (unplanned : ∀ inputs e, setup.planLink inputs = .error e → ∃ name,
      setup.platform.unsetLate? = some name ∧ e = .fault (.missingProperty name setup.config.target))
    (home : String) (objects : List String) (s : Session) :
    setup.LinkRun tool frame home objects s := by
  cases collected : setup.libraryInputs home objects s with
  | error e t =>
      obtain ⟨started, lost⟩ := libraryInputs_failed collected
      exact .raised e t (bind_eq_error.mpr (.inl collected)) started (.inl lost)
  | ok inputs mid =>
      obtain ⟨rfl, place, flags⟩ := libraryInputs_given collected
      obtain ⟨-, archives, started, -⟩ := libraryInputs_of_ok collected
      have host : mid.host = s.host := ((setup.libraryInputs_stops _ _ s).of_ok collected).1
      cases planned : setup.planLink inputs with
      | error e =>
          exact .raised e mid (bind_eq_error.mpr (.inr ⟨inputs, mid, collected,
            bind_eq_error.mpr (.inl (ofExcept_eq_error.mpr ⟨planned, rfl⟩))⟩)) started
            (.inr (unplanned inputs e planned))
      | ok plan =>
          obtain ⟨made, -⟩ := planLink_of_ok planned
          have argv := linkCommand_argv (archives ▸ framed) flags made
          obtain ⟨artifact, t, carried, starts, ends⟩ := carryOut_linked linked planned mid
          have since : mid.processesSince t = s.processesSince t := by
            simp only [Session.processesSince, started, host]
          have outcome : mid.outcome plan.command.argv = s.outcome plan.command.argv := by
            simp only [Session.outcome, started, host]
          rw [started, outcome] at starts
          rw [since] at ends
          exact .ran _ _ _ artifact t (bind_eq_ok.mpr ⟨inputs, mid, collected,
            bind_eq_ok.mpr ⟨plan, mid, ofExcept_eq_ok.mpr ⟨planned, rfl⟩, carried⟩⟩) place argv starts ends

/-- The tool that extracts debug symbols is not the linker. -/
theorem extracts_not_linker {properties : TargetProperties}
    (made : Platform.ofProperties properties = .ok setup.platform)
    (links : setup.platform.linker? = some tool) (extracted : row ∈ setup.extracts exitCode output) :
    row.head? ≠ some tool := by
  unfold extracts at extracted
  split at extracted
  · rename_i dsymutil libLto recipe
    obtain ⟨-, -, chosen⟩ := Platform.ofProperties_of_ok made
    have extractor := Platform.dsymutil_of_recipe (recipe ▸ chosen)
    have linker : setup.platform.toolchain ++ "/usr/bin" ++ "/" ++ "ld" = tool := by
      rw [Platform.linker?, recipe] at links
      rw [← Option.some.inj links, ← String.toList_inj]
      simp [toString]
    split at extracted
    · rw [List.mem_singleton.mp extracted]
      intro same
      have names := congrArg Text.baseName (Option.some.inj same)
      rw [extractor, ← linker, Text.baseName_append _ (by decide), Text.baseName_append _ (by decide)] at names
      exact absurd names (by decide)
    · contradiction
  · contradiction

end Setup

namespace Job

/-- A build that links like another one has the same platform, and finds the same static libraries. -/
theorem LinksLike.setup_ok {job other : Job} {setup : Setup} (like : job.LinksLike other)
    (ready : job.setup = .ok setup) :
    ∃ setup', other.setup = .ok setup' ∧ setup'.platform = setup.platform ∧
      setup'.switches = setup.switches ∧ setup'.linkPlace = setup.linkPlace ∧
      setup'.includedFiles = setup.includedFiles := by
  obtain ⟨linkerArgs, noMain, libraries, bare, rfl⟩ := like
  obtain ⟨properties, given, rest⟩ := except_bind_eq_ok.mp ready
  obtain ⟨platform, made, rest⟩ := except_bind_eq_ok.mp rest
  cases rest
  refine ⟨_, except_bind_eq_ok.mpr ⟨properties, given, except_bind_eq_ok.mpr ⟨platform, made, rfl⟩⟩,
    rfl, rfl, rfl, ?_⟩
  have files (isDefault : Bool) (libraries : List LinkedLibrary) :
      (libraries.filter (·.isDefault = isDefault)).flatMap (·.includedPaths) =
        ((libraries.map LinkedLibrary.bare).filter (·.isDefault = isDefault)).flatMap (·.includedPaths) := by
    rw [List.filter_map, List.flatMap_map]
    rfl
  simp only [Setup.includedFiles, Setup.includedPaths]
  rw [files true, files false, bare, ← files, ← files]

/-- A link that is not given up starts the linker once, with the objects as they are given in the frame
of the platform and with what the build adds behind it, and it makes what that command names. In the
frame the static libraries have their places, and it is the same frame for every build that links like
this one. -/
theorem link_command_framed {job : Job} {setup : Setup} (ready : job.setup = .ok setup)
    (linked : job.config.target.family ≠ .wasm) :
    ∃ tool frame, setup.platform.linker? = some tool ∧
      setup.platform.recipe.Places (setup.platform.staticLibraries setup.includedFiles) frame ∧
      (∀ exitCode output, ∀ argv ∈ setup.extracts exitCode output, argv.head? ≠ some tool) ∧
      ∀ other, job.LinksLike other → ∃ setup', other.setup = .ok setup' ∧
        setup'.platform = setup.platform ∧ setup'.linkPlace = setup.linkPlace ∧
        ∀ home objects s, setup'.LinkRun tool frame home objects s := by
  obtain ⟨-, properties, given, made⟩ := setup_of_ok ready
  have target : properties.target = job.config.target := by
    obtain ⟨table, -, rest⟩ := except_bind_eq_ok.mp given
    rw [← except_pure_eq_ok.mp rest]
  have notCopy : setup.platform.recipe ≠ .copy :=
    (Platform.recipe_of_family made).1.not.mpr (target ▸ linked)
  obtain ⟨tool, frame, framed⟩ := setup.platform.linkCommand_framed notCopy setup.switches
    (setup.platform.staticLibraries setup.includedFiles)
  refine ⟨tool, frame, framed.1, framed.2.1,
    fun exitCode output argv => Setup.extracts_not_linker made framed.1, fun other like => ?_⟩
  obtain ⟨setup', ready', platform, switches, place, files⟩ := like.setup_ok ready
  refine ⟨setup', ready', platform, place, fun home objects s => ?_⟩
  have config : setup'.config = other.config := (setup_of_ok ready').1
  refine Setup.linkRun_framed (platform ▸ notCopy) ?_ (fun inputs e failed => ?_) home objects s
  · rw [platform, switches, files]
    exact framed
  · rw [config]
    exact (planLink_error_iff ready' inputs).mp failed

/-- A program for macOS with a library of the user before a default one. -/
def withLibraries (noMain : Bool) (linkerArgs linkerOptions : List String) : Job where
  config := {
    target := .macosX64
    produce := .kind .program
    outputName := "program"
    noMain
    linkerArgs
    libraries := [
      { name := "user", includedPaths := ["user.a", "user.js"], linkerOptions },
      { name := "runtime", includedPaths := ["runtime.a"], isDefault := true }] }
  properties := {
    data := [("targets", .table [("macos_x64", .table [
      ("target_toolchain", .text "toolchain"), ("target_sysroot", .text "sysroot"),
      ("arch", .text "x86_64"), ("os_version_min_flag_ld", .text "-macosx_version_min"),
      ("os_version_min", .text "10.11"),
      ("entry_selector", .array [.text "-alias", .text "_Konan_main", .text "_main"])])])]
    path := "kiln.toml"
    sources := ["kiln.toml"]
    distribution := { home := "/home", llvmHome := "/llvm" } }

/-- With arguments for the linker and without the entry point of the runtime, the frame of the command
is the same. -/
theorem link_commands_share_frame : ∃ tool frame,
    frame.between = [] ∧ flagged "-force_load" ["runtime.a", "user.a"] <+: frame.after ∧
    (∃ setup, (withLibraries false [] []).setup = .ok setup ∧
      setup.LinkRun tool frame "/home" ["a.o", "b.o"] .blank) ∧
    ∃ setup, (withLibraries true ["-Wl,-dead_strip,-v"] ["-lcurl"]).setup = .ok setup ∧
      setup.LinkRun tool frame "/home" ["a.o", "b.o"] .blank := by
  have platform : (withLibraries false [] []).setup.map (fun setup => (setup.platform.recipe,
        setup.platform.staticLibraries setup.includedFiles)) =
      .ok (.apple "/llvm/bin/llvm-dsymutil" "", ["runtime.a", "user.a"]) := by
    decide
  obtain ⟨setup, ready, read⟩ := except_map_eq_ok.mp platform
  obtain ⟨recipe, archives⟩ := Prod.mk.inj read
  obtain ⟨tool, frame, -, places, -, runs⟩ := link_command_framed ready (by decide)
  rw [recipe, archives] at places
  obtain ⟨_, ready, -, -, ran⟩ := runs (withLibraries false [] [])
    ⟨[], false, (withLibraries false [] []).config.libraries, rfl, rfl⟩
  obtain ⟨_, ready', -, -, ran'⟩ := runs (withLibraries true ["-Wl,-dead_strip,-v"] ["-lcurl"])
    ⟨_, _, (withLibraries true [] ["-lcurl"]).config.libraries, rfl, rfl⟩
  exact ⟨tool, frame, places.1, places.2, ⟨_, ready, ran _ _ _⟩, _, ready', ran' _ _ _⟩

end Job

end Foundry
