import Foundry.Proofs.Build.Produce

/-! A verbose build ends as any other one: with the same result or failure, after the same processes,
and with the same files and the same report. Only what is printed to the output differs. -/
namespace Foundry

open Run

/-- Where a build logs that is verbose or not. -/
def Logger.voice (verbose : Bool) : Logger := if verbose then .output else .off

/-- An executor of a build that is verbose or not. -/
def Executor.spoken (executor : Executor) (verbose : Bool) : Executor :=
  { executor with logger := .voice verbose }

/-- The setup of a build that is the same but perhaps for being verbose. -/
def Setup.spoken (s : Setup) (verbose : Bool) : Setup :=
  { s with
    config := { s.config with verbose }
    toolchain := { s.toolchain with toExecutor := s.toolchain.spoken verbose } }

/-- The build that is the same but perhaps for being verbose. -/
def Job.spoken (job : Job) (verbose : Bool) : Job :=
  { job with config := { job.config with verbose } }

theorem Job.setup_spoken (job : Job) (verbose : Bool) :
    (job.spoken verbose).setup = (·.spoken verbose) <$> job.setup := by
  simp only [setup, map_bind, map_pure]
  rfl

variable {a b : Bool}

theorem Logger.log_alike (line : String) : Alike ((voice a).log line) ((voice b).log line) := by
  have silent (verbose : Bool) : Alike ((voice verbose).log line) (pure ()) := by
    cases verbose with
    | true => exact print_alike line
    | false => exact steady_pure ()
  exact (silent a).trans (silent b).symm

theorem Run.report_steady (notice : Notice) (stage : String) : Steady (report notice stage) :=
  .modify fun _ _ => rfl

theorem Executor.writeProducts_steady (argv : List String) (product : Bytes) :
    Steady (writeProducts argv product) := .modify fun _ _ => rfl

theorem Executor.execute_alike (executor : Executor) (command : Command) :
    Alike ((executor.spoken a).execute command) ((executor.spoken b).execute command) := by
  refine (Logger.log_alike _).bind fun _ => (Logger.log_alike _).bind fun _ => .get fun s output => ?_
  refine Alike.bind (.set rfl) fun _ => ?_
  show Steady _
  have forwarding (lines : List String) (code : Int) : Steady (do
      lines.forM printError
      return code : Run Int) := (Alike.forM printError_steady).bind fun _ => steady_pure _
  split
  · exact (printError_steady _).bind fun _ => steady_pure _
  · split
    · split
      · exact (writeProducts_steady _ _).bind fun _ => forwarding _ _
      · exact forwarding _ _
    · split
      · exact (writeProducts_steady _ _).bind fun _ => steady_pure _
      · exact steady_pure _

theorem Executor.runTool_alike (executor : Executor) (command : Command) :
    Alike ((executor.spoken a).runTool command) ((executor.spoken b).runTool command) := by
  refine (executor.execute_alike command).bind fun exitCode => ?_
  split
  · exact steady_throw _
  · exact steady_pure _

namespace RunDirectory

theorem path_steady (stem : String) : Steady (path stem) := by
  refine .get fun s output => ?_
  show Steady _
  split
  · exact steady_pure _
  · exact (Files.makeTemporaryDirectory_filesOnly _).steady.bind fun _ =>
      Alike.bind (.modify fun _ _ => rfl) fun _ => steady_pure _

theorem named_steady (stem name : String) : Steady (named stem name) :=
  (path_steady stem).bind fun _ => steady_pure _

theorem remove_steady : Steady remove := by
  refine .get fun s output => ?_
  show Steady _
  split
  · exact (Files.discardTree_filesOnly (F := fun _ => False) _).steady.bind fun _ =>
      .modify fun _ _ => rfl
  · exact steady_pure _

end RunDirectory

namespace Setup
variable (s : Setup)

theorem fresh_steady (name suffix : String) : Steady (fresh name suffix) :=
  (RunDirectory.path_steady _).bind fun _ => (Files.makeTemporaryFile_filesOnly _ _ _).steady

theorem hostTool_alike (tool : String) (args : List String) :
    Alike ((s.spoken a).toolchain.hostTool tool args) ((s.spoken b).toolchain.hostTool tool args) :=
  s.toolchain.runTool_alike _

theorem targetTool_alike (tool : String) (args : List String) :
    Alike ((s.spoken a).toolchain.targetTool tool args) ((s.spoken b).toolchain.targetTool tool args) :=
  s.toolchain.runTool_alike _

theorem linkBitcode_alike (files : List String) :
    Alike ((s.spoken a).linkBitcode files) ((s.spoken b).linkBitcode files) :=
  (fresh_steady _ _).bind fun _ => (s.hostTool_alike _ _).bind fun _ => steady_pure _

theorem objectOf_alike (file : String) : Alike ((s.spoken a).objectOf file) ((s.spoken b).objectOf file) := by
  have optimizing : Alike ((s.spoken a).optimizeBitcode file) ((s.spoken b).optimizeBitcode file) :=
    (fresh_steady _ _).bind fun _ => (s.hostTool_alike _ _).bind fun _ => steady_pure _
  exact optimizing.bind fun _ =>
    (fresh_steady _ _).bind fun _ => (s.hostTool_alike _ _).bind fun _ => steady_pure _

theorem wasmOf_alike (files : List String) : Alike ((s.spoken a).wasmOf files) ((s.spoken b).wasmOf files) :=
  (fresh_steady _ _).bind fun _ => (s.hostTool_alike _ _).bind fun _ =>
    (fresh_steady _ _).bind fun _ => (s.targetTool_alike _ _).bind fun _ =>
    (fresh_steady _ _).bind fun _ => (s.targetTool_alike _ _).bind fun _ =>
    (fresh_steady _ _).bind fun _ => (fresh_steady _ _).bind fun _ =>
    (s.targetTool_alike _ _).bind fun _ => steady_pure _

theorem objectFiles_alike (files : List String) :
    Alike ((s.spoken a).objectFiles files) ((s.spoken b).objectFiles files) := by
  unfold objectFiles
  refine .ite ((s.wasmOf_alike files).bind fun _ => steady_pure _) ?_
  match files with
  | [_] => exact (s.objectOf_alike _).bind fun _ => steady_pure _
  | [] | _ :: _ :: _ =>
      exact (s.linkBitcode_alike _).bind fun _ => (s.objectOf_alike _).bind fun _ => steady_pure _

theorem archivedObjects_alike (files : List String) :
    Alike ((s.spoken a).archivedObjects files) ((s.spoken b).archivedObjects files) := by
  have each (files : List String) : Alike ((s.spoken a).objectsOf files) ((s.spoken b).objectsOf files) := by
    induction files with
    | nil => exact steady_pure _
    | cons file rest ih => exact (s.objectOf_alike file).bind fun _ => ih.bind fun _ => steady_pure _
  exact .ite ((s.wasmOf_alike files).bind fun _ => steady_pure _) (each files)

theorem staticLibrary_alike (files : List String) (name : Option String) :
    Alike ((s.spoken a).staticLibrary files name) ((s.spoken b).staticLibrary files name) := by
  have placing : Steady (archivePath name) := by
    unfold archivePath
    split
    · exact fresh_steady _ _
    · exact fresh_steady _ _
    · exact RunDirectory.named_steady _ _
  exact (s.archivedObjects_alike files).bind fun _ => placing.bind fun _ =>
    (s.hostTool_alike _ _).bind fun _ => steady_pure _

theorem libraryInputs_alike (home : String) (objects : List String) :
    Alike ((s.spoken a).libraryInputs home objects) ((s.spoken b).libraryInputs home objects) := by
  have finding : Alike (s.spoken a).linkOutput (s.spoken b).linkOutput := s.linkOutput_filesOnly.steady
  have skipping (accepted : List String) (file : String) : Steady (s.reportSkipped accepted file) := by
    unfold reportSkipped
    split
    · exact report_steady _ _
    · exact steady_pure _
  have accepting (files : List String) : Steady (s.staticLibraries files) :=
    (Alike.forM (skipping _)).bind fun _ => steady_pure _
  exact (Logger.log_alike _).bind fun _ => finding.bind fun _ => (accepting _).bind fun _ => steady_pure _

theorem action_alike (action : LinkAction) (command : Command) :
    Alike (action.carryOut (s.spoken a).toolchain.toExecutor command)
      (action.carryOut (s.spoken b).toolchain.toExecutor command) := by
  cases action with
  | run => exact s.toolchain.runTool_alike _
  | runThenExtract extract =>
      exact (s.toolchain.runTool_alike _).bind fun _ => s.toolchain.runTool_alike _
  | copyWithScript objects artifact =>
      match objects with
      | [object] =>
          have scripting : Steady (discard
              (LinkAction.writeScript artifact (command.libs.filter LinkAction.isScript))) :=
            (LinkAction.writeScript_filesOnly _ _).steady.map _
          exact (Logger.log_alike s!"cp {object} {artifact}").bind fun _ =>
            (Files.copy_filesOnly object (.text artifact)).steady.bind fun _ => scripting
      | [] | _ :: _ :: _ => exact steady_throw _

theorem finishLink_alike (inputs : LinkInputs) :
    Alike ((s.spoken a).finishLink inputs) ((s.spoken b).finishLink inputs) := by
  refine (steady_ofExcept (s.planLink inputs)).bind fun plan => ?_
  refine ((s.action_alike plan.action plan.command).bind fun _ => steady_pure _).tryCatch fun e _ _ _ => ?_
  split
  · exact (report_steady _ _).bind fun _ => steady_pure _
  · exact steady_throw _

end Setup

namespace Job
variable (job : Job)

theorem setUp_alike {next next' : Setup → Run α}
    (rest : ∀ setup : Setup, Alike (next (setup.spoken a)) (next' (setup.spoken b))) :
    Alike ((job.spoken a).setUp >>= next) ((job.spoken b).setUp >>= next') := by
  unfold setUp
  rw [job.setup_spoken a, job.setup_spoken b]
  cases job.setup with
  | error e => exact steady_throw e
  | ok setup => exact rest setup

theorem produceBitcode_alike : Alike (job.spoken a).produceBitcode (job.spoken b).produceBitcode :=
  (steady_ofExcept job.config.outputFile).bind fun _ => .get fun _ _ =>
    (Files.change_filesOnly _ _).steady.bind fun _ => steady_pure _

theorem addArchive_alike (library : LibraryWriter) (bitcode name : String) :
    Alike ((job.spoken a).addArchive library bitcode name) ((job.spoken b).addArchive library bitcode name) :=
  job.setUp_alike fun setup => (setup.staticLibrary_alike _ _).bind fun _ =>
    (library.copyInto_filesOnly _ _).steady

theorem produceLibrary_alike : Alike (job.spoken a).produceLibrary (job.spoken b).produceLibrary := by
  have layingOut : Alike (job.spoken a).layOutLibrary (job.spoken b).layOutLibrary :=
    (steady_ofExcept job.config.outputFile).bind fun _ => .get fun _ _ =>
      (RunDirectory.named_steady _ _).bind fun _ => (LibraryWriter.build_filesOnly _ _ _ _ _ _ _).steady
  exact layingOut.bind fun library => (Alike.forM fun _ => job.addArchive_alike library _ _).bind fun _ =>
    (job.addArchive_alike library _ _).bind fun _ => library.commit_filesOnly.steady.bind fun _ =>
    steady_pure _

theorem linkNative_steady (library : String) : Steady (linkNative library) := by
  refine ((Files.ask_filesOnly _ _).steady.tryCatch fun _ _ _ _ => ?_).bind fun bitcode =>
    .get fun s output => ?_
  · split <;> exact steady_throw _
  · cases linked : linkInto s.module bitcode with
    | ok module =>
        exact .set rfl
    | error reason =>
        exact steady_throw _

theorem adapterBitcode_alike : Alike (job.spoken a).adapterBitcode (job.spoken b).adapterBitcode := by
  simp only [adapterBitcode, spoken]
  split
  · exact steady_pure _
  · exact steady_pure _
  · refine .ite (steady_pure _) (job.setUp_alike fun setup => ?_)
    exact (RunDirectory.named_steady _ _).bind fun _ => (setup.toolchain.runTool_alike _).bind fun _ =>
      steady_pure _

theorem produceLinked_alike : Alike (job.spoken a).produceLinked (job.spoken b).produceLinked := by
  have writing : Alike (job.spoken a).produceProgram (job.spoken b).produceProgram :=
    job.adapterBitcode_alike.bind fun _ => (Alike.forM linkNative_steady).bind fun _ =>
      (RunDirectory.named_steady _ _).bind fun _ => .get fun _ _ =>
        (Files.change_filesOnly _ _).steady.bind fun _ => steady_pure _
  rw [produceLinked_stages, produceLinked_stages]
  exact writing.bind fun program => job.setUp_alike fun setup => (setup.objectFiles_alike _).bind fun _ =>
    (setup.libraryInputs_alike _ _).bind fun _ => setup.finishLink_alike _

/-- Producing an artifact ends alike whether the build is verbose or not. -/
theorem produce_alike : Alike (job.spoken a).produce (job.spoken b).produce := by
  refine (steady_ofExcept job.producer).bind fun producer => ?_
  refine Alike.ensuring ?_ RunDirectory.remove_steady
  cases producer with
  | bitcode => exact job.produceBitcode_alike
  | library => exact job.produceLibrary_alike
  | linked => exact job.produceLinked_alike

end Job

end Foundry
