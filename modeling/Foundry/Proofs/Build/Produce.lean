import Foundry.Build.Produce
import Foundry.Proofs.Build.Compile
import Foundry.Proofs.Build.Link
import Foundry.Proofs.Library.Frame

/-! The stages of producing an artifact, up to the link: they stop at the first tool that fails, and
start none if there is no setup. -/
namespace Foundry

theorem Failure.IsOfLibrary.ofBuild {e : Failure} (kind : e.IsOfLibrary) : e.IsOfBuild := by
  unfold Failure.IsOfLibrary at kind
  split at kind
  · simp [Failure.IsOfBuild, Fault.kind]
  all_goals trivial

/-- A failure to link bitcode into the module. -/
def Failure.IsOfBitcode : Failure → Prop
  | .fault (.bitcodeNotLinked ..) | .refusal _ | .zeroInPath => True
  | _ => False

theorem Failure.IsOfFile.ofBitcode {e : Failure} (kind : e.IsOfFile) : e.IsOfBitcode := by
  cases e with
  | refusal | zeroInPath => trivial
  | _ => exact kind.elim

theorem Failure.IsOfBitcode.ofBuild {e : Failure} (kind : e.IsOfBitcode) : e.IsOfBuild := by
  unfold Failure.IsOfBitcode at kind
  split at kind
  · simp [Failure.IsOfBuild, Fault.kind]
  all_goals trivial

namespace Job
open Run

/-- A run that keeps this contract stops at the first failed tool and starts tools only if there is
a setup; its own failures are those of the build, or that of the missing setup. -/
def proceeds (job : Job) : Contract := fun ending s t =>
  stopsAtFailure (fun e => e.IsOfBuild ∨ job.setup = .error e) ending s t ∧
    (t.started ≠ s.started → ∃ setup, job.setup = .ok setup)

instance (job : Job) : (proceeds job).Composes where
  refl s := ⟨Contract.Composes.refl s, fun changed => absurd rfl changed⟩
  trans := by
    rintro ending s t u ⟨first, guarded⟩ ⟨second, guarded'⟩
    refine ⟨Contract.Composes.trans first second, fun changed => ?_⟩
    by_cases same : t.started = s.started
    · exact guarded' (same ▸ changed)
    · exact guarded same

variable {job : Job}

theorem Proceeds.quiet {run : Run α} (kept : Obeys (toolless Failure.IsOfBuild) run) :
    Obeys job.proceeds run := by
  intro s
  refine ⟨stopsAtFailure_mono (fun _ => .inl) kept.stops s, fun changed => ?_⟩
  exact absurd (kept s).2.1 changed

theorem Proceeds.ready {run : Run α} {setup : Setup} (ready : job.setup = .ok setup)
    (kept : Obeys (stopsAtFailure Failure.IsOfBuild) run) : Obeys job.proceeds run :=
  fun s => ⟨stopsAtFailure_mono (fun _ => .inl) kept s, fun _ => ⟨setup, ready⟩⟩

theorem Proceeds.file {run : Run α} (kept : Obeys (toolless Failure.IsOfFile) run) :
    Obeys job.proceeds run :=
  Proceeds.quiet (toolless_mono (fun _ => Failure.IsOfFile.ofBuild) kept)

theorem Proceeds.compiles {run : Run α} {setup : Setup} (ready : job.setup = .ok setup)
    (kept : Setup.Compiles run) : Obeys job.proceeds run :=
  Proceeds.ready ready (stopsAtFailure_mono (fun _ => Failure.IsOfFile.ofBuild) kept)

theorem Proceeds.library {run : Run α} (kept : OnFiles Failure.IsOfLibrary run) :
    Obeys job.proceeds run :=
  Proceeds.quiet (toolless_mono (fun _ => Failure.IsOfLibrary.ofBuild) kept.toolless)

/-- What comes after the setup may rely on it. -/
theorem Proceeds.setUp {next : Setup → Run α}
    (rest : ∀ setup, job.setup = .ok setup → Obeys job.proceeds (next setup)) :
    Obeys job.proceeds (job.setUp >>= next) := by
  intro s
  refine Meets.bind ?_ fun setup t ran => rest setup (ofExcept_eq_ok.mp ran).1 t
  refine obeys_ofExcept (fun e s failed => ⟨?_, fun changed => absurd rfl changed⟩) s
  exact stopsAtFailure_of_same rfl rfl rfl fun _ same => Option.some.inj same ▸ .inr failed

theorem outputFile_proceeds : Obeys job.proceeds (Run.ofExcept job.config.outputFile) :=
  Proceeds.quiet (obeys_ofExcept fun _ _ failed => ⟨rfl, rfl, rfl, fun _ same =>
    Option.some.inj same ▸ Setup.outputFile_ofBuild failed⟩)

theorem produceBitcode_proceeds : Obeys job.proceeds job.produceBitcode :=
  outputFile_proceeds.bind fun _ => obeys_get.bind fun _ =>
    (Proceeds.file (Files.change_filesOnly _ _).toolless).bind fun _ => obeys_pure _

theorem layOutLibrary_proceeds : Obeys job.proceeds job.layOutLibrary :=
  outputFile_proceeds.bind fun _ => obeys_get.bind fun _ =>
    (Proceeds.file (RunDirectory.named_toolless _ _)).bind fun _ =>
    Proceeds.library (LibraryWriter.build_filesOnly _ _ _ _ _ _ _)

theorem addArchive_proceeds (library : LibraryWriter) (bitcode name : String) :
    Obeys job.proceeds (job.addArchive library bitcode name) :=
  Proceeds.setUp fun setup ready =>
    (Proceeds.compiles ready (setup.staticLibrary_compiles _ _)).bind fun _ =>
      Proceeds.library (library.copyInto_filesOnly _ _)

theorem produceLibrary_proceeds : Obeys job.proceeds job.produceLibrary :=
  layOutLibrary_proceeds.bind fun library =>
    (obeys_forM fun _ _ => addArchive_proceeds library _ _).bind fun _ =>
    (addArchive_proceeds library _ _).bind fun _ =>
    (Proceeds.library library.commit_filesOnly).bind fun _ => obeys_pure _

theorem readNative_filesOnly (library : String) :
    OnFiles Failure.IsOfBitcode
      (tryCatch (Files.read (Path.ofText library).text) fun
        | .refusal r => Run.fault (.bitcodeNotLinked library r.text)
        | other => throw other) := by
  refine OnFiles.tryCatch (Files.ask_filesOnly _ _) fun e kind => ?_
  split
  · exact .throw trivial
  · exact .throw kind.ofBitcode

theorem linkNative_toolless (library : String) :
    Obeys (toolless Failure.IsOfBitcode) (linkNative library) := by
  refine (readNative_filesOnly library).toolless.bind fun bitcode s => ?_
  refine (obeys_get s).bind fun session t ran => ?_
  cases ran
  split
  · exact ⟨rfl, rfl, rfl, by simp [failure?]⟩
  · exact ⟨rfl, rfl, rfl, by rintro e ⟨⟩; trivial⟩

theorem adapterBitcode_proceeds : Obeys job.proceeds job.adapterBitcode := by
  unfold adapterBitcode
  split
  · exact obeys_pure _
  · exact obeys_pure _
  · split
    · exact obeys_pure _
    · refine Proceeds.setUp fun setup ready => ?_
      exact (Proceeds.file (RunDirectory.named_toolless _ _)).bind fun _ =>
        (Proceeds.ready ready (Executor.runTool_stopsAtFailure _ _)).bind fun _ => obeys_pure _

theorem produceProgram_proceeds : Obeys job.proceeds job.produceProgram :=
  adapterBitcode_proceeds.bind fun _ =>
    (obeys_forM fun _ _ => Proceeds.quiet
      (toolless_mono (fun _ => Failure.IsOfBitcode.ofBuild) (linkNative_toolless _))).bind fun _ =>
    (Proceeds.file (RunDirectory.named_toolless _ _)).bind fun _ =>
    obeys_get.bind fun _ =>
    (Proceeds.file (Files.change_filesOnly _ _).toolless).bind fun _ => obeys_pure _

/-- The stages of a link, one after another. -/
theorem produceLinked_stages (job : Job) : job.produceLinked = (do
    let program ← job.produceProgram
    let setup ← job.setUp
    let objects ← setup.objectFiles [program]
    setup.finishLink (← setup.libraryInputs job.properties.distribution.home objects)) := by
  simp only [produceLinked, prepareLink, bind_assoc, pure_bind]

/-- A setup has the settings of its build, and the platform of the properties of its target. -/
theorem setup_of_ok {setup : Setup} (ready : job.setup = .ok setup) :
    setup.config = job.config ∧ ∃ properties,
      job.properties.forTarget job.config.target = .ok properties ∧
        Platform.ofProperties properties = .ok setup.platform := by
  obtain ⟨properties, given, rest⟩ := except_bind_eq_ok.mp ready
  obtain ⟨platform, made, rest⟩ := except_bind_eq_ok.mp rest
  cases rest
  exact ⟨rfl, properties, given, made⟩

theorem producer_bundled (linked : job.producer = .ok .linked) : Setup.Bundled job.config := by
  intro framework
  simp only [producer, framework] at linked
  split at linked
  · assumption
  · contradiction

theorem kind_of_producer (chosen : job.producer = .ok way) :
    (way = .bitcode ↔ job.config.produce = .kind .bitcode) ∧
      (way = .library ↔ job.config.produce = .kind .library) := by
  unfold producer at chosen
  split at chosen
  · contradiction
  · rename_i asked
    obtain rfl := Except.ok.inj chosen
    simp [asked]
  · rename_i asked
    obtain rfl := Except.ok.inj chosen
    simp [asked]
  · rename_i asked
    split at chosen
    · obtain rfl := Except.ok.inj chosen
      simp [asked]
    · contradiction
  · rename_i kind notBitcode notLibrary notFramework asked
    obtain rfl := Except.ok.inj chosen
    have bitcode : kind ≠ .bitcode := fun same => notBitcode same
    have library : kind ≠ .library := fun same => notLibrary same
    simp [asked, bitcode, library]

theorem prepareLink_proceeds (linked : job.producer = .ok .linked) :
    Obeys job.proceeds job.prepareLink := by
  refine produceProgram_proceeds.bind fun program => Proceeds.setUp fun setup ready => ?_
  have bundled : Setup.Bundled setup.config := (setup_of_ok ready).1 ▸ producer_bundled linked
  exact (Proceeds.compiles ready (setup.objectFiles_compiles _)).bind fun _ =>
    (Proceeds.ready ready (setup.libraryInputs_links bundled _ _)).bind fun _ => obeys_pure _

end Job

end Foundry
