import Foundry.Proofs.Build.LateFailure

/-! What a build can fail with beside its faults. Who asks for a build reports its faults; any other
failure goes on through, and ends the program. A tool that fails never does that. -/
namespace Foundry

namespace Run

/-- A run that keeps this contract fails with a fault, or with a failure of the kind `F`. -/
def escaping (F : Failure → Prop) : Contract := fun ending _ _ =>
  ∀ e, ending = some e → e.IsFault ∨ F e

instance : (escaping F).Composes := ⟨by simp [escaping], fun _ kind => kind⟩

section Escaping
variable {F G : Failure → Prop} {run : Run α}

theorem Obeys.escapes (kept : Obeys (escaping F) run) (failed : run s = .error e t) :
    e.IsFault ∨ F e :=
  (kept s).of_error failed e rfl

theorem escaping_mono (weaker : ∀ e, F e → G e) (kept : Obeys (escaping F) run) :
    Obeys (escaping G) run :=
  fun s e failed => (kept s e failed).imp_right (weaker e)

theorem escaping_ofExcept {result : Except Failure α}
    (kind : FailsAs (fun e => e.IsFault ∨ F e) result) : Obeys (escaping F) (Run.ofExcept result) :=
  obeys_ofExcept fun e _ failed _ same => Option.some.inj same ▸ kind e failed

/-- A tool that fails is a fault. -/
theorem Obeys.escaping_of_stops (kept : Obeys (stopsAtFailure F) run) : Obeys (escaping F) run := by
  intro s e failed
  obtain ⟨_, _, _, ends⟩ := kept s
  rw [failed] at ends
  generalize s.processesSince (run.after s) = row at ends
  cases ends with
  | passed _ _ kind _ => exact .inr (kind e rfl)
  | failed earlier last _ _ => exact .inl trivial

theorem OnFiles.escaping (kept : OnFiles F run) (weaker : ∀ e, F e → e.IsFault ∨ G e) :
    Obeys (escaping G) run :=
  fun s e failed => weaker e ((kept.obeys s).2 e failed)

end Escaping

end Run

namespace TargetProperties
variable {p : TargetProperties}

theorem text_failsAs (tabled : p.table = .table entries) (name : String) :
    FailsAs Failure.IsFault (p.text name) := by
  intro e failed
  obtain ⟨-, rfl⟩ := (text_error_iff tabled name).mp failed
  trivial

theorem text?_failsAs (tabled : p.table = .table entries) (name : String) :
    FailsAs Failure.IsFault (p.text? name) := by
  simp only [text?, tabled]
  split
  · exact (text_failsAs tabled name).map _
  · exact nofun

theorem list_failsAs (tabled : p.table = .table entries) (name : String) :
    FailsAs Failure.IsFault (p.list name) := by
  simp only [list, value?, tabled]
  refine FailsAs.bind (.pure _) fun value => ?_
  split <;> exact .pure _

end TargetProperties

namespace Platform
variable {properties : TargetProperties}

theorem recipeFor_failsAs (tabled : properties.table = .table entries) (sysroot : String) :
    FailsAs Failure.IsFault (recipeFor properties sysroot) := by
  unfold recipeFor
  dsimp only
  split
  · exact (properties.text_failsAs tabled _).bind fun _ => (properties.list_failsAs tabled _).bind
      fun _ => (properties.list_failsAs tabled _).bind fun _ => .pure _
  all_goals exact .pure _

/-- Properties that are a table can only miss something. -/
theorem ofProperties_failsAs (properties : TargetProperties) :
    FailsAs (fun e => e.IsFault ∨ e = .lacksMember) (ofProperties properties) := by
  cases tabled : properties.table with
  | table entries =>
      have flags (set : FlagSet) : FailsAs Failure.IsFault (properties.flags set) :=
        properties.list_failsAs tabled _
      have place (name : String) : FailsAs Failure.IsFault
          ((properties.text name).map properties.distribution.absolute) :=
        (properties.text_failsAs tabled name).map _
      have libffi : FailsAs Failure.IsFault properties.absoluteLibffi? :=
        (properties.text?_failsAs tabled _).map _
      refine FailsAs.mono (fun _ => .inl) ?_
      exact (flags _).bind fun _ => (flags _).bind fun _ => (flags _).bind fun _ =>
        (flags _).bind fun _ => (flags _).bind fun _ => (flags _).bind fun _ =>
        (flags _).bind fun _ => (flags _).bind fun _ => (flags _).bind fun _ =>
        (flags _).bind fun _ => (place _).bind fun _ => (place _).bind fun _ =>
        libffi.bind fun _ => (recipeFor_failsAs tabled _).bind fun _ => .pure _
  | _ =>
      intro e failed
      unfold ofProperties TargetProperties.flags TargetProperties.list TargetProperties.value? at failed
      simp [tabled, bind, Except.bind] at failed
      exact .inr failed.symm

end Platform

namespace Setup
open Run

variable {setup : Setup}

theorem objectFiles_single (ran : setup.objectFiles files s = .ok objects t) :
    ∃ object, objects = [object] := by
  unfold objectFiles at ran
  split at ran
  · obtain ⟨wasm, u, -, ended⟩ := bind_eq_ok.mp ran
    exact ⟨wasm, (pure_eq_ok.mp ended).1.symm⟩
  · split at ran
    · obtain ⟨object, u, -, ended⟩ := bind_eq_ok.mp ran
      exact ⟨object, (pure_eq_ok.mp ended).1.symm⟩
    · obtain ⟨linked, u, -, rest⟩ := bind_eq_ok.mp ran
      obtain ⟨object, v, -, ended⟩ := bind_eq_ok.mp rest
      exact ⟨object, (pure_eq_ok.mp ended).1.symm⟩

theorem libraryInputs_objects (ran : setup.libraryInputs home objects s = .ok inputs t) :
    inputs.objects = objects := by
  obtain ⟨_, _, -, rest⟩ := bind_eq_ok.mp ran
  obtain ⟨_, _, -, rest⟩ := bind_eq_ok.mp rest
  obtain ⟨_, _, -, ended⟩ := bind_eq_ok.mp rest
  obtain ⟨rfl, -⟩ := pure_eq_ok.mp ended
  rfl

/-- Carrying out a link fails as its action does; failed tools are reported. -/
theorem carryOut_error (failed : setup.carryOut plan s = .error e t) : plan.action.Breaks e := by
  have kept := plan.action.carryOut_stopsAtFailure setup.toolchain.toExecutor plan.command s
  cases acted : plan.action.carryOut setup.toolchain.toExecutor plan.command s with
  | ok _ u =>
      rw [carryOut_of_ok acted] at failed
      nomatch failed
  | error other u =>
      have ends := (kept.of_error acted).2.2.2
      generalize s.processesSince u = row at ends
      cases ends with
      | passed _ _ kind _ =>
          rw [carryOut_of_error (kind other rfl).ofBuild acted] at failed
          cases failed
          exact kind e rfl
      | failed earlier last _ _ =>
          rw [carryOut_of_toolFailed acted] at failed
          nomatch failed

end Setup

namespace Job
open Run

variable {job : Job} {setup : Setup}

theorem setup_failsAs (job : Job) : FailsAs (fun e => e.IsFault ∨ e = .lacksMember) job.setup := by
  have member := Properties.member_failsAs (Properties.sectionOf job.properties.data "targets")
    job.config.target.name
  refine ((member.bind fun _ => .pure _).mono fun _ => .inr).bind fun properties => ?_
  exact (Platform.ofProperties_failsAs properties).bind fun _ => .pure _

/-- The properties of the target are no table. -/
def Tableless (job : Job) (e : Failure) : Prop := job.setup = .error .lacksMember ∧ e = .lacksMember

theorem setUp_escaping : Obeys (escaping job.Tableless) job.setUp :=
  escaping_ofExcept fun e failed => (job.setup_failsAs e failed).imp_right fun (same : e = .lacksMember) =>
    ⟨same ▸ failed, same⟩

/-- A build with a way to go on has a file for its artifact, but for a name without a last part. -/
theorem nameless_of_outputFile (chosen : job.producer = .ok way)
    (failed : job.config.outputFile = .error e) : ∃ path, e = .emptyName path := by
  rcases Setup.outputFile_error failed with nameless | ⟨⟨name, unknown⟩, -⟩
  · exact nameless
  · simp [producer, unknown] at chosen

/-- What a file of the run directory, or a tool, does to a build. -/
theorem escaping_of_files {run : Run α} (weaker : ∀ e, Failure.IsOfFile e → F e)
    (kept : Obeys (stopsAtFailure Failure.IsOfFile) run) : Obeys (escaping F) run :=
  escaping_mono weaker kept.escaping_of_stops

section Link

/-- A failure of a build before its link that is no fault. -/
inductive StopsLink (job : Job) : Failure → Prop where
  | file (e) : e.IsOfFile → StopsLink job e
  | tableless : job.setup = .error .lacksMember → StopsLink job .lacksMember
  /-- The artifact is to go under a name without a last part. -/
  | nameless (path) : job.config.outputFile = .error (.emptyName path) → StopsLink job (.emptyName path)

theorem link_escaping {run : Run α} (kept : Obeys (stopsAtFailure Failure.IsOfFile) run) :
    Obeys (escaping job.StopsLink) run :=
  escaping_of_files .file kept

theorem link_setUp : Obeys (escaping job.StopsLink) job.setUp :=
  escaping_mono (fun | _, ⟨failed, rfl⟩ => .tableless failed) setUp_escaping

theorem adapterBitcode_escaping : Obeys (escaping job.StopsLink) job.adapterBitcode := by
  unfold adapterBitcode
  split
  · exact obeys_pure _
  · exact obeys_pure _
  · split
    · exact obeys_pure _
    · exact link_setUp.bind fun setup => (link_escaping (RunDirectory.named_toolless _ _).stops).bind
        fun _ => (link_escaping (Executor.runTool_stopsAtFailure _ _)).bind fun _ => obeys_pure _

theorem linkNative_escaping (library : String) :
    Obeys (escaping job.StopsLink) (linkNative library) := by
  intro s e failed
  have kind := (linkNative_toolless library s).2.2.2 e failed
  cases e with
  | fault => exact .inl trivial
  | zeroInPath | refusal => exact .inr (.file _ trivial)
  | _ => exact kind.elim

theorem produceProgram_escaping : Obeys (escaping job.StopsLink) job.produceProgram :=
  adapterBitcode_escaping.bind fun _ => (obeys_forM fun _ _ => linkNative_escaping _).bind fun _ =>
    (link_escaping (RunDirectory.named_toolless _ _).stops).bind fun _ => obeys_get.bind fun _ =>
    (link_escaping (Files.change_filesOnly _ _).toolless.stops).bind fun _ => obeys_pure _

theorem prepareLink_escaping (linked : job.producer = .ok .linked) :
    Obeys (escaping job.StopsLink) job.prepareLink := by
  refine produceProgram_escaping.bind fun program s => ?_
  refine (link_setUp s).bind fun setup t ran => ?_
  have same := (setup_of_ok (ofExcept_eq_ok.mp ran).1).1
  have misplaced (e : Failure) (kind : setup.Misplaces e) : job.StopsLink e := by
    rcases kind with kind | failed | unbundled
    · exact .file e kind
    · rw [same] at failed
      obtain ⟨path, rfl⟩ := nameless_of_outputFile linked failed
      exact .nameless path failed
    · exact absurd (same ▸ producer_bundled linked) unbundled
  refine Obeys.bind (link_escaping (setup.objectFiles_compiles _)) (fun objects => ?_) t
  refine Obeys.bind ?_ fun _ => obeys_pure _
  exact escaping_mono misplaced (setup.libraryInputs_stops _ _).escaping_of_stops

/-- A link that a build has come to fails with other than a fault only where the one object is copied in
place of linking it, on a refused file. -/
theorem finishLink_escapes (ready : job.prepareLink s = .ok (setup, inputs) mid)
    (failed : setup.finishLink inputs mid = .error e t) :
    e.IsFault ∨ setup.platform.recipe = .copy ∧ e.IsOfFile := by
  obtain ⟨program, u, -, rest⟩ := bind_eq_ok.mp ready
  obtain ⟨setup', v, given, rest⟩ := bind_eq_ok.mp rest
  obtain ⟨objects, w, made, rest⟩ := bind_eq_ok.mp rest
  obtain ⟨inputs', x, collected, rest⟩ := bind_eq_ok.mp rest
  obtain ⟨same, -⟩ := pure_eq_ok.mp rest
  obtain ⟨rfl, rfl⟩ := Prod.mk.inj same
  obtain ⟨object, rfl⟩ := Setup.objectFiles_single made
  have one := Setup.libraryInputs_objects collected
  rcases bind_eq_error.mp failed with unplanned | ⟨plan, y, planned, failed⟩
  · obtain ⟨name, -, rfl⟩ := (planLink_error_iff (ofExcept_eq_ok.mp given).1 _).mp
      (ofExcept_eq_error.mp unplanned).1
    exact .inl trivial
  · obtain ⟨command, -, ended⟩ := except_bind_eq_ok.mp (ofExcept_eq_ok.mp planned).1
    obtain rfl := except_pure_eq_ok.mp ended
    have breaks := Setup.carryOut_error failed
    simp only [Platform.action, one] at breaks
    split at breaks
    · split at breaks <;> exact breaks.elim
    · rename_i copied
      rcases breaks with kind | ⟨several, -⟩
      · exact .inr ⟨copied, kind⟩
      · exact absurd rfl several
    · exact breaks.elim

end Link

section Library

/-- A failure to produce a library that is no fault. -/
abbrev LosesLibrary (job : Job) (e : Failure) : Prop := e.IsOfLibrary ∨ job.Tableless e

theorem library_escaping {run : Run α} (kept : OnFiles Failure.IsOfLibrary run) :
    Obeys (escaping job.LosesLibrary) run :=
  kept.escaping fun _ kind => .inr (.inl kind)

theorem layOutLibrary_escaping (asked : job.config.produce = .kind .library) :
    Obeys (escaping job.LosesLibrary) job.layOutLibrary := by
  have named : FailsAs (fun e => e.IsFault ∨ job.LosesLibrary e) job.config.outputFile := by
    unfold Config.outputFile
    rw [asked]
    exact nofun
  refine (escaping_ofExcept named).bind fun _ => obeys_get.bind fun _ => Obeys.bind ?_ fun _ =>
    library_escaping (LibraryWriter.build_filesOnly _ _ _ _ _ _ _)
  exact escaping_of_files (fun _ kind => .inl kind.ofLibrary) (RunDirectory.named_toolless _ _).stops

theorem addArchive_escaping (library : LibraryWriter) (bitcode name : String) :
    Obeys (escaping job.LosesLibrary) (job.addArchive library bitcode name) :=
  (escaping_mono (fun _ => .inr) setUp_escaping).bind fun setup =>
    (escaping_of_files (fun _ kind => .inl kind.ofLibrary) (setup.staticLibrary_compiles _ _)).bind
      fun _ => library_escaping (library.copyInto_filesOnly _ _)

theorem produceLibrary_escaping (asked : job.config.produce = .kind .library) :
    Obeys (escaping job.LosesLibrary) job.produceLibrary :=
  (layOutLibrary_escaping asked).bind fun library =>
    (obeys_forM fun _ _ => addArchive_escaping library _ _).bind fun _ =>
    (addArchive_escaping library _ _).bind fun _ =>
    (library_escaping library.commit_filesOnly).bind fun _ => obeys_pure _

end Library

/-- How producing an artifact ends with a failure that is no fault. -/
inductive Escapes (job : Job) (s : Session) : Failure → Prop where
  /-- Bitcode is to go under a name without a last part. -/
  | bitcodeName (path) : job.producer = .ok .bitcode →
      job.config.outputFile = .error (.emptyName path) → Escapes job s (.emptyName path)
  /-- Bitcode is to go where it cannot be written. -/
  | bitcodeFile (e t file) : job.producer = .ok .bitcode → job.config.outputFile = .ok file →
      Files.write (Path.ofText file).text s.module s = .error e t → Escapes job s e
  | library (e t) : job.producer = .ok .library → job.produceLibrary s = .error e t →
      job.LosesLibrary e → ¬ e.IsFault → Escapes job s e
  | beforeLink (e t) : job.producer = .ok .linked → job.prepareLink s = .error e t →
      job.StopsLink e → Escapes job s e
  /-- Where an object is copied in place of linking it, it or the scripts beside it cannot be. -/
  | copying (e setup inputs mid t) : job.producer = .ok .linked →
      job.prepareLink s = .ok (setup, inputs) mid → setup.platform.recipe = .copy →
      setup.finishLink inputs mid = .error e t → e.IsOfFile → Escapes job s e

theorem Escapes.not_isFault (escapes : Escapes job s e) : ¬ e.IsFault := by
  have filed (kind : e.IsOfFile) : ¬ e.IsFault := kind.ofProperties.not_isFault
  cases escapes with
  | bitcodeName => exact id
  | bitcodeFile _ t file _ _ failed =>
      exact filed ((((Files.change_filesOnly _ _).obeys s).of_error failed).2 e rfl)
  | library _ _ _ _ _ other => exact other
  | beforeLink _ _ _ _ stops =>
      cases stops with
      | file _ kind => exact filed kind
      | tableless | nameless => exact id
  | copying _ _ _ _ _ _ _ _ _ kind => exact filed kind

theorem producer_failsAs (job : Job) : FailsAs Failure.IsFault job.producer := by
  intro e failed
  unfold producer at failed
  split at failed
  · cases failed
    trivial
  · nomatch failed
  · nomatch failed
  · split at failed <;> cases failed
    trivial
  · nomatch failed

theorem produceBitcode_error_iff (job : Job) (s : Session) :
    (∃ t, job.produceBitcode s = .error e t) ↔ job.config.outputFile = .error e ∨
      ∃ file t, job.config.outputFile = .ok file ∧
        Files.write (Path.ofText file).text s.module s = .error e t := by
  unfold produceBitcode
  cases named : job.config.outputFile with
  | error other => simp [Run.ofExcept, bind, EStateM.bind]
  | ok file =>
      simp only [Run.ofExcept, bind, EStateM.bind, pure, EStateM.pure, get_apply]
      cases written : Files.write (Path.ofText file).text s.module s <;> simp [written]

/-- Producing an artifact ends with a failure that is no fault exactly in these ways. -/
theorem produce_escapes_iff (job : Job) (s : Session) :
    ((∃ t, job.produce s = .error e t) ∧ ¬ e.IsFault) ↔ job.Escapes s e := by
  constructor
  · rintro ⟨⟨t, failed⟩, other⟩
    cases chosen : job.producer with
    | error problem =>
        obtain ⟨same, -⟩ : problem = e ∧ s = t := by
          simpa [produce, chosen, Run.ofExcept, bind, EStateM.bind] using failed
        exact absurd (job.producer_failsAs e (same ▸ chosen)) other
    | ok way =>
        obtain ⟨u, failed, -⟩ := (produce_error_iff chosen).mp failed
        cases way with
        | bitcode =>
            rcases (produceBitcode_error_iff job s).mp ⟨u, failed⟩ with nameless | ⟨file, v, named, failed⟩
            · obtain ⟨path, rfl⟩ := nameless_of_outputFile chosen nameless
              exact .bitcodeName path chosen nameless
            · exact .bitcodeFile e v file chosen named failed
        | library =>
            have kind := (produceLibrary_escaping ((kind_of_producer chosen).2.mp rfl)).escapes failed
            exact .library e u chosen failed (kind.resolve_left other) other
        | linked =>
            rcases bind_eq_error.mp failed with failed | ⟨⟨setup, inputs⟩, mid, ready, failed⟩
            · have kind := (prepareLink_escaping chosen).escapes failed
              exact .beforeLink e u chosen failed (kind.resolve_left other)
            · obtain ⟨copied, kind⟩ := (finishLink_escapes ready failed).resolve_left other
              exact .copying e setup inputs mid u chosen ready copied failed kind
  · intro escapes
    refine ⟨?_, escapes.not_isFault⟩
    have ended {way : Producer} {u : Session} (chosen : job.producer = .ok way)
        (failed : job.produceBy way s = .error e u) : ∃ t, job.produce s = .error e t := by
      obtain ⟨t, removed, -⟩ := RunDirectory.remove_ok u
      exact ⟨t, (produce_error_iff chosen).mpr ⟨u, failed, removed⟩⟩
    cases escapes with
    | bitcodeName path chosen nameless =>
        obtain ⟨u, failed⟩ := (produceBitcode_error_iff job s).mpr (.inl nameless)
        exact ended chosen failed
    | bitcodeFile _ t file chosen named failed =>
        obtain ⟨u, failed⟩ := (produceBitcode_error_iff job s).mpr (.inr ⟨file, t, named, failed⟩)
        exact ended chosen failed
    | library _ u chosen failed => exact ended chosen failed
    | beforeLink _ u chosen failed => exact ended chosen (bind_eq_error.mpr (.inl failed))
    | copying _ setup inputs mid u chosen ready _ failed =>
        exact ended chosen (bind_eq_error.mpr (.inr ⟨(setup, inputs), mid, ready, failed⟩))

end Job

end Foundry
