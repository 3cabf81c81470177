import Foundry.Proofs.Build.Cleanup
import Foundry.Proofs.Build.Produce
import Foundry.Proofs.Files.Extension
import Foundry.Proofs.Link.Outputs

/-! What a build that makes no library changes. Whether it succeeds or not, its run directory is gone
afterwards, and the artifact is all that it leaves: one file, with a script beside it for WebAssembly
and in the directories of its bundle for a framework. -/
namespace Foundry

open FileSystem Run

namespace Config

/-- The library in the bundle of a framework. -/
def frameworkLibrary (c : Config) : Except Failure Path := do
  let file ← c.outputFile
  let bundle := Path.ofText file
  let place ← Setup.frameworkPlace c.target (Text.dropTail bundle.name Setup.frameworkSuffix)
  pure (bundle.child place)

/-- The file that a build makes. -/
def artifact (c : Config) : Except Failure String :=
  if c.produce = .kind .framework then c.frameworkLibrary.map Path.text else c.outputFile

/-- A place of a file that the build makes, seen from the directory `here`. -/
def Publishes (c : Config) (here : Location) (place : Location) : Prop :=
  ∃ artifact, c.artifact = .ok artifact ∧
    (place = spot here artifact ∨
      c.produce ≠ .kind .bitcode ∧ c.target.family = .wasm ∧ place = spot here (artifact ++ ".js"))

/-- A place of a directory in or above the bundle of a framework, on the way to its library. -/
def Bundles (c : Config) (here : Location) (place : Location) : Prop :=
  c.produce = .kind .framework ∧
    ∃ library, c.frameworkLibrary = .ok library ∧ library.parent.Leads here place

end Config

/-- The run directory of a build when all its work is done, before it is removed. -/
def Job.runDirectory? (job : Job) (s : Session) : Option String :=
  match job.producer with
  | .ok way => ((job.produceBy way).after s).runDirectory
  | .error _ => none

/-- No setting of a build that stands before the name of an output is the flag for it. -/
structure Job.FlagFree (job : Job) : Prop where
  adapter : job.config.adapterSource ≠ some "-o"
  properties : ∀ properties, job.properties.forTarget job.config.target = .ok properties →
    properties.FlagFree

namespace Session

/-- A session of this build, in a run directory. -/
abbrev Builds (origin : Session) (c : Config) (directory : String) : Session → Prop :=
  origin.Confined (c.Publishes origin.files.here) (c.Bundles origin.files.here) directory

end Session

namespace Run

theorem modify_bystanding {f : Session → Session}
    (kept : ∀ s, (f s).files = s.files ∧ (f s).host = s.host ∧
      (f s).runDirectory = s.runDirectory ∧ (f s).started = s.started) :
    Obeys bystanding (modify f : Run PUnit) := kept

theorem report_bystanding (notice : Notice) (stage : String) :
    Obeys bystanding (Run.report notice stage) := modify_bystanding fun _ => ⟨rfl, rfl, rfl, rfl⟩

end Run

variable {origin : Session} {F D : Location → Prop} {directory : String} {job : Job} {setup : Setup}

namespace LinkAction

theorem flush_keeping {p : Pending} (allowed : F (spot origin.files.here p.path)) :
    Obeys (keeping (origin.Confined F D directory)) p.flush := write_keeping (.inl allowed) _

theorem add_keeping {p : Pending} (allowed : F (spot origin.files.here p.path)) (piece : Bytes) :
    Obeys (keeping (origin.Confined F D directory)) (p.add piece) := by
  unfold Pending.add
  split
  · exact obeys_pure _
  · exact (write_keeping (.inl allowed) _).bind fun _ => obeys_pure _

/-- A file that grows stays under its path. -/
theorem add_path {p next : Pending} (ran : p.add piece s = .ok next t) : next.path = p.path := by
  unfold Pending.add at ran
  split at ran
  · obtain ⟨rfl, -⟩ := pure_eq_ok.mp ran
    rfl
  · obtain ⟨_, u, -, given⟩ := bind_eq_ok.mp ran
    obtain ⟨rfl, -⟩ := pure_eq_ok.mp given
    split <;> rfl

theorem addFiles_keeping {p : Pending} (allowed : F (spot origin.files.here p.path))
    (files : List String) : Obeys (keeping (origin.Confined F D directory)) (p.addFiles files) := by
  induction files generalizing p with
  | nil => exact flush_keeping allowed
  | cons file rest ih =>
      have asking : Obeys bystanding (Files.read (Path.ofText file).text) :=
        (Files.ask_filesOnly _ _).bystanding (Files.ask_still _ _)
      have reading : Obeys (keeping (origin.Confined F D directory))
          (Files.read (Path.ofText file).text) := .keeping asking
      refine Obeys.bind ?_ fun content s => ?_
      · refine Obeys.tryCatch reading fun e s t failed confined => ?_
        have failing : Obeys (keeping (origin.Confined F D directory))
            (p.flush >>= fun _ => (throw e : Run Bytes)) :=
          (flush_keeping allowed).bind fun _ => .keeping (throw_bystanding e)
        exact failing t ((reading s).of_error failed confined)
      · refine (add_keeping allowed content s).bind fun next t added => ?_
        exact ih (add_path added ▸ allowed) t

/-- What is written after the start of a script goes to the same file. -/
theorem script_keeping {p : Pending} (allowed : F (spot origin.files.here p.path)) (piece : Bytes)
    (scripts : List String) : Obeys (keeping (origin.Confined F D directory))
      (p.add piece >>= fun script => script.addFiles scripts) := by
  intro s
  refine (add_keeping allowed piece s).bind fun script t added => ?_
  exact addFiles_keeping (add_path added ▸ allowed) scripts t

theorem writeScript_keeping {artifact : String}
    (allowed : F (spot origin.files.here (artifact ++ ".js"))) (scripts : List String) :
    Obeys (keeping (origin.Confined F D directory)) (writeScript artifact scripts) := by
  rw [← Path.spot_ofText] at allowed
  have writing : writeScript artifact scripts = (do
      Files.write (Path.ofText (artifact ++ ".js")).text []
      (Pending.add { path := (Path.ofText (artifact ++ ".js")).text } (Utf8.encode scriptStart) >>=
        fun script => script.addFiles scripts)
      pure (Path.ofText (artifact ++ ".js")).name) := by
    simp only [writeScript, bind_assoc]
  rw [writing]
  refine (write_keeping (.inl allowed) _).bind fun _ => Obeys.bind ?_ fun _ => obeys_pure _
  exact script_keeping (p := { path := (Path.ofText (artifact ++ ".js")).text }) allowed _ scripts

theorem copyWithScript_keeping {artifact : String} (allowed : F (spot origin.files.here artifact))
    (allowed' : F (spot origin.files.here (artifact ++ ".js"))) (objects : List String)
    (executor : Executor) (command : Command) :
    Obeys (keeping (origin.Confined F D directory))
      ((copyWithScript objects artifact).carryOut executor command) := by
  match objects with
  | [object] =>
      refine (Obeys.keeping (executor.logger.log_bystanding _)).bind fun _ => ?_
      refine (copy_keeping (.inl allowed)).bind fun _ => ?_
      exact (writeScript_keeping allowed' _).map _
  | [] | _ :: _ :: _ => exact .keeping (throw_bystanding _)

end LinkAction

namespace Setup

/-- A linker is told to write the artifact that the link is for. -/
theorem planLink_writes {properties : TargetProperties} {inputs : LinkInputs} {plan : LinkPlan}
    (made : Platform.ofProperties properties = .ok setup.platform) (free : properties.FlagFree)
    (notCopy : setup.platform.recipe ≠ .copy) (planned : setup.planLink inputs = .ok plan) :
    plan.command.Writes inputs.output := by
  obtain ⟨command, whole, planned⟩ := except_bind_eq_ok.mp planned
  obtain rfl := except_pure_eq_ok.mp planned
  obtain ⟨linking, linked, whole⟩ := except_bind_eq_ok.mp whole
  obtain rfl := except_pure_eq_ok.mp whole
  have writes := Platform.linkCommand_writes made free notCopy linked
  exact ((((((writes.withFlags _).withFlags _).withFlags _).withFlags _).withFlags _).withFlags
    _).withLibraries _

/-- The tools of a link write the artifact that the link is for. -/
theorem planLink_keeping {properties : TargetProperties} {inputs : LinkInputs} {plan : LinkPlan}
    (made : Platform.ofProperties properties = .ok setup.platform) (free : properties.FlagFree)
    (allowed : F (spot origin.files.here inputs.output))
    (allowed' : properties.target.family = .wasm → F (spot origin.files.here (inputs.output ++ ".js")))
    (planned : setup.planLink inputs = .ok plan) (executor : Executor) :
    Obeys (keeping (origin.Confined F D directory)) (plan.action.carryOut executor plan.command) := by
  have linker (notCopy : setup.platform.recipe ≠ .copy) :
      Obeys (keeping (origin.Confined F D directory)) (executor.runTool plan.command) := by
    refine Executor.runTool_keeping fun path member => ?_
    rw [(planLink_writes made free notCopy planned).outputs, List.mem_singleton] at member
    rw [member]
    exact .inl allowed
  obtain ⟨command, -, planned⟩ := except_bind_eq_ok.mp planned
  obtain rfl := except_pure_eq_ok.mp planned
  have family := (Platform.recipe_of_family made).1
  unfold Platform.action
  dsimp only
  split
  · rename_i dsymutil libLto recipe
    have linking := linker (by simp [recipe])
    split
    · refine linking.bind fun _ => Executor.runTool_keeping fun path member => ?_
      have tool := ((Platform.recipe_of_family made).2 _ _ recipe).1
      rw [Platform.extractCommand_outputs _ _ tool] at member
      contradiction
    · exact linking
  · rename_i recipe
    exact LinkAction.copyWithScript_keeping allowed (allowed' (family.mp recipe)) _ _ _
  · rename_i notApple notCopy
    exact linker fun same => notCopy same

/-- The directories of the bundle of a framework are made, and nothing else. -/
theorem linkOutput_keeping :
    Obeys (keeping (origin.Builds setup.config directory)) setup.linkOutput := by
  refine ofExcept_keeping fun file named => ?_
  split
  · exact obeys_pure _
  · rename_i framework
    refine ofExcept_keeping fun place inBundle => ?_
    refine (makeDirectories_keeping fun other leads => ?_).bind fun _ => ?_
    · refine .inl ⟨Decidable.not_not.mp framework, _, ?_, leads⟩
      simp [Config.frameworkLibrary, bind, Except.bind, named, inBundle, pure, Except.pure]
    · have resolving : Obeys Run.bystanding (Files.absolute ((Path.ofText file).child place)) :=
        fun _ => ⟨rfl, rfl, rfl, rfl⟩
      exact (Obeys.keeping resolving).bind fun _ => obeys_pure _

theorem linkOutput_ok {s t : Session} (proper : Proper s.files.here)
    (bundled : Bundled setup.config) (linked : setup.config.produce ≠ .kind .bitcode)
    (ran : setup.linkOutput s = .ok (output, flags) t) :
    setup.config.Publishes s.files.here (spot s.files.here output) ∧
      (setup.config.target.family = .wasm →
        setup.config.Publishes s.files.here (spot s.files.here (output ++ ".js"))) := by
  obtain ⟨file, u, found, rest⟩ := bind_eq_ok.mp ran
  obtain ⟨named, rfl⟩ := ofExcept_eq_ok.mp found
  split at rest
  · rename_i other
    obtain ⟨same, -⟩ := pure_eq_ok.mp rest
    obtain ⟨rfl, -⟩ := Prod.mk.inj same
    have artifact : setup.config.artifact = .ok file := by
      rw [Config.artifact, if_neg other, named]
    exact ⟨⟨_, artifact, .inl rfl⟩, fun wasm => ⟨_, artifact, .inr ⟨linked, wasm, rfl⟩⟩⟩
  · rename_i framework
    obtain ⟨place, v, found, rest⟩ := bind_eq_ok.mp rest
    obtain ⟨inBundle, rfl⟩ := ofExcept_eq_ok.mp found
    obtain ⟨_, w, made, rest⟩ := bind_eq_ok.mp rest
    obtain ⟨library, x, resolved, given⟩ := bind_eq_ok.mp rest
    obtain ⟨same, -⟩ := pure_eq_ok.mp given
    obtain ⟨rfl, -⟩ := Prod.mk.inj same
    have growing : Obeys (extending s.files.here fun _ => False)
        (Files.makeDirectories ((Path.ofText file).child place).parent) :=
      Files.makeDirectories_extending _
    have here := ((growing s).of_ok made rfl).here
    have clean := Path.child_clean (Path.ofText_clean file) place
    obtain ⟨there, -, -⟩ := Files.absolute_spot (here ▸ proper) clean resolved
    rw [here] at there
    have framework := Decidable.not_not.mp framework
    have artifact : setup.config.artifact = .ok ((Path.ofText file).child place).text := by
      simp [Config.artifact, framework, Config.frameworkLibrary, bind, Except.bind, named, inBundle,
        pure, Except.pure, Except.map]
    refine ⟨⟨_, artifact, .inl there⟩, fun wasm => ?_⟩
    rw [bundled framework] at wasm
    contradiction

theorem staticLibraries_bystanding (files : List String) :
    Obeys Run.bystanding (setup.staticLibraries files) := by
  refine Obeys.bind (obeys_forM fun file _ => ?_) fun _ => obeys_pure _
  unfold reportSkipped
  split
  · exact report_bystanding _ _
  · exact obeys_pure _

theorem libraryInputs_keeping (home : String) (objects : List String) :
    Obeys (keeping (origin.Builds setup.config directory)) (setup.libraryInputs home objects) := by
  refine (Obeys.keeping (setup.toolchain.logger.log_bystanding _)).bind fun _ => ?_
  refine linkOutput_keeping.bind fun _ => ?_
  exact (Obeys.keeping (staticLibraries_bystanding _)).bind fun _ => obeys_pure _

/-- The link is for the artifact. -/
theorem libraryInputs_ok {s t : Session} (proper : Proper s.files.here)
    (bundled : Bundled setup.config) (linked : setup.config.produce ≠ .kind .bitcode)
    (ran : setup.libraryInputs home objects s = .ok inputs t) :
    setup.config.Publishes s.files.here (spot s.files.here inputs.output) ∧
      (setup.config.target.family = .wasm →
        setup.config.Publishes s.files.here (spot s.files.here (inputs.output ++ ".js"))) := by
  obtain ⟨_, u, logged, rest⟩ := bind_eq_ok.mp ran
  have files := ((setup.toolchain.logger.log_bystanding _ s).of_ok logged).1
  obtain ⟨⟨output, flags⟩, v, found, rest⟩ := bind_eq_ok.mp rest
  obtain ⟨archives, w, -, given⟩ := bind_eq_ok.mp rest
  obtain ⟨rfl, -⟩ := pure_eq_ok.mp given
  rw [← files] at proper ⊢
  exact linkOutput_ok proper bundled linked found

/-- A failed link is reported, which changes no file. -/
theorem finishLink_keeping {properties : TargetProperties} {inputs : LinkInputs}
    (made : Platform.ofProperties properties = .ok setup.platform) (free : properties.FlagFree)
    (allowed : F (spot origin.files.here inputs.output))
    (allowed' : properties.target.family = .wasm →
      F (spot origin.files.here (inputs.output ++ ".js"))) :
    Obeys (keeping (origin.Confined F D directory)) (setup.finishLink inputs) := by
  refine ofExcept_keeping fun plan planned => ?_
  have acting : Obeys (keeping (origin.Confined F D directory))
      (plan.action.carryOut setup.toolchain.toExecutor plan.command) :=
    planLink_keeping made free allowed allowed' planned _
  have linking := acting.bind fun _ => obeys_pure (some plan.output)
  refine Obeys.tryCatch linking fun e s t failed confined => ?_
  have confined := (linking s).of_error failed confined
  split
  · have reporting : Obeys (keeping (origin.Confined F D directory))
        (Run.report .linkFailed "link" >>= fun _ => (pure none : Run (Option String))) :=
      (Obeys.keeping (report_bystanding _ _)).bind fun _ => obeys_pure _
    exact reporting t confined
  · exact Obeys.keeping (throw_bystanding e) t confined

end Setup

namespace Job

theorem linkNative_bystanding (library : String) : Obeys Run.bystanding (linkNative library) := by
  have reading : Obeys Run.bystanding (Files.read (Path.ofText library).text) :=
    (Files.ask_filesOnly _ _).bystanding (Files.ask_still _ _)
  refine Obeys.bind ?_ fun bitcode s => ?_
  · refine Obeys.tryCatch reading fun e s t failed => ?_
    have kept := (reading s).of_error failed
    split
    · exact kept
    · exact kept
  · refine (obeys_get s).bind fun session t ran => ?_
    cases ran
    split
    · exact ⟨rfl, rfl, rfl, rfl⟩
    · exact ⟨rfl, rfl, rfl, rfl⟩

theorem adapterBitcode_begun {F D : String → Location → Prop} (ready : origin.Ready)
    (free : job.FlagFree) :
    Obeys (keeping (origin.Begun F D)) job.adapterBitcode := by
  unfold adapterBitcode
  split
  · exact obeys_pure _
  · exact obeys_pure _
  · rename_i source _ given
    split
    · exact obeys_pure _
    · refine ofExcept_keeping fun setup made => ?_
      obtain ⟨-, properties, read, made⟩ := setup_of_ok made
      refine named_begun ready (by decide) fun directory output there => ?_
      have flags := Platform.flags_free made (free.properties _ read) .clang
      have source' : source ≠ "-o" := by
        rintro rfl
        exact free.adapter given
      have absent : "-o" ∉ ["-x", "c++", "-c", "-emit-llvm"] ++ setup.platform.flags .clang ++ [source] := by
        simp [flags, Ne.symm source']
      have args : ["-x", "c++", "-c", "-emit-llvm"] ++ setup.platform.flags .clang ++
          [source, "-o", output] =
          (["-x", "c++", "-c", "-emit-llvm"] ++ setup.platform.flags .clang ++ [source]) ++
            "-o" :: output :: [] := by simp
      have clang : job.properties.distribution.clang =
          job.properties.distribution.llvmBin ++ "/" ++ "clang" := by
        rw [← String.toList_inj]
        simp [Distribution.clang, toString]
      have writes : Command.Writes ⟨_, _ ++ "-o" :: output :: [], []⟩ output :=
        Command.writes_of_tool _ _ _ clang (by decide) (by decide) absent []
      rw [args]
      refine (Executor.runTool_keeping fun path member => ?_).bind fun _ => obeys_pure _
      rw [writes.outputs, List.mem_singleton] at member
      rw [member]
      exact .inr ⟨_, there⟩

/-- Compile and link the program that was written. -/
def linkProgram (job : Job) (program : String) : Run (Option String) := do
  Files.write (Path.ofText program).text (← get).module
  let setup ← job.setUp
  let objects ← setup.objectFiles [program]
  let inputs ← setup.libraryInputs job.properties.distribution.home objects
  setup.finishLink inputs

theorem produceLinked_eq (job : Job) : job.produceLinked = (do
    let adapter ← job.adapterBitcode
    (job.config.nativeLibraries ++ job.config.defaultNativeLibraries ++ adapter.toList).forM linkNative
    RunDirectory.programBitcode RunDirectory.buildStem >>= job.linkProgram) := by
  simp only [produceLinked, prepareLink, produceProgram, bind_assoc, pure_bind]
  rfl

theorem target_of_forTarget {p : Properties} {properties : TargetProperties}
    (read : p.forTarget target = .ok properties) :
    properties.target = target := by
  obtain ⟨table, -, read⟩ := except_bind_eq_ok.mp read
  rw [← except_pure_eq_ok.mp read]

theorem not_bitcode_of_linked (linked : job.producer = .ok .linked) :
    job.config.produce ≠ .kind .bitcode := by
  intro bitcode
  simp [producer, bitcode] at linked

theorem linkProgram_keeping (linked : job.producer = .ok .linked) (free : job.FlagFree)
    (there : spot origin.files.here program = spot origin.files.here directory ++ ["program.bc"]) :
    Obeys (keeping (origin.Builds job.config directory)) (job.linkProgram program) := by
  have inside : within (spot origin.files.here directory)
      (spot origin.files.here (Path.ofText program).text) = true := by
    rw [Path.spot_ofText, there, within_append]
  have notFlag : program ≠ "-o" := by
    rintro rfl
    have flag : spot origin.files.here "-o" = origin.files.here ++ ["-o"] := rfl
    rw [flag] at there
    have last := (List.append_inj' there rfl).2
    simp at last
  refine obeys_get.bind fun session => (write_keeping (.inr inside) _).bind fun _ => ?_
  refine ofExcept_keeping fun setup made => ?_
  obtain ⟨config, properties, read, made⟩ := setup_of_ok made
  have target := target_of_forTarget read
  have free := free.properties _ read
  have bundled := producer_bundled linked
  have linked := not_bitcode_of_linked linked
  rw [← config] at target bundled linked ⊢
  have codeFlags : setup.NamesOutputs := by
    unfold Setup.NamesOutputs Setup.codeFlags
    split
    · exact Platform.flags_free made free _
    · split <;> exact Platform.flags_free made free _
  refine (Setup.objectFiles_keeping codeFlags notFlag).bind fun objects s confined => ?_
  refine (Setup.libraryInputs_keeping _ _ s).bind (fun inputs t collected => ?_) confined
  have proper : Proper s.files.here := (confined.files.sound confined.sound).here
  obtain ⟨allowed, allowed'⟩ := Setup.libraryInputs_ok proper bundled linked collected
  rw [confined.here] at allowed allowed'
  exact Setup.finishLink_keeping made free allowed (target ▸ allowed') t

theorem produceLinked_begun (ready : origin.Ready) (linked : job.producer = .ok .linked)
    (free : job.FlagFree) :
    Obeys (keeping (origin.Begun (fun _ => job.config.Publishes origin.files.here)
      fun _ => job.config.Bundles origin.files.here)) job.produceLinked := by
  rw [produceLinked_eq]
  refine (adapterBitcode_begun ready free).bind fun adapter => ?_
  refine (obeys_forM fun library _ => begun_of_bystanding (linkNative_bystanding library)).bind
    fun _ => ?_
  exact named_begun ready (by decide) fun directory program there =>
    linkProgram_keeping linked free there

/-- Bitcode is written as it is, and nothing else is done. -/
theorem produceBitcode_after (bitcode : job.config.produce = .kind .bitcode) (s : Session) :
    ∃ fs, job.produceBitcode.after s = { s with files := fs } ∧
      s.files.Changes (job.config.Publishes s.files.here) (job.config.Bundles s.files.here) fs := by
  have untouched (run : Run (Option String)) (still : run.after s = s) :
      ∃ fs, run.after s = { s with files := fs } ∧ s.files.Changes
        (job.config.Publishes s.files.here) (job.config.Bundles s.files.here) fs :=
    ⟨s.files, still, .refl _⟩
  cases named : job.config.outputFile with
  | error e =>
      apply untouched
      have failed : job.produceBitcode s = .error e s :=
        bind_eq_error.mpr (.inl (ofExcept_eq_error.mpr ⟨named, rfl⟩))
      exact after_of_error failed
  | ok output =>
      have writing : job.produceBitcode s =
          (Files.write (Path.ofText output).text s.module >>= fun _ => pure (some output)) s := by
        simp only [produceBitcode, named]
        rfl
      cases written : Files.write (Path.ofText output).text s.module s with
      | error e t =>
          obtain rfl := Files.change_error written
          apply untouched
          rw [after_of_error (writing.trans (bind_eq_error.mpr (.inl written)))]
      | ok _ t =>
          obtain ⟨fs, done, rfl⟩ := Files.change_ok written
          have published : job.config.Publishes s.files.here
              (spot s.files.here (Path.ofText output).text) := by
            refine ⟨output, ?_, .inl (Path.spot_ofText _ _)⟩
            simp [Config.artifact, bitcode, named]
          refine ⟨fs, ?_, write_changes done published⟩
          rw [after_of_ok (writing.trans (bind_eq_ok.mpr ⟨_, _, written, rfl⟩))]

theorem produce_of_chosen {way : Producer} (chosen : job.producer = .ok way) (s : Session) :
    job.produce.after s = RunDirectory.remove.after ((job.produceBy way).after s) ∧
      job.runDirectory? s = ((job.produceBy way).after s).runDirectory := by
  have whole : job.produce.after s =
      (Run.ensuring (job.produceBy way) RunDirectory.remove).after s := by
    simp only [after, produce, chosen]
    rfl
  refine ⟨whole.trans (after_ensuring _ _ s), ?_⟩
  simp only [runDirectory?, chosen]

/-- However a build ends that makes no library, its run directory is gone, and all that differs from
before is the artifact, with the directories that its bundle needed. A build of bitcode starts no
process and never comes to a run directory. -/
theorem produce_leaves_artifact {s : Session} {kind : ArtifactKind} (ready : s.Ready)
    (asked : job.config.produce = .kind kind) (other : kind ≠ .library) (free : job.FlagFree) :
    let t := job.produce.after s
    t.runDirectory = none ∧
      (∀ directory, job.runDirectory? s = some directory →
        ∀ rest, t.files.entry? (spot s.files.here directory ++ rest) = none) ∧
      (∀ place, ¬ job.config.Publishes s.files.here place →
        t.files.entry? place = s.files.entry? place ∨
          job.config.Bundles s.files.here place ∧ s.files.entry? place = none ∧
            t.files.entry? place = some .directory) ∧
      (kind = .bitcode → t.started = s.started ∧ t.draws = s.draws ∧ job.runDirectory? s = none) := by
  intro t
  cases chosen : job.producer with
  | error e =>
      have failed : job.produce s = .error e s :=
        bind_eq_error.mpr (.inl (ofExcept_eq_error.mpr ⟨chosen, rfl⟩))
      have same : t = s := after_of_error failed
      have none : job.runDirectory? s = none := by simp only [runDirectory?, chosen]
      simp [same, none, ready.runDirectory]
  | ok way =>
      obtain ⟨ended, directory?⟩ := produce_of_chosen chosen s
      have ended : t = RunDirectory.remove.after ((job.produceBy way).after s) := ended
      obtain ⟨ofBitcode, ofLibrary⟩ := kind_of_producer chosen
      rw [asked, Request.kind.injEq] at ofBitcode ofLibrary
      cases way with
      | library => exact absurd (ofLibrary.mp rfl) other
      | linked =>
          -- from its first intermediate file on the build has a run directory, which is removed at its end
          have linking := produceLinked_begun ready chosen free s ready.begun
          have begun : s.Begun (fun _ => _) (fun _ => _) ((job.produceBy .linked).after s) := linking
          obtain ⟨u, removed, cleared, gone⟩ := RunDirectory.remove_ended begun.ended
          rw [after_of_ok removed] at ended
          rw [ended, directory?]
          refine ⟨cleared.runDirectory, gone, cleared.files.places, fun bitcode => ?_⟩
          nomatch ofBitcode.mpr bitcode
      | bitcode =>
          -- there is never a run directory: the bitcode is written right away
          have bitcode := ofBitcode.mp rfl
          obtain ⟨fs, written, changed⟩ := produceBitcode_after (bitcode ▸ asked) s
          have written : (job.produceBy .bitcode).after s = { s with files := fs } := written
          have none : ((job.produceBy .bitcode).after s).runDirectory = none := by
            rw [written]
            exact ready.runDirectory
          have kept : RunDirectory.remove { s with files := fs } = .ok () { s with files := fs } :=
            RunDirectory.remove_of_none ready.runDirectory
          rw [written, after_of_ok kept] at ended
          have cleared : s.Cleared (job.config.Publishes s.files.here)
              (job.config.Bundles s.files.here) t := by
            rw [ended]
            exact ⟨ready.runDirectory, changed⟩
          rw [directory?, none]
          refine ⟨cleared.runDirectory, by simp, cleared.files.places, fun _ => ?_⟩
          simp [ended]

/-- A framework. -/
def ofFramework : Job where
  config := { target := .iosArm64, produce := .kind .framework, outputName := "out/app" }
  properties := {
    data := [("targets", .table [("ios_arm64", .table [
      ("target_toolchain", .text "toolchain"), ("target_sysroot", .text "sysroot"),
      ("arch", .text "arm64"), ("os_version_min_flag_ld", .text "-ios_version_min"),
      ("os_version_min", .text "9.0")])])]
    path := "kiln.toml"
    sources := ["kiln.toml"]
    distribution := { home := "/home", llvmHome := "/llvm" } }

theorem flagFree_ofFramework : ofFramework.FlagFree := by
  refine ⟨by decide, fun properties read => ?_⟩
  obtain rfl := Except.ok.inj read
  exact TargetProperties.flagFree_of_values rfl (by decide) (by decide)

/-- A framework is linked into its bundle, which is made for it. -/
theorem framework_leaves_bundle :
    let t := ofFramework.produce.after .blank
    Session.blank.Ready ∧ ofFramework.FlagFree ∧ t.runDirectory = none ∧
      ∀ place, ¬ ofFramework.config.Publishes ["work"] place →
        t.files.entry? place = Session.blank.files.entry? place ∨
          ofFramework.config.Bundles ["work"] place ∧ Session.blank.files.entry? place = none ∧
            t.files.entry? place = some .directory := by
  have ready : Session.blank.Ready := ⟨Sound.of_entries (by decide) (by decide), rfl⟩
  obtain ⟨removed, -, places, -⟩ :=
    @produce_leaves_artifact ofFramework _ _ ready rfl (by decide) flagFree_ofFramework
  exact ⟨ready, flagFree_ofFramework, removed, places⟩

end Job

end Foundry
