import Foundry.Proofs.Build.FailStop
import Foundry.Proofs.Link.LateProperties

/-! When a fault of the configuration stops a build that has run tools already: exactly where the link
command misses a property that is not read before. -/
namespace Foundry

/-- A run that has started a tool when it succeeds. -/
def Run.Starts (run : Run α) : Prop :=
  ∀ s a t, run s = .ok a t → s.started.length < t.started.length

namespace Setup
open Run

theorem starts_first {run : Run α} {next : α → Run β} (first : Starts run)
    (rest : ∀ a, Compiles (next a)) : Starts (run >>= next) := by
  intro s b u ran
  obtain ⟨a, t, ran, went⟩ := bind_eq_ok.mp ran
  have grown : t.started <+: u.started := ((rest a).growing t).of_ok went
  exact Nat.lt_of_lt_of_le (first s a t ran) grown.length_le

theorem starts_later {run : Run α} {next : α → Run β} (first : Compiles run)
    (rest : ∀ a, Starts (next a)) : Starts (run >>= next) := by
  intro s b u ran
  obtain ⟨a, t, ran, went⟩ := bind_eq_ok.mp ran
  have grown : s.started <+: t.started := (first.growing s).of_ok ran
  exact Nat.lt_of_le_of_lt grown.length_le (rest a t b u went)

theorem runTool_starts (executor : Executor) (command : Command) :
    Starts (executor.runTool command) := by
  intro s _ t ran
  obtain ⟨output, errors, journal, done⟩ := executor.runTool_ok command s
  rw [done] at ran
  dsimp only at ran
  split at ran <;> cases ran
  simp [Session.afterProcess, Session.start]

theorem optimizeBitcode_starts (s : Setup) (file : String) : Starts (s.optimizeBitcode file) :=
  starts_later (fresh_compiles _ _) fun _ =>
    starts_first (runTool_starts _ _) fun _ => obeys_pure _

theorem wasmOf_starts (s : Setup) (files : List String) : Starts (s.wasmOf files) :=
  starts_later (fresh_compiles _ _) fun _ => starts_later (hostTool_compiles _ _ _) fun _ =>
    starts_later (fresh_compiles _ _) fun _ => starts_later (targetTool_compiles _ _ _) fun _ =>
    starts_later (fresh_compiles _ _) fun _ => starts_later (targetTool_compiles _ _ _) fun _ =>
    starts_later (fresh_compiles _ _) fun _ => starts_later (fresh_compiles _ _) fun _ =>
    starts_first (runTool_starts _ _) fun _ => obeys_pure _

theorem objectFiles_starts (s : Setup) (file : String) : Starts (s.objectFiles [file]) := by
  unfold objectFiles
  split
  · exact starts_first (s.wasmOf_starts [file]) fun _ => obeys_pure _
  · exact starts_first (starts_first (s.optimizeBitcode_starts file) fun _ =>
      s.compileBitcode_compiles _) fun _ => obeys_pure _

end Setup

namespace Job
open Run

variable {job : Job} {s mid : Session} {setup : Setup}

/-- A build that comes to its link has a setup and has compiled something. -/
theorem prepareLink_of_ok (linked : job.producer = .ok .linked)
    (ready : job.prepareLink s = .ok (setup, inputs) mid) :
    job.setup = .ok setup ∧ s.started.length < mid.started.length := by
  obtain ⟨program, t, compiled, rest⟩ := bind_eq_ok.mp ready
  obtain ⟨setup', u, given, rest⟩ := bind_eq_ok.mp rest
  obtain ⟨objects, v, made, rest⟩ := bind_eq_ok.mp rest
  obtain ⟨inputs', w, collected, rest⟩ := bind_eq_ok.mp rest
  obtain ⟨same, rfl⟩ := pure_eq_ok.mp rest
  obtain ⟨rfl, rfl⟩ := Prod.mk.inj same
  obtain ⟨chosen, rfl⟩ := ofExcept_eq_ok.mp given
  have bundled : Setup.Bundled setup'.config := (setup_of_ok chosen).1 ▸ producer_bundled linked
  have first : s.started <+: t.started := (Proceeds.growing produceProgram_proceeds s).of_ok compiled
  have last : v.started <+: w.started :=
    ((setup'.libraryInputs_links bundled _ _).growing v).of_ok collected
  have strict := setup'.objectFiles_starts program t objects v made
  have := first.length_le
  have := last.length_le
  exact ⟨chosen, by omega⟩

/-- Before its link, a build that has started a tool fails with no fault of the configuration. -/
theorem Proceeds.not_configuration {run : Run α} (kept : Obeys job.proceeds run)
    (failed : run s = .error (.fault f) t) (started : t.started ≠ s.started) :
    f.kind ≠ .configuration := by
  obtain ⟨⟨_, _, _, ends⟩, guarded⟩ := (kept s).of_error failed
  obtain ⟨setup, ready⟩ := guarded started
  generalize s.processesSince t = row at ends
  cases ends with
  | passed _ _ kind passed =>
      rcases kind _ rfl with kind | unready
      · exact kind.2
      · rw [ready] at unready
        contradiction
  | failed earlier last passed nonzero => simp [Fault.kind]

theorem planLink_error_iff (ready : job.setup = .ok setup) (inputs : Setup.LinkInputs) :
    setup.planLink inputs = .error e ↔
      ∃ name, setup.platform.unsetLate? = some name ∧
        e = .fault (.missingProperty name job.config.target) := by
  obtain ⟨_, properties, given, made⟩ := setup_of_ok ready
  obtain ⟨rfl, ⟨entries, tabled⟩, _⟩ := Platform.ofProperties_of_ok made
  obtain ⟨table, _, rest⟩ := except_bind_eq_ok.mp given
  have target : setup.platform.target = job.config.target := by
    rw [Platform.target, ← except_pure_eq_ok.mp rest]
  have command := setup.platform.linkCommand_error_iff tabled (e := e) inputs.objects inputs.output
    ⟨setup.config.optimize, setup.config.debug, setup.config.isDynamic⟩ inputs.archives
  rw [target] at command
  simp only [Setup.planLink, Setup.linkCommand, except_bind_eq_error, command]
  simp [pure, Except.pure]

/-- Where a link that a build has come to fails with a fault of the configuration, its command misses
a property. -/
theorem finishLink_configuration (ready : job.setup = .ok setup)
    (failed : setup.finishLink inputs mid = .error (.fault f) t)
    (configuration : f.kind = .configuration) :
    ∃ name, setup.platform.unsetLate? = some name ∧
      f = .missingProperty name job.config.target := by
  rcases bind_eq_error.mp failed with unplanned | ⟨plan, u, _, failed⟩
  · obtain ⟨name, unset, same⟩ := (planLink_error_iff ready inputs).mp
      (ofExcept_eq_error.mp unplanned).1
    exact ⟨name, unset, Failure.fault.inj same⟩
  · have ends := (setup.carryOut_ends plan u).2.2
    rw [failed] at ends
    cases ends with
    | refused _ _ _ _ other => exact absurd configuration other.2

/-- The failure of a build is that of its way; removing the run directory adds none. -/
theorem produce_error_iff {way : Producer} (chosen : job.producer = .ok way) :
    job.produce s = .error e t ↔
      ∃ u, job.produceBy way s = .error e u ∧ RunDirectory.remove u = .ok () t := by
  rw [produce_of_way chosen, ensuring]
  cases job.produceBy way s with
  | ok r u =>
      obtain ⟨v, removed, _⟩ := RunDirectory.remove_ok u
      simp [removed]
  | error other u =>
      obtain ⟨v, removed, _⟩ := RunDirectory.remove_ok u
      simp only [removed, EStateM.Result.error.injEq]
      constructor
      · rintro ⟨rfl, rfl⟩
        exact ⟨u, ⟨rfl, rfl⟩, removed⟩
      · rintro ⟨_, ⟨rfl, rfl⟩, again⟩
        rw [removed] at again
        cases again
        exact ⟨rfl, rfl⟩

/-- A fault of the configuration stops a build after it has started a tool exactly where the build
comes to its link and a property that only the link command reads has no value. -/
theorem configuration_fault_after_start_iff (job : Job) (s : Session) (f : Fault) :
    (∃ t, job.produce s = .error (.fault f) t ∧ f.kind = .configuration ∧
        t.started ≠ s.started) ↔
      job.producer = .ok .linked ∧
        ∃ setup inputs mid name, job.prepareLink s = .ok (setup, inputs) mid ∧
          setup.platform.unsetLate? = some name ∧
          f = .missingProperty name job.config.target := by
  constructor
  · rintro ⟨t, failed, configuration, started⟩
    cases chosen : job.producer with
    | error e =>
        have ended : job.produce s = .error e s :=
          bind_eq_error.mpr (.inl (ofExcept_eq_error.mpr ⟨chosen, rfl⟩))
        rw [ended] at failed
        cases failed
        exact absurd rfl started
    | ok way =>
        obtain ⟨u, failed, removed⟩ := (produce_error_iff chosen).mp failed
        have same : t.started = u.started := ((RunDirectory.remove_toolless u).of_ok removed).2.1
        rw [same] at started
        -- without a link, no property is read once a process has started
        cases way with
        | bitcode =>
            exact absurd configuration
              (Proceeds.not_configuration produceBitcode_proceeds failed started)
        | library =>
            exact absurd configuration
              (Proceeds.not_configuration produceLibrary_proceeds failed started)
        | linked =>
            rcases bind_eq_error.mp failed with failed | ⟨⟨setup, inputs⟩, mid, ready, failed⟩
            · exact absurd configuration
                (Proceeds.not_configuration (prepareLink_proceeds chosen) failed started)
            · have given := (prepareLink_of_ok chosen ready).1
              obtain ⟨name, unset, same⟩ := finishLink_configuration given failed configuration
              exact ⟨rfl, setup, inputs, mid, name, ready, unset, same⟩
  · rintro ⟨linked, setup, inputs, mid, name, ready, unset, rfl⟩
    obtain ⟨given, grown⟩ := prepareLink_of_ok linked ready
    have unplanned := (planLink_error_iff given inputs).mpr ⟨name, unset, rfl⟩
    have failed : job.produceBy .linked s =
        .error (.fault (.missingProperty name job.config.target)) mid :=
      bind_eq_error.mpr (.inr ⟨_, mid, ready,
        bind_eq_error.mpr (.inl (ofExcept_eq_error.mpr ⟨unplanned, rfl⟩))⟩)
    obtain ⟨t, removed, _, same, _⟩ := RunDirectory.remove_ok mid
    refine ⟨t, (produce_error_iff linked).mpr ⟨mid, failed, removed⟩, rfl, fun unchanged => ?_⟩
    rw [← same, unchanged] at grown
    exact absurd grown (Nat.lt_irrefl _)

/-- A program for Linux whose target has no dynamic linker among its properties. -/
def withoutDynamicLinker : Job where
  config := { target := .linuxX64, produce := .kind .program, outputName := "program" }
  properties := {
    data := [("targets", .table [("linux_x64", .table [
      ("target_toolchain", .text "toolchain"), ("target_sysroot", .text "sysroot"),
      ("lib_gcc", .text "gcc")])])]
    path := "kiln.toml"
    sources := ["kiln.toml"]
    distribution := { home := "/home", llvmHome := "/llvm" } }

/-- The missing property is noticed only when the program has been compiled. -/
theorem configuration_fault_after_compiling :
    withoutDynamicLinker.produce.failure? .blank =
        some (.fault (.missingProperty "dynamic_linker" .linuxX64)) ∧
      (withoutDynamicLinker.produce.after .blank).started.map (·.argv.headD "") =
        ["/llvm/bin/opt", "/llvm/bin/llc"] := by
  decide +kernel

end Job

end Foundry
