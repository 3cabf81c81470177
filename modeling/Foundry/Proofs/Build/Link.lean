import Foundry.Build.Link
import Foundry.Proofs.Build.RunDirectory
import Foundry.Proofs.Diagnostic.Notice

/-! Collecting what is linked starts no process and reports warnings alone. Carrying out a link stops
at the first tool that fails, and turns that failure into the one error that is reported. -/
namespace Foundry

/-- A failure that is neither one of a tool nor one of the configuration. -/
def Failure.IsOfBuild : Failure → Prop
  | .fault f => f.kind ≠ .toolFailure ∧ f.kind ≠ .configuration
  | _ => True

theorem Failure.IsOfFile.ofBuild {e : Failure} (kind : e.IsOfFile) : e.IsOfBuild := by
  cases e with
  | refusal | zeroInPath => trivial
  | _ => exact kind.elim

namespace Setup
open Run

/-- A run of the link that is no failure of a tool or of the configuration. -/
abbrev Links (run : Run α) : Prop := Obeys (stopsAtFailure Failure.IsOfBuild) run

variable (s : Setup)

theorem report_archiveSkipped (path : String) (target : Target) :
    Obeys (stopsAtFailure F) (Run.report (.archiveSkipped path target) "link") :=
  obeys_modify fun s => stopsAtFailure_of_same rfl
    (by simp [Notice.addTo_archiveSkipped, Report.errors_push, Notice.archiveWarning]) rfl (by simp)

/-- A known kind of artifact has a file unless the name that is asked for has no last part. -/
theorem outputFile_error {c : Config} (failed : c.outputFile = .error e) :
    (∃ path, e = .emptyName path) ∨ (∃ name, c.produce = .unknown name) ∧ e = .lacksMember := by
  unfold Config.outputFile at failed
  split at failed
  · contradiction
  · unfold ArtifactKind.fileFor at failed
    simp only at failed
    split at failed
    · contradiction
    · split at failed <;> cases failed
      exact .inl ⟨_, rfl⟩
  · rename_i name asked
    cases failed
    exact .inr ⟨⟨name, asked⟩, rfl⟩

theorem outputFile_ofBuild {c : Config} (failed : c.outputFile = .error e) : e.IsOfBuild := by
  rcases outputFile_error failed with ⟨path, rfl⟩ | ⟨-, rfl⟩
  · trivial
  · trivial

/-- Frameworks are for the systems of Apple alone. -/
def Bundled (c : Config) : Prop := c.produce = .kind .framework → c.target.family = .apple

theorem frameworkPlace_error {target : Target} (failed : frameworkPlace target name = .error e) :
    target.family ≠ .apple := by
  cases target <;> simp [Target.family, frameworkPlace] at failed ⊢

/-- A failure to find the place of the artifact. -/
def Misplaces (e : Failure) : Prop :=
  e.IsOfFile ∨ s.config.outputFile = .error e ∨ ¬ Bundled s.config

variable {s} in
theorem Misplaces.ofBuild (bundled : Bundled s.config) (kind : s.Misplaces e) : e.IsOfBuild := by
  rcases kind with kind | failed | unbundled
  · exact kind.ofBuild
  · exact outputFile_ofBuild failed
  · exact absurd bundled unbundled

/-- Finding the place of the artifact makes directories at most. -/
theorem linkOutput_filesOnly : OnFiles s.Misplaces s.linkOutput := by
  refine (OnFiles.ofExcept fun _ failed => .inr (.inl failed)).bind fun file => ?_
  split
  · exact .pure _
  · rename_i framework
    refine OnFiles.bind (.ofExcept fun _ failed => .inr (.inr fun bundled => ?_)) fun _ => ?_
    · exact frameworkPlace_error failed (bundled (Decidable.not_not.mp framework))
    · exact ((Files.makeDirectories_filesOnly _).mono fun _ => .inl).bind fun _ =>
        (Files.absolute_filesOnly _).bind fun _ => .pure _

theorem staticLibraries_stops (files : List String) :
    Obeys (stopsAtFailure F) (s.staticLibraries files) := by
  refine Obeys.bind (obeys_forM fun file _ => ?_) fun _ => obeys_pure _
  unfold reportSkipped
  split
  · exact report_archiveSkipped _ _
  · exact obeys_pure _

theorem linkInputs_stops (objects defaults others libraryFlags : List String) :
    Obeys (stopsAtFailure s.Misplaces) (s.linkInputs objects defaults others libraryFlags) :=
  s.linkOutput_filesOnly.toolless.stops.bind fun _ => (s.staticLibraries_stops _).bind fun _ =>
    obeys_pure _

theorem libraryInputs_stops (home : String) (objects : List String) :
    Obeys (stopsAtFailure s.Misplaces) (s.libraryInputs home objects) :=
  (Logger.log_toolless _ _).stops.bind fun _ => s.linkInputs_stops _ _ _ _

theorem libraryInputs_links (bundled : Bundled s.config) (home : String)
    (objects : List String) : Links (s.libraryInputs home objects) :=
  stopsAtFailure_mono (fun _ => Misplaces.ofBuild bundled) (s.libraryInputs_stops home objects)

end Setup

namespace LinkAction
open Run

theorem flush_filesOnly (p : Pending) : OnFiles Failure.IsOfFile p.flush :=
  Files.change_filesOnly _ _

theorem add_filesOnly (p : Pending) (piece : Bytes) :
    OnFiles Failure.IsOfFile (p.add piece) := by
  unfold Pending.add
  split
  · exact .pure _
  · exact (Files.change_filesOnly _ _).bind fun _ => .pure _

theorem addFiles_filesOnly (p : Pending) (files : List String) :
    OnFiles Failure.IsOfFile (p.addFiles files) := by
  induction files generalizing p with
  | nil => exact flush_filesOnly p
  | cons file rest ih =>
      refine OnFiles.bind ?_ fun content => (add_filesOnly p content).bind fun p => ih p
      exact (Files.ask_filesOnly _ _).tryCatch fun e kind => (flush_filesOnly p).bind fun _ => .throw kind

theorem writeScript_filesOnly (artifact : String) (scripts : List String) :
    OnFiles Failure.IsOfFile (writeScript artifact scripts) :=
  (Files.change_filesOnly _ _).bind fun _ => (add_filesOnly _ _).bind fun _ =>
    (addFiles_filesOnly _ _).bind fun _ => .pure _

/-- The failures of a link that are none of its tools: there are such only where an object is copied in
place of linking it. -/
def Breaks : LinkAction → Failure → Prop
  | copyWithScript objects _, e => e.IsOfFile ∨ objects.length ≠ 1 ∧ e = .objectCount objects.length
  | _, _ => False

theorem Breaks.ofBuild {action : LinkAction} (kind : action.Breaks e) : e.IsOfBuild := by
  cases action with
  | run => exact kind.elim
  | runThenExtract => exact kind.elim
  | copyWithScript =>
      rcases kind with kind | ⟨-, rfl⟩
      · exact kind.ofBuild
      · trivial

/-- Copying an object in place of linking it runs no tool. -/
theorem copyWithScript_toolless (objects : List String) (artifact : String) (executor : Executor)
    (command : Command) :
    Obeys (toolless (copyWithScript objects artifact).Breaks)
      ((copyWithScript objects artifact).carryOut executor command) := by
  have ofFiles : ∀ {α} {run : Run α}, OnFiles Failure.IsOfFile run →
      Obeys (toolless (copyWithScript objects artifact).Breaks) run := fun kept =>
    toolless_mono (fun _ => .inl) kept.toolless
  match objects with
  | [object] =>
      exact (Logger.log_toolless _ _).bind fun _ => (ofFiles (Files.copy_filesOnly _ _)).bind
        fun _ => (ofFiles (writeScript_filesOnly _ _)).map _
  | [] | _ :: _ :: _ => exact fun _ => ⟨rfl, rfl, rfl, by rintro _ ⟨⟩; exact .inr ⟨by simp, rfl⟩⟩

theorem carryOut_stopsAtFailure (action : LinkAction) (executor : Executor) (command : Command) :
    Obeys (stopsAtFailure action.Breaks) (action.carryOut executor command) := by
  cases action with
  | run => exact executor.runTool_stopsAtFailure command
  | runThenExtract extract =>
      exact (executor.runTool_stopsAtFailure command).bind fun _ =>
        executor.runTool_stopsAtFailure extract
  | copyWithScript objects artifact =>
      exact (copyWithScript_toolless objects artifact executor command).stops

/-- Carrying out a link reports nothing by itself. -/
theorem carryOut_report (action : LinkAction) (executor : Executor) (command : Command)
    (s : Session) : ((action.carryOut executor command).after s).report = s.report := by
  cases action with
  | run => exact executor.runTool_report command s
  | runThenExtract extract =>
      have first := executor.runTool_report command s
      simp only [carryOut]
      cases ran : executor.runTool command s with
      | ok _ t =>
          rw [after_of_ok ran] at first
          rw [after_bind_of_ok ran, executor.runTool_report extract t, first]
      | error e t =>
          rw [after_of_error ran] at first
          rw [after_bind_of_error ran, first]
  | copyWithScript objects artifact =>
      exact (copyWithScript_toolless objects artifact executor command s).2.2.1

end LinkAction

namespace Setup
open Run

/-- How carrying out a link ends: no tool failed, or the last one did, which makes nothing of the
artifact and is reported. -/
inductive LinkEnds (output : String) (s : Session) :
    EStateM.Result Failure Session (Option String) → Prop where
  | linked (t) : (∀ p ∈ s.processesSince t, p.exitCode = 0) →
      t.report.errors = s.report.errors → LinkEnds output s (.ok (some output) t)
  | refused (e t) : (∀ p ∈ s.processesSince t, p.exitCode = 0) →
      t.report.errors = s.report.errors → e.IsOfBuild → LinkEnds output s (.error e t)
  | failed (t earlier) (last : Process) : s.processesSince t = earlier ++ [last] →
      (∀ p ∈ earlier, p.exitCode = 0) → last.exitCode ≠ 0 →
      t.report.errors = s.report.errors ++ [Notice.linkError "link"] →
      LinkEnds output s (.ok none t)

theorem carryOut_of_ok {s : Setup}
    (ran : plan.action.carryOut s.toolchain.toExecutor plan.command t = .ok () u) :
    s.carryOut plan t = .ok (some plan.output) u :=
  tryCatch_of_ok (bind_eq_ok.mpr ⟨(), u, ran, rfl⟩)

theorem carryOut_of_toolFailed {s : Setup}
    (ran : plan.action.carryOut s.toolchain.toExecutor plan.command t =
      .error (.fault (.toolFailed tool code)) u) :
    s.carryOut plan t =
      .ok none { u with report := u.report.push (Notice.linkError "link") } := by
  rw [carryOut, tryCatch_of_error (bind_eq_error.mpr (.inl ran))]
  rfl

theorem carryOut_of_error {s : Setup} (other : e.IsOfBuild)
    (ran : plan.action.carryOut s.toolchain.toExecutor plan.command t = .error e u) :
    s.carryOut plan t = .error e u := by
  rw [carryOut, tryCatch_of_error (bind_eq_error.mpr (.inl ran))]
  split
  · simp [Failure.IsOfBuild, Fault.kind] at other
  · rfl

/-- What carrying out a link adds to its action: the error of a failed tool, if anything. -/
theorem after_carryOut (s : Setup) (plan : LinkPlan) (t : Session) :
    let u := (plan.action.carryOut s.toolchain.toExecutor plan.command).after t
    (s.carryOut plan).after t = u ∨
      (s.carryOut plan).after t = { u with report := u.report.push (Notice.linkError "link") } := by
  have kept := plan.action.carryOut_stopsAtFailure s.toolchain.toExecutor plan.command t
  cases ran : plan.action.carryOut s.toolchain.toExecutor plan.command t with
  | ok _ u => exact .inl (by rw [after_of_ok ran, after_of_ok (carryOut_of_ok ran)])
  | error e u =>
      rw [after_of_error ran]
      have ends := (kept.of_error ran).2.2.2
      generalize t.processesSince u = row at ends
      cases ends with
      | passed _ _ kind _ => exact .inl (after_of_error (carryOut_of_error (kind e rfl).ofBuild ran))
      | failed earlier last _ _ => exact .inr (after_of_ok (carryOut_of_toolFailed ran))

theorem carryOut_ends (s : Setup) (plan : LinkPlan) (t : Session) :
    let u := (s.carryOut plan).after t
    u.host = t.host ∧ t.started <+: u.started ∧ LinkEnds plan.output t (s.carryOut plan t) := by
  have kept := plan.action.carryOut_stopsAtFailure s.toolchain.toExecutor plan.command t
  cases ran : plan.action.carryOut s.toolchain.toExecutor plan.command t with
  | ok _ u =>
      obtain ⟨host, errors, started, ends⟩ := kept.of_ok ran
      rw [after_of_ok (carryOut_of_ok ran), carryOut_of_ok ran]
      exact ⟨host, started, .linked u ends.of_none errors⟩
  | error e u =>
      obtain ⟨host, errors, started, ends⟩ := kept.of_error ran
      generalize processes : t.processesSince u = row at ends
      cases ends with
      | passed _ _ kind passed =>
          have other := (kind e rfl).ofBuild
          rw [after_of_error (carryOut_of_error other ran), carryOut_of_error other ran]
          exact ⟨host, started, .refused e u (processes ▸ passed) errors other⟩
      | failed earlier last passed nonzero =>
          rw [after_of_ok (carryOut_of_toolFailed ran), carryOut_of_toolFailed ran]
          refine ⟨host, started, .failed _ earlier last processes passed nonzero ?_⟩
          rw [Report.errors_push, errors]
          rfl

end Setup

end Foundry
