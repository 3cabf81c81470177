import Foundry.Proofs.Build.Archives
import Foundry.Proofs.Build.Scope

/-! What a failed link leaves. A link that is reported as failed has changed no file, unless the linker
itself succeeded and the tool failed that extracts debug symbols from what the linker had written. -/
namespace Foundry

open FileSystem Run

namespace LinkAction
variable {action : LinkAction} {executor : Executor} {command : Command}

/-- If a tool of a link fails, then the linker itself, which wrote nothing, or what is run after it. -/
theorem carryOut_toolFailed
    (ran : action.carryOut executor command s = .error (.fault (.toolFailed tool code)) t) :
    ((s.outcome command.argv).exitCode ≠ 0 ∨ ∀ extract, action ≠ .runThenExtract extract) ∧
        t.files = s.files ∨
      ∃ extract stderr product, action = .runThenExtract extract ∧
        s.outcome command.argv = .finished 0 stderr product ∧
        t.files = s.files.writeEach (Toolset.outputs command.argv) product := by
  cases action with
  | run =>
      obtain ⟨-, files⟩ := Executor.runTool_failed ran
      exact .inl ⟨.inr fun _ => nofun, files⟩
  | runThenExtract extract =>
      rcases bind_eq_error.mp ran with linking | ⟨_, u, linked, extracting⟩
      · obtain ⟨failed, files⟩ := Executor.runTool_failed linking
        exact .inl ⟨.inl failed, files⟩
      · obtain ⟨passed, written⟩ := Executor.runTool_passed linked
        obtain ⟨-, files⟩ := Executor.runTool_failed extracting
        cases answered : s.outcome command.argv with
        | notStarted reason =>
            rw [answered] at passed
            nomatch passed
        | finished exitCode stderr product =>
            rw [answered] at passed written
            obtain rfl : exitCode = 0 := passed
            exact .inr ⟨extract, stderr, product, rfl, rfl, files.trans written⟩
  | copyWithScript objects artifact =>
      have kind := ((copyWithScript_toolless objects artifact executor command s).of_error ran).2.2.2 _ rfl
      rcases kind with kind | ⟨-, same⟩
      · exact kind.elim
      · nomatch same

end LinkAction

namespace Setup
variable {setup : Setup} {objects defaults others libraryFlags : List String}

/-- Collecting what is linked changes no file. -/
theorem linkInputs_extending :
    Obeys (extending place fun _ => False) (setup.linkInputs objects defaults others libraryFlags) := by
  have finding : Obeys (extending place fun _ => False) setup.linkOutput := by
    refine (Obeys.extending fun s => (ofExcept_bystanding _ s).1).bind fun file => ?_
    split
    · exact obeys_pure _
    · refine (Obeys.extending fun s => (ofExcept_bystanding _ s).1).bind fun place => ?_
      refine (Files.makeDirectories_extending _).bind fun _ => ?_
      exact (Obeys.extending (Files.absolute_still _)).bind fun _ => obeys_pure _
  refine finding.bind fun _ => Obeys.bind (.extending fun s => ?_) fun _ => obeys_pure _
  exact (staticLibraries_bystanding _ s).1

/-- What the linker wrote before the extraction of debug symbols was tried, as it is at a place, is not
what was there before. -/
def LinkPlan.LeavesBehind (plan : LinkPlan) (s : Session) (place : Location) : Prop :=
  ∃ extract stderr product, plan.action = .runThenExtract extract ∧
    s.outcome plan.command.argv = .finished 0 stderr product ∧
    (s.files.writeEach (Toolset.outputs plan.command.argv) product).file? place ≠ s.files.file? place

/-- A link gives nothing only after a tool has failed, which is reported then. -/
theorem carryOut_none (ran : setup.carryOut plan s = .ok none t) :
    ∃ tool code u, plan.action.carryOut setup.toolchain.toExecutor plan.command s =
        .error (.fault (.toolFailed tool code)) u ∧
      t = { u with report := u.report.push (Notice.linkError "link") } := by
  cases acted : plan.action.carryOut setup.toolchain.toExecutor plan.command s with
  | ok _ u =>
      rw [carryOut_of_ok acted] at ran
      nomatch ran
  | error e u =>
      have ends := ((plan.action.carryOut_stopsAtFailure setup.toolchain.toExecutor plan.command s).of_error
        acted).2.2.2
      generalize s.processesSince u = row at ends
      cases ends with
      | passed _ _ kind _ =>
          rw [carryOut_of_error (kind e rfl).ofBuild acted] at ran
          nomatch ran
      | failed earlier last _ _ =>
          rw [carryOut_of_toolFailed acted] at ran
          cases ran
          exact ⟨_, _, u, rfl, rfl⟩

theorem carryOut_none_errors (ran : setup.carryOut plan s = .ok none t) :
    t.report.errors = s.report.errors ++ [Notice.linkError "link"] := by
  obtain ⟨tool, code, u, acted, rfl⟩ := carryOut_none ran
  have silent := plan.action.carryOut_report setup.toolchain.toExecutor plan.command s
  rw [after_of_error acted] at silent
  rw [Report.errors_push, silent]
  rfl

/-- A link that failed has changed the file at a place exactly if the linker left something behind. -/
theorem file_of_carryOut_none (ran : setup.carryOut plan s = .ok none t) (place : Location) :
    t.files.file? place = s.files.file? place ↔ ¬ plan.LeavesBehind s place := by
  obtain ⟨tool, code, u, acted, rfl⟩ := carryOut_none ran
  dsimp only
  rcases LinkAction.carryOut_toolFailed acted with
    ⟨failed, files⟩ | ⟨extract, stderr, product, action, answered, files⟩
  · refine iff_of_true (by rw [files]) ?_
    rintro ⟨extract, stderr, product, action, answered, -⟩
    rcases failed with failed | other
    · exact failed (congrArg Outcome.exitCode answered)
    · exact other extract action
  · rw [files]
    refine ⟨?_, fun none => ?_⟩
    · rintro same ⟨_, _, product', -, answered', differs⟩
      obtain ⟨-, -, rfl⟩ := Outcome.finished.inj (answered.symm.trans answered')
      exact differs same
    · exact Decidable.byContradiction fun differs =>
        none ⟨extract, stderr, product, action, answered, differs⟩

/-- As long as no setting names an output, a linker leaves nothing behind but the artifact. -/
theorem leavesBehind_artifact (made : Platform.ofProperties properties = .ok setup.platform)
    (free : properties.FlagFree) (planned : setup.planLink inputs = .ok plan)
    (left : plan.LeavesBehind s place) : place = spot s.files.here plan.output := by
  obtain ⟨extract, stderr, product, action, -, differs⟩ := left
  obtain ⟨-, chosen⟩ := planLink_of_ok planned
  have notCopy : setup.platform.recipe ≠ .copy := fun copying => by
    simp [chosen, Platform.action, copying] at action
  rw [planLink_output planned]
  rw [(planLink_writes made free notCopy planned).outputs] at differs
  have grown : s.files.Grows (· = spot s.files.here inputs.output) (fun _ => False)
      (s.files.writeEach [inputs.output] product) :=
    writeEach_grows (by simp) product
  exact Decidable.byContradiction fun other => differs (grown.file other)

/-- A link that is reported as failed has left every file as it was, the artifact too, except exactly
where debug symbols could not be extracted from what the linker had written. No other file than the
artifact is affected. -/
theorem failed_link_keeps_iff (ran : setup.link objects defaults others libraryFlags s = .ok none t) :
    ∃ inputs u plan, setup.linkInputs objects defaults others libraryFlags s = .ok inputs u ∧
      setup.planLink inputs = .ok plan ∧
      t.report.errors = s.report.errors ++ [Notice.linkError "link"] ∧
      (∀ place, t.files.file? place = s.files.file? place ↔ ¬ plan.LeavesBehind u place) ∧
      ∀ properties, Platform.ofProperties properties = .ok setup.platform → properties.FlagFree →
        ∀ place, place ≠ spot s.files.here plan.output → t.files.file? place = s.files.file? place := by
  obtain ⟨inputs, u, collected, ran⟩ := bind_eq_ok.mp ran
  obtain ⟨plan, _, found, ran⟩ := bind_eq_ok.mp ran
  obtain ⟨planned, rfl⟩ := ofExcept_eq_ok.mp found
  have grown := (linkInputs_extending s).of_ok collected rfl
  -- collecting the inputs writes no file, so what is left comes from carrying out the plan
  have kept (place : Location) : t.files.file? place = s.files.file? place ↔ ¬ plan.LeavesBehind u place := by
    rw [← grown.file id, file_of_carryOut_none ran]
  refine ⟨inputs, u, plan, collected, planned, ?_, kept, fun properties made free place other => ?_⟩
  · have errors := ((setup.linkInputs_stops objects defaults others libraryFlags s).of_ok collected).2.1
    rw [carryOut_none_errors ran, errors]
  · refine (kept place).mpr fun left => other ?_
    rw [leavesBehind_artifact made free planned left, grown.here]

/-- A session in which no tool succeeds. -/
def withoutTools : Session :=
  { Session.blank with host := { Session.blank.host with tools := ⟨fun _ _ => .finished 1 [] []⟩ } }

/-- A linker for Linux that fails leaves everything as it was. -/
theorem failed_link_on_linux : ∃ t, withArchives.link ["main.o"] [] [] [] withoutTools = .ok none t ∧
    ∀ place, t.files.file? place = withoutTools.files.file? place := by
  obtain ⟨t, ran, -⟩ : ∃ t, withArchives.link ["main.o"] [] [] [] withoutTools = .ok none t ∧ () = () :=
    outcome?_eq_some.mp (by decide)
  obtain ⟨inputs, u, plan, -, planned, -, kept, -⟩ := failed_link_keeps_iff ran
  refine ⟨t, ran, fun place => (kept place).mpr ?_⟩
  rintro ⟨extract, stderr, product, action, -⟩
  rw [(planLink_of_ok planned).2] at action
  nomatch action

/-- A program for macOS with debug symbols. -/
def withDebugSymbols : Setup where
  config := { target := .macosX64, produce := .kind .program, outputName := "program", debug := true }
  platform := {
    properties := {
      target := .macosX64
      table := .table [("arch", .text "x86_64"), ("os_version_min_flag_ld", .text "-macosx_version_min"),
        ("os_version_min", .text "10.11")]
      distribution := { home := "/home", llvmHome := "/llvm" } }
    flags := fun _ => []
    toolchain := "/toolchain"
    sysroot := "/sysroot"
    libffi := []
    recipe := .apple "/llvm/bin/llvm-dsymutil" "/llvm/lib/libLTO.dylib" }
  toolchain := { llvmBin := "/llvm/bin", target := "/toolchain" }

/-- A session in which every tool but the one that extracts debug symbols succeeds. -/
def withoutExtraction : Session :=
  { Session.blank with
    host := { Session.blank.host with
      tools := ⟨fun _ argv =>
        .finished (if argv.head? = some "/llvm/bin/llvm-dsymutil" then 1 else 0) [] [7]⟩ } }

/-- A link is reported as failed, and its artifact is there. -/
theorem artifact_of_failed_link : ∃ t,
    withDebugSymbols.link ["main.o"] [] [] [] withoutExtraction = .ok none t ∧
      withDebugSymbols.config.outputFile = .ok "program.kexe" ∧
      withoutExtraction.files.file? (spot withoutExtraction.files.here "program.kexe") = none ∧
      t.files.file? (spot t.files.here "program.kexe") = some [7] ∧
      t.report.errors = [Notice.linkError "link"] := by
  have seen : (withDebugSymbols.link ["main.o"] [] [] []).outcome?
      (fun t => (t.files.file? (spot t.files.here "program.kexe"), t.report.errors)) withoutExtraction =
      some (none, some [7], [Notice.linkError "link"]) := by
    decide
  obtain ⟨t, ran, seen⟩ := outcome?_eq_some.mp seen
  obtain ⟨file, errors⟩ := Prod.mk.inj seen
  exact ⟨t, ran, rfl, by decide, file, errors⟩

end Setup

end Foundry
