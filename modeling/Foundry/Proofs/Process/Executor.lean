import Foundry.Proofs.Files.Frame
import Foundry.Proofs.Process.History

/-! What running a tool does to a session: one more start, the files that a successful tool wrote,
and texts that were printed or logged. A tool that is run stops the run if it fails. -/
namespace Foundry

/-- The files with a content at each of these paths, as far as it can be written. -/
def FileSystem.writeEach (fs : FileSystem) (paths : List String) (content : Bytes) : FileSystem :=
  paths.foldl
    (fun fs path => match fs.write path content with
      | .ok fs => fs
      | .error _ => fs)
    fs

/-- The files after a process with these arguments. -/
def Outcome.filesAfter (outcome : Outcome) (argv : List String) (fs : FileSystem) : FileSystem :=
  match outcome with
  | .notStarted _ => fs
  | .finished code _ product =>
    if code = 0 then fs.writeEach (Toolset.outputs argv) product else fs

/-- What becomes of a process that is started in a session. -/
def Session.outcome (s : Session) (argv : List String) : Outcome :=
  s.host.tools.respond (s.started.map (·.argv)) argv

/-- The session after a process, but for what was printed and logged. -/
def Session.afterProcess (s : Session) (start : Start) : Session :=
  { s.start start with files := (s.outcome start.argv).filesAfter start.argv s.files }

theorem Logger.log_ok (logger : Logger) (line : String) (s : Session) :
    ∃ output journal, logger.log line s = .ok () { s with output, journal } := by
  cases logger <;> exact ⟨_, _, rfl⟩

theorem Logger.log_toolless (logger : Logger) (line : String) :
    Run.Obeys (Run.toolless F) (logger.log line) := by
  intro s
  obtain ⟨output, journal, ran⟩ := logger.log_ok line s
  simp only [Run.Meets, Run.failure?, Run.after, ran]
  exact ⟨rfl, rfl, rfl, by simp⟩

theorem Run.printEach_ok (lines : List String) (s : Session) :
    ∃ errors, lines.forM Run.printError s = .ok () { s with errors } := by
  induction lines generalizing s with
  | nil => exact ⟨_, rfl⟩
  | cons line rest ih =>
      obtain ⟨errors, printed⟩ := ih { s with errors := s.errors ++ line ++ "\n" }
      exact ⟨errors, Run.bind_eq_ok.mpr ⟨(), _, rfl, printed⟩⟩

namespace Executor

/-- Forwarding diagnostics, if they are read at all, only prints. -/
theorem forward_ok (filter : Option String) (code : Int) (stderr : Bytes) (s : Session) :
    ∃ errors, (do
      if let some harmless := filter then
        (forwarded harmless stderr).forM Run.printError
      return code : Run Int) s = .ok code { s with errors } := by
  cases filter with
  | none => exact ⟨_, rfl⟩
  | some harmless =>
      obtain ⟨errors, printed⟩ := Run.printEach_ok (forwarded harmless stderr) s
      exact ⟨errors, Run.bind_eq_ok.mpr ⟨(), _, printed, rfl⟩⟩

/-- Running a command always gives an exit code. -/
theorem execute_ok (executor : Executor) (command : Command) (s : Session) :
    ∃ output errors journal, executor.execute command s =
      .ok (s.outcome command.argv).exitCode
        { s.afterProcess ⟨command.argv, (executor.filters.lookup command.tool).isSome⟩ with
          output, errors, journal } := by
  obtain ⟨output, journal, blank⟩ := executor.logger.log_ok "" s
  obtain ⟨output', journal', logged⟩ :=
    executor.logger.log_ok command.text { s with output, journal }
  simp only [execute, bind, EStateM.bind, blank, logged, Run.get_apply, Run.set_apply]
  simp only [Session.afterProcess, Session.outcome]
  cases responded : s.host.tools.respond (s.started.map (·.argv)) command.argv with
  | notStarted reason => exact ⟨_, _, _, rfl⟩
  | finished code stderr product =>
      obtain ⟨errors, forwards⟩ := forward_ok (executor.filters.lookup command.tool) code stderr
        { s.afterProcess ⟨command.argv, (executor.filters.lookup command.tool).isSome⟩ with
          output := output', journal := journal' }
      refine ⟨output', errors, journal', ?_⟩
      by_cases success : code = 0 <;>
        simp only [Session.afterProcess, Session.outcome, responded, Outcome.filesAfter, success,
          if_true, if_false] at forwards ⊢ <;>
        exact forwards

/-- A tool that is run is started once, and ends the run if its exit code is not zero. -/
theorem runTool_ok (executor : Executor) (command : Command) (s : Session) :
    ∃ output errors journal, executor.runTool command s =
      let t := { s.afterProcess ⟨command.argv, (executor.filters.lookup command.tool).isSome⟩ with
        output, errors, journal }
      if (s.outcome command.argv).exitCode = 0 then .ok () t
      else .error (.fault (.toolFailed command.tool (s.outcome command.argv).exitCode)) t := by
  obtain ⟨output, errors, journal, executed⟩ := executor.execute_ok command s
  refine ⟨output, errors, journal, ?_⟩
  by_cases success : (s.outcome command.argv).exitCode = 0
  · simp [runTool, bind, EStateM.bind, executed, success, pure, EStateM.pure]
  · simp [runTool, bind, EStateM.bind, executed, success, Run.fault]

/-- A process leaves its traces whether the tool succeeds or not. -/
theorem runTool_after (executor : Executor) (command : Command) (s : Session) :
    ∃ piped output errors journal, (executor.runTool command).after s =
      { s.afterProcess ⟨command.argv, piped⟩ with output, errors, journal } := by
  obtain ⟨output, errors, journal, ran⟩ := executor.runTool_ok command s
  refine ⟨(executor.filters.lookup command.tool).isSome, output, errors, journal, ?_⟩
  by_cases success : (s.outcome command.argv).exitCode = 0
  · simp only [success, if_true] at ran
    exact Run.after_of_ok ran
  · simp only [success, if_false] at ran
    exact Run.after_of_error ran

theorem runTool_started (executor : Executor) (command : Command) (s : Session) :
    ∃ piped, ((executor.runTool command).after s).started =
      s.started ++ [⟨command.argv, piped⟩] := by
  obtain ⟨piped, output, errors, journal, ended⟩ := executor.runTool_after command s
  exact ⟨piped, by rw [ended]; rfl⟩

theorem runTool_report (executor : Executor) (command : Command) (s : Session) :
    ((executor.runTool command).after s).report = s.report := by
  obtain ⟨piped, output, errors, journal, ended⟩ := executor.runTool_after command s
  rw [ended]
  rfl

theorem processesSince_afterProcess (s : Session) (start : Start) :
    s.processesSince (s.afterProcess start) = [⟨start.argv, (s.outcome start.argv).exitCode⟩] := by
  rw [Session.processesSince_eq [start] rfl]
  rfl

theorem runTool_stopsAtFailure (executor : Executor) (command : Command) :
    Run.Obeys (Run.stopsAtFailure F) (executor.runTool command) := by
  intro s
  obtain ⟨output, errors, journal, ran⟩ := executor.runTool_ok command s
  have process := processesSince_afterProcess s
    ⟨command.argv, (executor.filters.lookup command.tool).isSome⟩
  by_cases success : (s.outcome command.argv).exitCode = 0
  · simp only [success, if_true] at ran process
    simp only [Run.Meets, Run.failure?, Run.after, ran]
    refine ⟨rfl, rfl, List.prefix_append _ _, ?_⟩
    exact process ▸ .passed none _ (by simp) (by simp)
  · simp only [success, if_false] at ran
    simp only [Run.Meets, Run.failure?, Run.after, ran]
    refine ⟨rfl, rfl, List.prefix_append _ _, ?_⟩
    exact process ▸ .failed [] ⟨command.argv, _⟩ (by simp) success

theorem runTool_passed {executor : Executor} {command : Command}
    (ran : executor.runTool command s = .ok () t) :
    (s.outcome command.argv).exitCode = 0 ∧
      t.files = (s.outcome command.argv).filesAfter command.argv s.files := by
  obtain ⟨output, errors, journal, ended⟩ := executor.runTool_ok command s
  rw [ran] at ended
  dsimp only at ended
  split at ended
  · cases ended
    exact ⟨‹_›, rfl⟩
  · nomatch ended

theorem filesAfter_of_failed {outcome : Outcome} (failed : outcome.exitCode ≠ 0) :
    outcome.filesAfter argv fs = fs := by
  cases outcome with
  | notStarted reason => rfl
  | finished code stderr product => exact if_neg failed

/-- A tool that fails has written nothing. -/
theorem runTool_failed {executor : Executor} {command : Command}
    (ran : executor.runTool command s = .error e t) :
    (s.outcome command.argv).exitCode ≠ 0 ∧ t.files = s.files := by
  obtain ⟨output, errors, journal, ended⟩ := executor.runTool_ok command s
  rw [ran] at ended
  dsimp only at ended
  split at ended
  · nomatch ended
  · rename_i failed
    cases ended
    exact ⟨failed, filesAfter_of_failed failed⟩

end Executor
end Foundry
