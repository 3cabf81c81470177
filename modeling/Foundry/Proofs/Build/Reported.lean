import Foundry.Proofs.Build.Produce

/-! What a build says while it produces an artifact. It reports static libraries that it skips and the
link that failed, and nothing else, and it prints to the output only what it logs. -/
namespace Foundry

/-- A diagnostic that a build reports without being stopped by it. -/
def Diagnostic.IsNotice (item : Diagnostic) : Prop :=
  (∃ path target stage, item = Notice.archiveWarning path target stage) ∨
    ∃ stage, item = Notice.linkError stage

/-- A report with more notices at its end. -/
def Report.Noticed (before after : Report) : Prop :=
  ∃ new, after = { before with items := before.items ++ new } ∧ ∀ item ∈ new, item.IsNotice

namespace Report.Noticed
variable {first second third : Report}

theorem refl (report : Report) : Noticed report report := ⟨[], by simp, by simp⟩

theorem trans (noticed : Noticed first second) (noticed' : Noticed second third) :
    Noticed first third := by
  obtain ⟨new, rfl, notices⟩ := noticed
  obtain ⟨newer, rfl, notices'⟩ := noticed'
  refine ⟨new ++ newer, by simp, fun item member => ?_⟩
  exact (List.mem_append.mp member).elim (notices item) (notices' item)

theorem push {item : Diagnostic} (notice : item.IsNotice) (report : Report) :
    Noticed report (report.push item) :=
  ⟨[item], rfl, by simpa using notice⟩

end Report.Noticed

theorem Notice.addTo_noticed (notice : Notice) (stage : String) (report : Report) :
    report.Noticed (notice.addTo stage report) := by
  cases notice with
  | linkFailed =>
      rw [addTo_linkFailed]
      exact .push (.inr ⟨stage, rfl⟩) report
  | archiveSkipped path target =>
      rw [addTo_archiveSkipped]
      exact .push (.inl ⟨path, target, stage, rfl⟩) report

/-- These lines are printed to the output between two sessions. -/
def Session.Prints (before after : Session) (lines : List String) : Prop :=
  after.output = before.output ++ String.join (lines.map (· ++ "\n"))

namespace Session.Prints
variable {s t u : Session}

theorem of_same (same : t.output = s.output) : Prints s t [] := by
  simpa [Prints] using same

theorem trans (first : Prints s t lines) (second : Prints t u more) : Prints s u (lines ++ more) := by
  simp only [Prints] at first second ⊢
  rw [second, first, List.map_append, String.join_append, String.append_assoc]

theorem print (s : Session) (line : String) :
    Prints s { s with output := s.output ++ line ++ "\n" } [line] := by
  simp [Prints, String.append_assoc]

theorem output (prints : Prints s t []) : t.output = s.output := by
  simpa [Prints] using prints

end Session.Prints

namespace Run

/-- Nothing but notices is reported, and lines are printed to the output only where lines are logged. -/
def discreet (logger : Logger) : Contract := fun _ s t =>
  t.host = s.host ∧ s.report.Noticed t.report ∧
    ∃ lines, s.Prints t lines ∧ (logger = .off → lines = [])

instance (logger : Logger) : (discreet logger).Composes where
  refl s := ⟨rfl, .refl _, [], .of_same rfl, fun _ => rfl⟩
  trans := by
    rintro ending s t u ⟨host, noticed, lines, prints, off⟩ ⟨host', noticed', more, prints', off'⟩
    refine ⟨host'.trans host, noticed.trans noticed', _, prints.trans prints', fun silent => ?_⟩
    rw [off silent, off' silent, List.append_nil]

variable {logger : Logger}

/-- A step that prints nothing to the output. -/
theorem discreet_of_same {ending : Option Failure} {s t : Session} (host : t.host = s.host)
    (noticed : s.report.Noticed t.report) (output : t.output = s.output) : discreet logger ending s t :=
  ⟨host, noticed, [], .of_same output, fun _ => rfl⟩

theorem OnFiles.discreet {run : Run α} (kept : OnFiles F run) :
    Obeys (discreet logger) run := by
  intro s
  have same := (kept.obeys s).1
  refine discreet_of_same (by rw [same]) ?_ (by rw [same])
  rw [same]
  exact .refl _

theorem modify_discreet {change : Session → Session} (kept : ∀ s, (change s).host = s.host ∧
    (change s).report = s.report ∧ (change s).output = s.output) :
    Obeys (discreet logger) (modify change : Run PUnit) :=
  obeys_modify fun s => discreet_of_same (kept s).1 ((kept s).2.1 ▸ .refl _) (kept s).2.2

theorem throw_discreet (e : Failure) : Obeys (discreet logger) (throw e : Run α) :=
  fun _ => discreet_of_same rfl (.refl _) rfl

theorem ofExcept_discreet (result : Except Failure α) : Obeys (discreet logger) (ofExcept result) :=
  obeys_ofExcept fun e s _ => throw_discreet (α := α) e s

theorem report_discreet (notice : Notice) (stage : String) :
    Obeys (discreet logger) (report notice stage) :=
  obeys_modify fun s => discreet_of_same rfl (notice.addTo_noticed stage s.report) rfl

end Run

open Run

theorem Logger.log_discreet (logger : Logger) (line : String) :
    Obeys (discreet logger) (logger.log line) := by
  cases logger with
  | off => exact obeys_pure _
  | output => exact obeys_modify fun s => ⟨rfl, .refl _, [line], .print s line, nofun⟩
  | journal => exact modify_discreet fun s => ⟨rfl, rfl, rfl⟩

theorem Executor.execute_discreet (executor : Executor) (command : Command) :
    Obeys (discreet executor.logger) (executor.execute command) := by
  have printing (line : String) : Obeys (discreet executor.logger) (printError line) :=
    modify_discreet fun _ => ⟨rfl, rfl, rfl⟩
  refine (executor.logger.log_discreet _).bind fun _ => (executor.logger.log_discreet _).bind fun _ => ?_
  intro s
  refine (obeys_get s).bind fun session t found => ?_
  cases found
  have starting : Meets (discreet executor.logger)
      (set (s.start ⟨command.argv, (executor.filters.lookup command.tool).isSome⟩) : Run PUnit) s :=
    discreet_of_same rfl (.refl _) rfl
  refine starting.bind fun _ u _ => ?_
  split
  · exact (printing _).bind (fun _ => obeys_pure _) u
  · have writing (argv : List String) (product : Bytes) :
        Obeys (discreet executor.logger) (writeProducts argv product) :=
      modify_discreet fun _ => ⟨rfl, rfl, rfl⟩
    have forwarding (lines : List String) (code : Int) : Obeys (discreet executor.logger) (do
        lines.forM printError
        return code : Run Int) :=
      (obeys_forM fun line _ => printing line).bind fun _ => obeys_pure _
    split
    · split
      · exact (writing _ _).bind (fun _ => forwarding _ _) u
      · exact forwarding _ _ u
    · split
      · exact (writing _ _).bind (fun _ => obeys_pure _) u
      · exact obeys_pure _ u

theorem Executor.runTool_discreet (executor : Executor) (command : Command) :
    Obeys (discreet executor.logger) (executor.runTool command) := by
  refine (executor.execute_discreet command).bind fun exitCode => ?_
  split
  · exact throw_discreet _
  · exact obeys_pure _

namespace RunDirectory

variable {logger : Logger}

theorem path_discreet (stem : String) : Obeys (discreet logger) (path stem) := by
  refine obeys_get.bind fun _ => ?_
  split
  · exact obeys_pure _
  · refine (Files.makeTemporaryDirectory_filesOnly _).discreet.bind fun _ => ?_
    refine Obeys.bind ?_ fun _ => obeys_pure _
    exact modify_discreet fun _ => ⟨rfl, rfl, rfl⟩

theorem named_discreet (stem name : String) : Obeys (discreet logger) (named stem name) :=
  (path_discreet stem).bind fun _ => obeys_pure _

theorem remove_discreet : Obeys (discreet logger) remove := by
  refine obeys_get.bind fun _ => ?_
  split
  · exact (Files.discardTree_filesOnly (F := fun _ => False) _).discreet.bind fun _ =>
      modify_discreet fun _ => ⟨rfl, rfl, rfl⟩
  · exact obeys_pure _

end RunDirectory

namespace Setup

/-- A run of a stage of this setup that is discreet. -/
abbrev Quiet (s : Setup) (run : Run α) : Prop := Obeys (discreet s.toolchain.logger) run

variable (s : Setup)

theorem fresh_quiet (name suffix : String) : s.Quiet (fresh name suffix) :=
  (RunDirectory.path_discreet _).bind fun _ => (Files.makeTemporaryFile_filesOnly _ _ _).discreet

theorem hostTool_quiet (tool : String) (args : List String) : s.Quiet (s.toolchain.hostTool tool args) :=
  Executor.runTool_discreet _ _

theorem targetTool_quiet (tool : String) (args : List String) :
    s.Quiet (s.toolchain.targetTool tool args) :=
  Executor.runTool_discreet _ _

theorem linkBitcode_quiet (files : List String) : s.Quiet (s.linkBitcode files) :=
  (s.fresh_quiet _ _).bind fun _ => (s.hostTool_quiet _ _).bind fun _ => obeys_pure _

theorem objectOf_quiet (file : String) : s.Quiet (s.objectOf file) := by
  have optimizing : s.Quiet (s.optimizeBitcode file) :=
    (s.fresh_quiet _ _).bind fun _ => (s.hostTool_quiet _ _).bind fun _ => obeys_pure _
  exact optimizing.bind fun _ =>
    (s.fresh_quiet _ _).bind fun _ => (s.hostTool_quiet _ _).bind fun _ => obeys_pure _

theorem wasmOf_quiet (files : List String) : s.Quiet (s.wasmOf files) :=
  (s.fresh_quiet _ _).bind fun _ => (s.hostTool_quiet _ _).bind fun _ =>
    (s.fresh_quiet _ _).bind fun _ => (s.targetTool_quiet _ _).bind fun _ =>
    (s.fresh_quiet _ _).bind fun _ => (s.targetTool_quiet _ _).bind fun _ =>
    (s.fresh_quiet _ _).bind fun _ => (s.fresh_quiet _ _).bind fun _ =>
    (s.targetTool_quiet _ _).bind fun _ => obeys_pure _

theorem objectFiles_quiet (files : List String) : s.Quiet (s.objectFiles files) := by
  unfold objectFiles
  split
  · exact (s.wasmOf_quiet files).bind fun _ => obeys_pure _
  · split
    · exact (s.objectOf_quiet _).bind fun _ => obeys_pure _
    · exact (s.linkBitcode_quiet _).bind fun _ => (s.objectOf_quiet _).bind fun _ => obeys_pure _

theorem archivedObjects_quiet (files : List String) : s.Quiet (s.archivedObjects files) := by
  have each (files : List String) : s.Quiet (s.objectsOf files) := by
    induction files with
    | nil => exact obeys_pure _
    | cons file rest ih => exact (s.objectOf_quiet file).bind fun _ => ih.bind fun _ => obeys_pure _
  unfold archivedObjects
  split
  · exact (s.wasmOf_quiet files).bind fun _ => obeys_pure _
  · exact each files

theorem staticLibrary_quiet (files : List String) (name : Option String) :
    s.Quiet (s.staticLibrary files name) := by
  have placing : s.Quiet (archivePath name) := by
    unfold archivePath
    split
    · exact s.fresh_quiet _ _
    · exact s.fresh_quiet _ _
    · exact RunDirectory.named_discreet _ _
  exact (s.archivedObjects_quiet files).bind fun _ => placing.bind fun _ =>
    (s.hostTool_quiet _ _).bind fun _ => obeys_pure _

theorem libraryInputs_quiet (home : String) (objects : List String) :
    s.Quiet (s.libraryInputs home objects) := by
  have skipping (accepted : List String) (file : String) : s.Quiet (s.reportSkipped accepted file) := by
    unfold reportSkipped
    split
    · exact report_discreet _ _
    · exact obeys_pure _
  exact (s.toolchain.logger.log_discreet _).bind fun _ => s.linkOutput_filesOnly.discreet.bind fun _ =>
    ((obeys_forM fun file _ => skipping _ file).bind fun _ => obeys_pure _).bind fun _ => obeys_pure _

theorem action_quiet (action : LinkAction) (command : Command) :
    s.Quiet (action.carryOut s.toolchain.toExecutor command) := by
  cases action with
  | run => exact Executor.runTool_discreet _ _
  | runThenExtract extract =>
      exact (Executor.runTool_discreet _ _).bind fun _ => Executor.runTool_discreet _ _
  | copyWithScript objects artifact =>
      match objects with
      | [object] =>
          exact (Logger.log_discreet _ _).bind fun _ => (Files.copy_filesOnly _ _).discreet.bind
            fun _ => (LinkAction.writeScript_filesOnly _ _).discreet.map _
      | [] | _ :: _ :: _ => exact throw_discreet _

theorem finishLink_quiet (inputs : LinkInputs) : s.Quiet (s.finishLink inputs) := by
  refine (ofExcept_discreet _).bind fun plan => ?_
  have acting := (s.action_quiet plan.action plan.command).bind fun _ => obeys_pure (some plan.output)
  refine Obeys.tryCatch acting fun e t u failed => ?_
  have kept := (acting t).of_error failed
  split
  · have reporting : s.Quiet (do
        Run.report .linkFailed "link"
        pure none : Run (Option String)) :=
      (report_discreet _ _).bind fun _ => obeys_pure _
    exact Contract.Composes.trans (R := discreet s.toolchain.logger) kept (reporting u)
  · exact kept

end Setup

namespace Job

variable {job : Job}

/-- What comes after the setup logs as the build does. -/
theorem setUp_discreet {next : Setup → Run α}
    (rest : ∀ setup : Setup, setup.Quiet (next setup)) : Obeys (discreet job.logger) (job.setUp >>= next) := by
  intro s
  refine (ofExcept_discreet _ s).bind fun setup t ran => ?_
  obtain ⟨ready, -⟩ := ofExcept_eq_ok.mp ran
  obtain ⟨properties, -, ready⟩ := except_bind_eq_ok.mp ready
  obtain ⟨platform, -, ready⟩ := except_bind_eq_ok.mp ready
  obtain rfl := except_pure_eq_ok.mp ready
  exact rest _ t

theorem produceBitcode_discreet : Obeys (discreet job.logger) job.produceBitcode :=
  (ofExcept_discreet _).bind fun _ => obeys_get.bind fun _ =>
    (Files.change_filesOnly _ _).discreet.bind fun _ => obeys_pure _

theorem addArchive_discreet (library : LibraryWriter) (bitcode name : String) :
    Obeys (discreet job.logger) (job.addArchive library bitcode name) :=
  setUp_discreet fun setup => (setup.staticLibrary_quiet _ _).bind fun _ =>
    (library.copyInto_filesOnly _ _).discreet

theorem produceLibrary_discreet : Obeys (discreet job.logger) job.produceLibrary := by
  have layingOut : Obeys (discreet job.logger) job.layOutLibrary :=
    (ofExcept_discreet _).bind fun _ => obeys_get.bind fun _ => (RunDirectory.named_discreet _ _).bind
      fun _ => (LibraryWriter.build_filesOnly _ _ _ _ _ _ _).discreet
  exact layingOut.bind fun library => (obeys_forM fun _ _ => addArchive_discreet library _ _).bind fun _ =>
    (addArchive_discreet library _ _).bind fun _ => library.commit_filesOnly.discreet.bind fun _ =>
      obeys_pure _

theorem linkNative_discreet (library : String) : Obeys (discreet job.logger) (linkNative library) := by
  have reading : Obeys (discreet job.logger) (Files.read (Path.ofText library).text) :=
    (Files.ask_filesOnly _ _).discreet
  refine Obeys.bind ?_ fun bitcode s => ?_
  · refine Obeys.tryCatch reading fun e s t failed => ?_
    have kept := (reading s).of_error failed
    split
    · exact kept
    · exact kept
  · refine (obeys_get s).bind fun session t ran => ?_
    cases ran
    split
    · exact discreet_of_same rfl (.refl _) rfl
    · exact throw_discreet _ _

theorem adapterBitcode_discreet : Obeys (discreet job.logger) job.adapterBitcode := by
  unfold adapterBitcode
  split
  · exact obeys_pure _
  · exact obeys_pure _
  · split
    · exact obeys_pure _
    · exact setUp_discreet fun setup => (RunDirectory.named_discreet _ _).bind fun _ =>
        (Executor.runTool_discreet _ _).bind fun _ => obeys_pure _

theorem produceLinked_discreet : Obeys (discreet job.logger) job.produceLinked := by
  have writing : Obeys (discreet job.logger) job.produceProgram :=
    adapterBitcode_discreet.bind fun _ => (obeys_forM fun _ _ => linkNative_discreet _).bind fun _ =>
      (RunDirectory.named_discreet _ _).bind fun _ => obeys_get.bind fun _ =>
        (Files.change_filesOnly _ _).discreet.bind fun _ => obeys_pure _
  rw [produceLinked_stages]
  exact writing.bind fun program => setUp_discreet fun setup => (setup.objectFiles_quiet _).bind fun _ =>
    (setup.libraryInputs_quiet _ _).bind fun _ => setup.finishLink_quiet _

/-- Producing an artifact reports nothing but notices, and prints only what is logged. -/
theorem produce_discreet (job : Job) : Obeys (discreet job.logger) job.produce := by
  have way (producer : Producer) : Obeys (discreet job.logger) (job.produceBy producer) := by
    cases producer with
    | bitcode => exact produceBitcode_discreet
    | library => exact produceLibrary_discreet
    | linked => exact produceLinked_discreet
  refine (ofExcept_discreet _).bind fun producer s => ?_
  rw [Meets, after_ensuring]
  exact Contract.Composes.trans (R := discreet job.logger) (way producer s)
    (RunDirectory.remove_discreet _)

end Job

end Foundry
