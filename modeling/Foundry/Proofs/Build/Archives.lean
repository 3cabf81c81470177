import Foundry.Proofs.Build.Link

/-! What becomes of the static libraries among the files that a link is given: those that the platform
does not take are reported, and those that it takes are handed to the tool that links, unless its
recipe has no place for them. -/
namespace Foundry

/-- Whether the command of a recipe names the static libraries that the platform takes. The recipes of
compilers take them and do not name them. -/
def Recipe.namesArchives : Recipe → Bool
  | .gold .. | .apple .. | .copy => true
  | .android | .mingw => false

namespace Platform
variable {p : Platform}

theorem isArchive_of_accepts (accepted : p.acceptsArchive file = true) :
    Setup.isArchive file = true := by
  unfold acceptsArchive at accepted
  unfold Setup.isArchive
  split at accepted <;> simp_all [Bool.or_comm]

theorem acceptsArchive_copy (copying : p.recipe = .copy) (file : String) :
    p.acceptsArchive file = false := by
  simp only [acceptsArchive, copying]

/-- What a flat map of flags with an archive each has of the archives. -/
theorem sublist_flagged (flag : String) (archives : List String) :
    archives.Sublist (archives.flatMap fun archive => [flag, archive]) := by
  induction archives with
  | nil => exact .slnil
  | cons archive rest ih => exact .cons _ (.cons_cons _ ih)

/-- A recipe that names the static libraries names each of them as often as it is given. -/
theorem archives_sublist_args (names : p.recipe.namesArchives) (runs : p.recipe ≠ .copy)
    (made : p.linkCommand objects output switches archives = .ok command) :
    archives.Sublist command.args := by
  have flagged := fun flag rest => (sublist_flagged flag archives).trans
    (List.sublist_append_left _ rest)
  unfold linkCommand at made
  split at made
  · obtain ⟨_, _, made⟩ := except_bind_eq_ok.mp made
    cases made
    simp only [goldArguments, List.append_assoc]
    exact List.sublist_append_of_sublist_right (flagged _ _)
  · obtain ⟨_, _, made⟩ := except_bind_eq_ok.mp made
    obtain ⟨_, _, made⟩ := except_bind_eq_ok.mp made
    cases made
    simp only [appleArguments, List.append_assoc]
    exact List.sublist_append_of_sublist_right <| List.sublist_append_of_sublist_right <|
      List.sublist_append_of_sublist_right <| List.sublist_append_of_sublist_right (flagged _ _)
  all_goals simp_all [Recipe.namesArchives]

/-- The command of a recipe that does not name the static libraries is that of a link without any. -/
theorem linkCommand_nameless (nameless : p.recipe.namesArchives = false) (archives : List String) :
    p.linkCommand objects output switches archives = p.linkCommand objects output switches [] := by
  unfold linkCommand
  split <;> simp_all [Recipe.namesArchives]

end Platform

/-- The session with more diagnostics in its report. -/
def Session.reporting (s : Session) (items : List Diagnostic) : Session :=
  { s with report := { s.report with items := s.report.items ++ items } }

theorem Session.reporting_reporting (s : Session) (first second : List Diagnostic) :
    (s.reporting first).reporting second = s.reporting (first ++ second) := by
  simp only [reporting, List.append_assoc]

/-- The arguments of the first process that was started after `before` and up to `after`; none if
there is no such process. -/
def Session.firstArgvSince (before after : Session) : List String :=
  ((after.started.drop before.started.length).head?.map (·.argv)).getD []

/-- The warnings that were reported after `before` and up to `after`. -/
def Session.warningsSince (before after : Session) : List Diagnostic :=
  (after.report.items.drop before.report.items.length).filter (·.severity = .warning)

namespace LinkAction
open Run

/-- Whether the tool that links is run. -/
def runsLinker : LinkAction → Bool
  | .run | .runThenExtract _ => true
  | .copyWithScript .. => false

theorem firstArgvSince_of_prefix {s t : Session} {start : Start}
    (started : s.started ++ [start] <+: t.started) : s.firstArgvSince t = start.argv := by
  obtain ⟨later, started⟩ := started
  simp [Session.firstArgvSince, ← started]

/-- The tool that links is the first process of a link, if it is run. -/
theorem firstArgvSince_carryOut (action : LinkAction) (executor : Executor) (command : Command)
    (s : Session) :
    s.firstArgvSince ((action.carryOut executor command).after s) =
      if action.runsLinker then command.argv else [] := by
  obtain ⟨piped, first⟩ := executor.runTool_started command s
  cases action with
  | run => exact firstArgvSince_of_prefix ⟨[], by simpa using first.symm⟩
  | runThenExtract extract =>
      have whole : ((executor.runTool command).after s).started <+:
          (((runThenExtract extract).carryOut executor command).after s).started := by
        simp only [carryOut]
        cases ran : executor.runTool command s with
        | ok _ t =>
            rw [after_bind_of_ok ran, after_of_ok ran]
            exact (executor.runTool_stopsAtFailure extract (F := fun _ => True)).growing t
        | error e t =>
            exact ⟨[], by rw [List.append_nil, after_bind_of_error ran, after_of_error ran]⟩
      exact firstArgvSince_of_prefix (first ▸ whole)
  | copyWithScript objects artifact =>
      have same : _ = s.started := (copyWithScript_toolless objects artifact executor command s).2.1
      simp [Session.firstArgvSince, same, runsLinker]

end LinkAction

namespace Setup
open Run

/-- The files of the linked libraries, those of default libraries first. -/
def includedFiles (s : Setup) : List String := s.includedPaths true ++ s.includedPaths false

/-- The static libraries among files that are of no use for the target. -/
def skipped (s : Setup) (files : List String) : List String :=
  files.filter fun file => isArchive file && !s.platform.acceptsArchive file

/-- The diagnostics about them. -/
def skippedWarnings (s : Setup) (files : List String) : List Diagnostic :=
  (s.skipped files).map (Notice.archiveWarning · s.config.target "link")

variable {setup : Setup}

/-- Reporting the skipped files adds their diagnostics, in their order, and does nothing else. -/
theorem reportSkipped_each (setup : Setup) (accepted files : List String) (s : Session)
    (tells : ∀ file ∈ files, accepted.contains file = setup.platform.acceptsArchive file) :
    files.forM (setup.reportSkipped accepted) s =
      .ok () (s.reporting (setup.skippedWarnings files)) := by
  induction files generalizing s with
  | nil => simp [skippedWarnings, skipped, Session.reporting, pure, EStateM.pure]
  | cons file rest ih =>
      have told := tells file (by simp)
      have later := fun s => ih s fun file member => tells file (by simp [member])
      cases skip : isArchive file && !setup.platform.acceptsArchive file with
      | false =>
          have silent : setup.reportSkipped accepted file s = .ok () s := by
            rw [reportSkipped, told, Bool.and_comm, skip]
            rfl
          have same : setup.skippedWarnings (file :: rest) = setup.skippedWarnings rest := by
            simp only [skippedWarnings, skipped, List.filter_cons, skip, Bool.false_eq_true,
              if_false]
          rw [same]
          exact bind_eq_ok.mpr ⟨(), s, silent, later s⟩
      | true =>
          have reported : setup.reportSkipped accepted file s = .ok ()
              (s.reporting [Notice.archiveWarning file setup.config.target "link"]) := by
            rw [reportSkipped, told, Bool.and_comm, skip, Session.reporting]
            simp only [Run.report, Notice.addTo_archiveSkipped]
            rfl
          have more : setup.skippedWarnings (file :: rest) =
              Notice.archiveWarning file setup.config.target "link" ::
                setup.skippedWarnings rest := by
            simp only [skippedWarnings, skipped, List.filter_cons, skip, if_true, List.map_cons]
          refine bind_eq_ok.mpr ⟨(), _, reported, ?_⟩
          rw [later, more, Session.reporting_reporting, List.singleton_append]

theorem staticLibraries_ok (setup : Setup) (files : List String) (s : Session) :
    setup.staticLibraries files s =
      .ok (setup.platform.staticLibraries files) (s.reporting (setup.skippedWarnings files)) := by
  refine bind_eq_ok.mpr ⟨(), _, ?_, rfl⟩
  refine setup.reportSkipped_each _ files s fun file member => ?_
  cases accepted : setup.platform.acceptsArchive file <;>
    simp [Platform.staticLibraries, member, accepted]

/-- What is collected for a link once the artifact has its place. -/
theorem libraryInputs_of_place
    (logged : setup.toolchain.logger.log s!"# Compiler root: {home}" s = .ok () told)
    (placed : setup.linkOutput told = .ok (output, flags) t) (objects : List String) :
    setup.libraryInputs home objects s =
      .ok ⟨objects, output, setup.platform.staticLibraries setup.includedFiles, flags,
          setup.config.libraries.flatMap (·.linkerOptions), setup.includedFiles⟩
        (t.reporting (setup.skippedWarnings setup.includedFiles)) := by
  have taken := setup.staticLibraries_ok setup.includedFiles t
  refine bind_eq_ok.mpr ⟨(), told, logged, bind_eq_ok.mpr ⟨_, t, placed, ?_⟩⟩
  exact bind_eq_ok.mpr ⟨_, _, taken, rfl⟩

/-- Collecting what is linked starts nothing and reports the skipped files alone. -/
theorem libraryInputs_of_ok (collected : setup.libraryInputs home objects s = .ok inputs mid) :
    inputs.included = setup.includedFiles ∧
      inputs.archives = setup.platform.staticLibraries setup.includedFiles ∧
      mid.started = s.started ∧
      mid.report = (s.reporting (setup.skippedWarnings setup.includedFiles)).report := by
  obtain ⟨_, t, logged, collected⟩ := bind_eq_ok.mp collected
  obtain ⟨⟨output, flags⟩, u, found, collected⟩ := bind_eq_ok.mp collected
  obtain ⟨archives, v, taken, collected⟩ := bind_eq_ok.mp collected
  obtain ⟨rfl, rfl⟩ := pure_eq_ok.mp collected
  have found := (setup.linkOutput_filesOnly.obeys t).of_ok found
  rw [staticLibraries_ok] at taken
  cases taken
  obtain ⟨printed, journal, done⟩ := setup.toolchain.logger.log_ok s!"# Compiler root: {home}" s
  rw [done] at logged
  cases logged
  refine ⟨rfl, rfl, ?_, ?_⟩
  · rw [found.1]
    rfl
  · rw [found.1]
    rfl

/-- Each static library among the files is an argument, as often as it is given, or has a warning of
its own each time; there are no other warnings, and they stand in the order of the files. -/
def ArchivesAccounted (target : Target) (files argv : List String) (warnings : List Diagnostic) :
    Prop :=
  ∃ reported : List String, reported.Sublist (files.filter isArchive) ∧
    warnings = reported.map (Notice.archiveWarning · target "link") ∧
    ∀ file ∈ files, isArchive file = true →
      files.count file ≤ argv.count file ∨ reported.count file = files.count file

/-- The arguments of the link of the same inputs without any static library. -/
def bareArgv (s : Setup) (inputs : LinkInputs) : List String :=
  match s.linkCommand { inputs with archives := [] } with
  | .ok command => command.argv
  | .error _ => []

theorem warningsSince_skipped (setup : Setup) (s : Session) (more : List Diagnostic)
    (errors : ∀ item ∈ more, item.severity = .error)
    (items : t.report.items = s.report.items ++ setup.skippedWarnings files ++ more) :
    s.warningsSince t = setup.skippedWarnings files := by
  have none : more.filter (·.severity = .warning) = [] :=
    List.filter_eq_nil_iff.mpr fun item member => by simp [errors item member]
  have all : (setup.skippedWarnings files).filter (·.severity = .warning) =
      setup.skippedWarnings files :=
    List.filter_eq_self.mpr fun item member => by
      obtain ⟨file, _, rfl⟩ := List.mem_map.mp member
      rfl
  rw [Session.warningsSince, items, List.append_assoc, List.drop_left, List.filter_append, none,
    all, List.append_nil]

/-- What the link that comes of these inputs starts and warns about. -/
theorem linkLibraries_after (collected : setup.libraryInputs home objects s = .ok inputs mid)
    (planned : setup.planLink inputs = .ok plan) :
    let t := (setup.linkLibraries home objects).after s
    s.firstArgvSince t = (if plan.action.runsLinker then plan.command.argv else []) ∧
      s.warningsSince t = setup.skippedWarnings setup.includedFiles := by
  obtain ⟨_, _, started, report⟩ := libraryInputs_of_ok collected
  have linking : (setup.linkLibraries home objects).after s = (setup.carryOut plan).after mid := by
    rw [linkLibraries, after_bind_of_ok collected, finishLink, planned]
    rfl
  have argv := plan.action.firstArgvSince_carryOut setup.toolchain.toExecutor plan.command mid
  have quiet := plan.action.carryOut_report setup.toolchain.toExecutor plan.command mid
  have ended := setup.after_carryOut plan mid
  simp only at ended ⊢
  rw [linking]
  generalize (plan.action.carryOut setup.toolchain.toExecutor plan.command).after mid = u
    at argv quiet ended
  rw [Session.firstArgvSince, started] at argv
  rcases ended with ended | ended <;> rw [ended]
  · exact ⟨argv, warningsSince_skipped setup s [] (by simp) (by rw [quiet, report]; simp [Session.reporting])⟩
  · exact ⟨argv, warningsSince_skipped setup s [Notice.linkError "link"] (by simp [Notice.linkError])
      (by rw [quiet, report]; rfl)⟩

theorem planLink_of_ok (planned : setup.planLink inputs = .ok plan) :
    setup.linkCommand inputs = .ok plan.command ∧
      plan.action = setup.platform.action inputs.objects inputs.output setup.config.debug := by
  obtain ⟨command, made, rest⟩ := except_bind_eq_ok.mp planned
  cases rest
  exact ⟨made, rfl⟩

theorem planLink_output (planned : setup.planLink inputs = .ok plan) : plan.output = inputs.output := by
  obtain ⟨command, -, rest⟩ := except_bind_eq_ok.mp planned
  cases rest
  rfl

/-- A recipe that names the static libraries names them in the whole command too. -/
theorem archives_sublist_argv (names : setup.platform.recipe.namesArchives)
    (runs : setup.platform.recipe ≠ .copy) (made : setup.linkCommand inputs = .ok command) :
    inputs.archives.Sublist command.argv := by
  obtain ⟨bare, linked, rest⟩ := except_bind_eq_ok.mp made
  cases rest
  have first := Platform.archives_sublist_args names runs linked
  simp only [Command.argv, Command.withFlags, Command.withLibraries, List.append_assoc]
  exact .cons _ (first.trans (List.sublist_append_left _ _))

theorem bareArgv_of_nameless (nameless : setup.platform.recipe.namesArchives = false)
    (made : setup.linkCommand inputs = .ok command) : setup.bareArgv inputs = command.argv := by
  have same : setup.linkCommand { inputs with archives := [] } = setup.linkCommand inputs := by
    simp only [linkCommand, Platform.linkCommand_nameless nameless inputs.archives]
  rw [bareArgv, same, made]

theorem runsLinker_of_recipe (runs : setup.platform.recipe ≠ .copy) (objects : List String)
    (artifact : String) (debug : Bool) :
    (setup.platform.action objects artifact debug).runsLinker = true := by
  unfold Platform.action
  split
  · split <;> rfl
  · contradiction
  · rfl

/-- A link keeps its static libraries apart from those it reports, which is all of them, exactly
where its recipe names them or they stand among its other arguments anyway. -/
theorem archives_accounted_iff (collected : setup.libraryInputs home objects s = .ok inputs mid)
    (planned : setup.planLink inputs = .ok plan) :
    let t := (setup.linkLibraries home objects).after s
    ArchivesAccounted setup.config.target setup.includedFiles (s.firstArgvSince t)
        (s.warningsSince t) ↔
      setup.platform.recipe.namesArchives = true ∨
        ∀ file ∈ setup.includedFiles, setup.platform.acceptsArchive file = true →
          setup.includedFiles.count file ≤ (setup.bareArgv inputs).count file := by
  obtain ⟨_, archives, _⟩ := libraryInputs_of_ok collected
  obtain ⟨argv, warnings⟩ := linkLibraries_after collected planned
  obtain ⟨made, action⟩ := planLink_of_ok planned
  simp only [argv, warnings]
  constructor
  · rintro ⟨reported, _, same, each⟩
    have reported : setup.skipped setup.includedFiles = reported :=
      (List.map_inj_right fun _ _ equal => Notice.archiveWarning_injective _ _ equal).mp same
    cases names : setup.platform.recipe.namesArchives with
    | true => exact .inl rfl
    | false =>
        refine .inr fun file member accepted => ?_
        have runs : setup.platform.recipe ≠ .copy := by
          rintro copying
          simp [copying, Recipe.namesArchives] at names
        rw [action, runsLinker_of_recipe runs, if_pos rfl,
          ← bareArgv_of_nameless names made] at each
        -- an accepted file is never reported, so it must be among the arguments
        refine (each file member (Platform.isArchive_of_accepts accepted)).resolve_right fun all => ?_
        have absent : file ∉ setup.skipped setup.includedFiles := by simp [skipped, accepted]
        rw [← reported, List.count_eq_zero_of_not_mem absent] at all
        exact absurd member (List.count_eq_zero.mp all.symm)
  · intro condition
    refine ⟨setup.skipped setup.includedFiles, ?_, rfl, fun file member isArchive => ?_⟩
    · have chosen : setup.skipped setup.includedFiles =
          (setup.includedFiles.filter isArchive).filter (!setup.platform.acceptsArchive ·) := by
        simp only [skipped, List.filter_filter, Bool.and_comm]
      exact chosen ▸ List.filter_sublist
    · cases accepted : setup.platform.acceptsArchive file with
      | false => exact .inr (List.count_filter (by simp [isArchive, accepted]))
      | true =>
          have runs : setup.platform.recipe ≠ .copy := fun copying => by
            simp [Platform.acceptsArchive_copy copying] at accepted
          rw [action, runsLinker_of_recipe runs, if_pos rfl]
          refine .inl ?_
          cases names : setup.platform.recipe.namesArchives with
          | true =>
              have whole := (archives_sublist_argv names runs made).count_le file
              rwa [archives, Platform.staticLibraries, List.count_filter accepted] at whole
          | false =>
              rw [← bareArgv_of_nameless names made]
              exact (condition.resolve_left (by simp [names])) file member accepted

/-- A program for Linux with two kinds of static libraries. -/
def withArchives : Setup where
  config := {
    target := .linuxX64
    produce := .kind .program
    outputName := "program"
    libraries := [{ name := "z", includedPaths := ["libz.a", "z.lib", "libz.a"] }] }
  platform := {
    properties := {
      target := .linuxX64
      table := .table [("dynamic_linker", .text "/lib/ld.so")]
      distribution := { home := "/home", llvmHome := "/llvm" } }
    flags := fun _ => []
    toolchain := "/toolchain"
    sysroot := "/sysroot"
    libffi := []
    recipe := .gold "/llvm/lib" "/gcc" [] [] }
  toolchain := { llvmBin := "/llvm/bin", target := "/toolchain" }

theorem archives_accounted_on_linux :
    let t := (withArchives.linkLibraries "/home" ["main.o"]).after .blank
    ∃ inputs mid plan,
      withArchives.libraryInputs "/home" ["main.o"] .blank = .ok inputs mid ∧
        withArchives.planLink inputs = .ok plan ∧
        ArchivesAccounted .linuxX64 withArchives.includedFiles (Session.blank.firstArgvSince t)
          (Session.blank.warningsSince t) :=
  ⟨_, _, _, rfl, rfl, (@archives_accounted_iff withArchives _ _ _ _ _ _ rfl rfl).mpr (.inl rfl)⟩

/-- The same program for Android. -/
def withArchivesOnAndroid : Setup :=
  { withArchives with
    config := { withArchives.config with target := .androidArm64 }
    platform := { withArchives.platform with recipe := .android } }

/-- The compiler that links for Android is started without the static library, and nothing is said
about it. -/
theorem archive_dropped_on_android :
    let t := (withArchivesOnAndroid.linkLibraries "/home" ["main.o"]).after .blank
    (Session.blank.firstArgvSince t).head? = some "/toolchain/bin/clang" ∧
      ¬ ArchivesAccounted .androidArm64 withArchivesOnAndroid.includedFiles
        (Session.blank.firstArgvSince t) (Session.blank.warningsSince t) := by
  have argv : Session.blank.firstArgvSince
      ((withArchivesOnAndroid.linkLibraries "/home" ["main.o"]).after .blank) =
      ["/toolchain/bin/clang", "-o", "program.kexe", "-fPIC", "-shared", "-llog", "main.o"] := by
    decide
  have warnings : (Session.blank.warningsSince
      ((withArchivesOnAndroid.linkLibraries "/home" ["main.o"]).after .blank)).length = 1 := by
    decide
  refine ⟨by rw [argv]; rfl, fun ⟨reported, _, same, each⟩ => ?_⟩
  have one : reported.length = 1 := by rw [← warnings, same, List.length_map]
  obtain ⟨file, rfl⟩ := List.length_eq_one_iff.mp one
  rw [argv] at each
  rcases each "libz.a" (by decide) (by decide) with linked | reported
  · exact absurd linked (by decide)
  · have twice : withArchivesOnAndroid.includedFiles.count "libz.a" = 2 := by decide
    have once := List.count_le_length (a := "libz.a") (l := [file])
    rw [reported, twice] at once
    exact absurd once (by simp)

end Setup

end Foundry
