import Foundry.CommandLine.Run
import Foundry.Proofs.Build.FailStop
import Foundry.Proofs.Build.Reported
import Foundry.Proofs.Properties.Load

/-! How the program ends: its exit status tells whether producing an artifact was reached and gave one,
and whether anything was reported. -/
namespace Foundry

open Run

namespace Report

theorem line_nonempty (program : String) (colored : Bool) (item : Diagnostic) :
    line program colored item ≠ "" := by
  intro empty
  have chars := congrArg String.toList empty
  unfold line at chars
  cases colored <;> simp [toString] at chars

theorem intercalate_lines {lines : List String} (some : lines ≠ []) :
    String.intercalate "\n" lines ++ "\n" = String.join (lines.map (· ++ "\n")) := by
  induction lines with
  | nil => contradiction
  | cons line rest ih =>
      cases rest with
      | nil => simp
      | cons next more =>
          rw [List.map_cons, String.join_cons, ← ih (by simp)]
          simp [String.intercalate_cons_of_ne_nil, String.append_assoc]

/-- A printed report is the lines of its diagnostics, in their order. -/
theorem printed_eq (report : Report) (colored : Bool) : report.printed colored =
    String.join (report.items.map fun item => line report.program colored item ++ "\n") := by
  unfold printed format
  cases items : report.items with
  | nil => rfl
  | cons item rest =>
      have lines : (item :: rest).map (line report.program colored) ≠ [] := by simp
      have whole := intercalate_lines lines
      have some : String.intercalate "\n" ((item :: rest).map (line report.program colored)) ≠ "" := by
        intro empty
        have chars := congrArg String.toList empty
        cases rest with
        | nil => exact line_nonempty _ _ _ (by simpa using empty)
        | cons next more =>
            rw [List.map_cons, String.intercalate_cons_of_ne_nil (by simp)] at chars
            simp at chars
      rw [if_neg some, whole, List.map_map]
      rfl

end Report

namespace CommandLine

/-- Whether the diagnostics of a session are printed in colors. -/
def colored (s : Session) : Bool :=
  Report.colorsByDefault s.host.terminal (s.host.environment.lookup "NO_COLOR")
    (s.host.environment.lookup "TERM")

theorem printReport_ok (s : Session) : Settings.printReport s =
    .ok () { s with errors := s.errors ++ s.report.printed (colored s) } := rfl

/-- Nothing is reported, and lines are printed to the output only by a verbose program. -/
def gathering (loud : Bool) : Contract := fun _ s t =>
  t.host = s.host ∧ t.report = s.report ∧ ∃ lines, s.Prints t lines ∧ (loud = false → lines = [])

instance (loud : Bool) : (gathering loud).Composes where
  refl s := ⟨rfl, rfl, [], .of_same rfl, fun _ => rfl⟩
  trans := by
    rintro ending s t u ⟨host, report, lines, prints, quiet⟩ ⟨host', report', more, prints', quiet'⟩
    refine ⟨host'.trans host, report'.trans report, _, prints.trans prints', fun silent => ?_⟩
    rw [quiet silent, quiet' silent, List.append_nil]

section Gathering
variable {loud : Bool}

/-- A step that prints nothing to the output. -/
theorem gathering_of_same {ending : Option Failure} {s t : Session} (host : t.host = s.host)
    (report : t.report = s.report) (output : t.output = s.output) : gathering loud ending s t :=
  ⟨host, report, [], .of_same output, fun _ => rfl⟩

theorem gathering_of_files {run : Run α} (kept : OnFiles F run) :
    Obeys (gathering loud) run := by
  intro s
  have same := (kept.obeys s).1
  exact gathering_of_same (by rw [same]) (by rw [same]) (by rw [same])

theorem throw_gathering (e : Failure) : Obeys (gathering loud) (throw e : Run α) :=
  fun _ => gathering_of_same rfl rfl rfl

theorem ofExcept_gathering (result : Except Failure α) :
    Obeys (gathering loud) (Run.ofExcept result) :=
  obeys_ofExcept fun e s _ => throw_gathering (α := α) e s

theorem print_gathering (verbose : loud = true) (release : Release) (toolkit : Toolkit) :
    Obeys (gathering loud) (release.print toolkit) := by
  have printing (line : String) : Obeys (gathering loud) (Run.print line) :=
    obeys_modify fun s => ⟨rfl, rfl, [line], .print s line, by simp [verbose]⟩
  refine obeys_get.bind fun session => (printing _).bind fun _ => ?_
  split
  · exact obeys_pure _
  · exact obeys_pure _
  · exact obeys_forM fun line _ => printing line
  · exact obeys_modify fun s => gathering_of_same rfl rfl rfl

end Gathering

namespace Settings

variable {loud : Bool}

/-- What a build is given by the files of its command line, or why they are refused. -/
def readInputs (s : Settings) (source : String) :
    Run (Except String (Path × List LinkedLibrary × Bytes)) := do
  let path ← Files.resolve (.ofText source)
  match linkedLibraries (texts s.defaultLibraries) (texts s.libraries)
      (texts s.libraryLinkerOptions) with
  | .error e => return .error e.message
  | .ok libraries =>
    match ← readModule path with
    | .error problem => return .error problem
    | .ok () =>
      match ← s.readLinkData with
      | .error problem => return .error problem
      | .ok linkData => return .ok (path, libraries, linkData)

/-- The build of a module, from the properties and the target. -/
def prepare (s : Settings) (source : Path) (libraries : List LinkedLibrary) (linkData : Bytes) :
    Run Job := do
  let properties ← s.loadProperties
  let target ← s.chosenTarget
  if s.verbose then Release.print {} (.found properties target)
  let named := texts s.defaultNativeLibraries
  let defaultNatives ← if named.isEmpty then
      properties.distribution.defaultNativeLibraries target
    else pure named
  let config ← Run.ofExcept (s.config source target libraries defaultNatives)
  return { config, properties, linkData, depends := texts s.depends }

/-- The build of a module with known properties for a known target. -/
def jobFor (s : Settings) (source : Path) (libraries : List LinkedLibrary) (linkData : Bytes)
    (properties : Properties) (target : Target) : Run Job := do
  let named := texts s.defaultNativeLibraries
  let defaultNatives ← if named.isEmpty then
      properties.distribution.defaultNativeLibraries target
    else pure named
  let config ← Run.ofExcept (s.config source target libraries defaultNatives)
  return { config, properties, linkData, depends := texts s.depends }

/-- What a verbose program says about the toolchain. -/
def announce (s : Settings) (properties : Properties) (target : Target) : Run Unit :=
  if s.verbose then Release.print {} (.found properties target) else pure ()

theorem prepare_stages (s : Settings) (source : Path) (libraries : List LinkedLibrary) (linkData : Bytes) :
    s.prepare source libraries linkData = (do
      let properties ← s.loadProperties
      let target ← s.chosenTarget
      s.announce properties target
      s.jobFor source libraries linkData properties target) := by
  unfold prepare announce
  refine bind_congr fun properties => bind_congr fun target => ?_
  cases s.verbose with
  | true => rfl
  | false => exact (pure_bind _ _).symm

theorem build_eq (s : Settings) (source : Path) (libraries : List LinkedLibrary) (linkData : Bytes) :
    s.build source libraries linkData = s.prepare source libraries linkData >>= Job.produce := by
  unfold build prepare
  simp only [bind_assoc]
  refine bind_congr fun properties => bind_congr fun target => ?_
  generalize (texts s.defaultNativeLibraries).isEmpty = without
  cases s.verbose <;> cases without <;>
    simp only [Bool.false_eq_true, if_true, if_false, bind_assoc, pure_bind]

theorem buildSource_eq (s : Settings) (source : String) :
    s.buildSource source = (do
      match ← s.readInputs source with
      | .error problem => refuse problem
      | .ok (path, libraries, linkData) => s.buildAndReport path libraries linkData) := by
  unfold buildSource readInputs
  cases linkedLibraries (texts s.defaultLibraries) (texts s.libraries)
      (texts s.libraryLinkerOptions) with
  | error e => simp
  | ok libraries =>
      simp only [bind_assoc]
      refine bind_congr fun path => bind_congr fun module => ?_
      cases module with
      | error problem => rfl
      | ok _ =>
          simp only [bind_assoc]
          refine bind_congr fun linkData => ?_
          cases linkData <;> rfl

theorem readInput_gathering (path : String) : Obeys (gathering loud) (readInput path) := by
  have reading : Obeys (gathering loud) (Files.read (Path.ofText path).text) :=
    gathering_of_files (Files.ask_filesOnly _ _)
  have mapped : Obeys (gathering loud)
      ((Files.read (Path.ofText path).text).map (Except.ok (ε := String))) := reading.map _
  refine Obeys.tryCatch mapped fun e s t failed => ?_
  have kept := (mapped s).of_error failed
  split
  · exact kept
  · exact kept

theorem readInputs_gathering (s : Settings) (source : String) :
    Obeys (gathering false) (s.readInputs source) := by
  have module (path : Path) : Obeys (gathering false) (readModule path) := by
    refine (readInput_gathering _).bind fun content => ?_
    split
    · exact obeys_pure _
    · refine (ofExcept_gathering _).bind fun module => ?_
      split
      · exact obeys_pure _
      · refine Obeys.bind (obeys_modify fun s => ?_) fun _ => obeys_pure _
        exact gathering_of_same rfl rfl rfl
  have linkData : Obeys (gathering false) s.readLinkData := by
    unfold readLinkData
    split
    · exact obeys_pure _
    · exact readInput_gathering _
  refine (gathering_of_files (Files.resolve_filesOnly _)).bind fun path => ?_
  split
  · exact obeys_pure _
  · refine (module path).bind fun read => ?_
    split
    · exact obeys_pure _
    · refine linkData.bind fun read => ?_
      split
      · exact obeys_pure _
      · exact obeys_pure _

theorem prepare_gathering (s : Settings) (source : Path) (libraries : List LinkedLibrary)
    (linkData : Bytes) : Obeys (gathering s.verbose) (s.prepare source libraries linkData) := by
  have choosing : Obeys (gathering s.verbose) s.chosenTarget := by
    refine obeys_get.bind fun session => ?_
    dsimp only
    split
    · exact obeys_pure _
    · exact throw_gathering _
  have natives (d : Distribution) (target : Target) :
      Obeys (gathering s.verbose) (d.defaultNativeLibraries target) :=
    (gathering_of_files (F := fun _ => True) (Files.look_filesOnly _)).bind fun _ =>
      (gathering_of_files (Files.names_filesOnly _)).bind fun _ => obeys_pure _
  have finishing (properties : Properties) (target : Target) : Obeys (gathering s.verbose)
      (s.jobFor source libraries linkData properties target) := by
    unfold jobFor
    dsimp only
    split
    · exact (natives _ _).bind fun _ => (ofExcept_gathering _).bind fun _ => obeys_pure _
    · exact (obeys_pure _).bind fun _ => (ofExcept_gathering _).bind fun _ => obeys_pure _
  have announcing (properties : Properties) (target : Target) : Obeys (gathering s.verbose)
      (s.announce properties target) := by
    unfold announce
    split
    · rename_i verbose
      exact print_gathering verbose _ _
    · exact obeys_pure _
  rw [prepare_stages]
  exact (gathering_of_files (Properties.load_reads _ _ _ _)).bind fun properties =>
    choosing.bind fun target => (announcing properties target).bind fun _ => finishing properties target

/-- A run with these settings comes to producing the artifact of a job. -/
def Reaches (settings : Settings) (s : Session) (job : Job) (t : Session) : Prop :=
  ∃ source path libraries linkData u, settings.source = some source ∧ source ≠ "" ∧
    settings.readInputs source s = .ok (.ok (path, libraries, linkData)) u ∧
    settings.prepare path libraries linkData u = .ok job t

variable {settings : Settings} {s t u v : Session} {path : Path} {libraries : List LinkedLibrary}
  {linkData : Bytes} {job job' : Job} {artifact : Option String}

theorem Reaches.unique (reaches : settings.Reaches s job t) (reaches' : settings.Reaches s job' t') :
    job = job' ∧ t = t' := by
  obtain ⟨source, path, libraries, linkData, u, given, -, read, prepared⟩ := reaches
  obtain ⟨_, _, _, _, _, given', -, read', prepared'⟩ := reaches'
  obtain rfl := Option.some.inj (given.symm.trans given')
  rw [read] at read'
  cases read'
  rw [prepared] at prepared'
  cases prepared'
  exact ⟨rfl, rfl⟩

/-- Up to producing the artifact nothing is reported, and only a verbose program prints to the output. -/
theorem Reaches.gathering (reaches : settings.Reaches s job t) :
    t.report = s.report ∧ ∃ lines, s.Prints t lines ∧ (settings.verbose = false → lines = []) := by
  obtain ⟨source, path, libraries, linkData, u, -, -, read, prepared⟩ := reaches
  obtain ⟨-, report, lines, prints, none⟩ := (readInputs_gathering settings source s).of_ok read
  obtain ⟨-, report', more, prints', quiet⟩ := (prepare_gathering settings _ _ _ u).of_ok prepared
  refine ⟨report'.trans report, _, prints.trans prints', fun silent => ?_⟩
  rw [none rfl, quiet silent, List.append_nil]

/-- The exit status that a report alone decides. -/
def verdict (report : Report) : ExitStatus :=
  if report.hasErrors then .failed else if report.hasWarnings then .warned else .success

/-- What is said last about an artifact. -/
def farewell (settings : Settings) (report : Report) (artifact : Option String) : List String :=
  if report.hasErrors || !settings.verbose then [] else artifact.toList.map (s!"Wrote {·}")

/-- The session after the report is printed, and the last lines. -/
def closed (settings : Settings) (artifact : Option String) (s : Session) : Session :=
  { s with
    errors := s.errors ++ s.report.printed (colored s)
    output := s.output ++ String.join ((settings.farewell s.report artifact).map (· ++ "\n")) }

/-- A build whose fault is among what is reported. -/
def withFault (f : Fault) (s : Session) : Session :=
  { s with report := s.report.error f.code f.message (some "backend") }

theorem buildAndReport_ok (ran : settings.buildAndReport path libraries linkData s = .ok status t) :
    ∃ artifact u, (settings.build path libraries linkData s = .ok artifact u ∨
        ∃ f v, settings.build path libraries linkData s = .error (.fault f) v ∧ artifact = none ∧
          u = withFault f v) ∧
      status = verdict u.report ∧ t = settings.closed artifact u := by
  obtain ⟨artifact, u, built, ran⟩ := bind_eq_ok.mp ran
  refine ⟨artifact, u, ?_, ?_⟩
  · cases run : settings.build path libraries linkData s with
    | ok a v =>
        rw [tryCatch_of_ok run] at built
        exact .inl built
    | error e v =>
        rw [tryCatch_of_error run] at built
        split at built
        · cases built
          exact .inr ⟨_, v, rfl, rfl, rfl⟩
        · nomatch built
  · rw [bind_of_ok (printReport_ok u)] at ran
    obtain ⟨w, _, found, ran⟩ := bind_eq_ok.mp ran
    cases found
    unfold verdict closed farewell
    dsimp only at ran
    cases errors : u.report.hasErrors with
    | true =>
        simp only [errors, if_true] at ran
        cases ran
        simp
    | false =>
        simp only [errors, Bool.false_eq_true, if_false] at ran
        cases artifact with
        | none =>
            cases ran
            simp
        | some path =>
            cases verbose : settings.verbose with
            | false =>
                simp only [verbose, Bool.false_eq_true, if_false] at ran
                cases ran
                simp
            | true =>
                simp only [verbose, if_true] at ran
                obtain ⟨_, _, printed, ran⟩ := bind_eq_ok.mp ran
                cases printed
                cases ran
                simp [String.append_assoc]

/-- How a run that builds something ends. -/
inductive Ends (settings : Settings) (s : Session) : ExitStatus → Session → Prop where
  | unreached (t : Session) : (∀ job u, ¬ settings.Reaches s job u) → Ends settings s .failed t
  | refused (job : Job) (u v t : Session) (f : Fault) : settings.Reaches s job u →
      job.produce u = .error (.fault f) v → t.output = v.output → Ends settings s .failed t
  | linkFailed (job : Job) (u v t : Session) : settings.Reaches s job u →
      job.produce u = .ok none v → t.output = v.output → Ends settings s .failed t
  | produced (job : Job) (u v : Session) (path : String) : settings.Reaches s job u →
      job.produce u = .ok (some path) v →
      (∀ item ∈ v.report.items, item.severity = .warning ∧ item.code = "CW4009") →
      Ends settings s (if v.report.items = [] then .success else .warned)
        (settings.closed (some path) v)

theorem config_verbose {made : Config}
    (ready : settings.config path machine libraries natives = .ok made) :
    made.verbose = settings.verbose := by
  unfold config at ready
  split at ready
  · obtain ⟨produce, -, ready⟩ := except_bind_eq_ok.mp ready
    rw [← except_pure_eq_ok.mp ready]
  · nomatch ready

/-- A build logs only if the program is verbose. -/
theorem prepare_logger (prepared : settings.prepare path libraries linkData s = .ok job t)
    (quiet : settings.verbose = false) : job.logger = .off := by
  obtain ⟨properties, u, -, prepared⟩ := bind_eq_ok.mp prepared
  obtain ⟨target, v, -, prepared⟩ := bind_eq_ok.mp prepared
  have finish (natives : List String) (w : Session) (finished : (do
      let config ← Run.ofExcept (settings.config path target libraries natives)
      return { config, properties, linkData, depends := texts settings.depends : Job }) w = .ok job t) :
      job.logger = .off := by
    obtain ⟨config, x, made, finished⟩ := bind_eq_ok.mp finished
    obtain ⟨made, -⟩ := ofExcept_eq_ok.mp made
    obtain ⟨rfl, -⟩ := pure_eq_ok.mp finished
    simp [Job.logger, config_verbose made, quiet]
  simp only [quiet, Bool.false_eq_true, if_false] at prepared
  split at prepared
  · obtain ⟨natives, w, -, prepared⟩ := bind_eq_ok.mp prepared
    exact finish natives w prepared
  · exact finish _ _ prepared

theorem hasErrors_eq (report : Report) : report.hasErrors = false ↔ report.errors = [] := by
  simp [Report.hasErrors, Report.errors, List.filter_eq_nil_iff]

/-- An artifact comes with warnings about static libraries alone, and a failed link with an error. -/
theorem produce_items (ran : job.produce u = .ok artifact v) (fresh : u.report.items = []) :
    (artifact.isSome → ∀ item ∈ v.report.items, item.severity = .warning ∧ item.code = "CW4009") ∧
      (artifact = none → v.report.hasErrors = true) := by
  have none : u.report.errors = [] := by simp [Report.errors, fresh]
  obtain ⟨-, ends⟩ := Job.produce_ends job u
  obtain ⟨-, ⟨new, report, notices⟩, -⟩ := (job.produce_discreet u).of_ok ran
  rw [ran] at ends
  cases ends with
  | produced path _ _ errors =>
      refine ⟨fun _ item member => ?_, fun missing => absurd missing (Option.some_ne_none path)⟩
      have notice : item.IsNotice := notices item (by simpa [report, fresh] using member)
      rcases notice with ⟨path, target, stage, rfl⟩ | ⟨stage, rfl⟩
      · exact ⟨rfl, rfl⟩
      · have error : Notice.linkError stage ∈ v.report.errors := List.mem_filter.mpr ⟨member, rfl⟩
        rw [errors, none] at error
        contradiction
  | linkFailed _ _ _ _ _ _ errors _ =>
      refine ⟨fun there => absurd there Bool.false_ne_true, fun _ => ?_⟩
      rw [← Bool.not_eq_false, hasErrors_eq, errors]
      simp

theorem closed_output (errors : s.report.hasErrors = true) :
    (settings.closed artifact s).output = s.output := by
  simp [closed, farewell, errors]

theorem verdict_of_warnings {report : Report} (warnings : ∀ item ∈ report.items, item.severity = .warning) :
    verdict report = if report.items = [] then .success else .warned := by
  have clean : report.hasErrors = false := by
    rw [hasErrors_eq, Report.errors, List.filter_eq_nil_iff]
    exact fun item member => by simp [warnings item member]
  rw [verdict, clean]
  cases items : report.items with
  | nil => simp [Report.hasWarnings, items]
  | cons item rest => simp [Report.hasWarnings, items, warnings item (by simp [items])]

theorem ends_of_build {file : String} (named : settings.source = some file) (nonempty : file ≠ "")
    (read : settings.readInputs file s = .ok (.ok (path, libraries, linkData)) u)
    (fresh : s.report.items = [])
    (ran : settings.buildAndReport path libraries linkData u = .ok status t) :
    settings.Ends s status t := by
  obtain ⟨artifact, w, built, rfl, rfl⟩ := buildAndReport_ok ran
  have reaches {job : Job} {v : Session} (prepared : settings.prepare path libraries linkData u = .ok job v) :
      settings.Reaches s job v := ⟨file, path, libraries, linkData, u, named, nonempty, read, prepared⟩
  rcases built with built | ⟨f, v, failed, rfl, rfl⟩
  · rw [build_eq] at built
    obtain ⟨job, v, prepared, produced⟩ := bind_eq_ok.mp built
    have clean : v.report.items = [] := by rw [(reaches prepared).gathering.1, fresh]
    obtain ⟨warnings, error⟩ := produce_items produced clean
    cases artifact with
    | none =>
        rw [verdict, if_pos (error rfl)]
        exact .linkFailed job v w _ (reaches prepared) produced (closed_output (error rfl))
    | some path =>
        rw [verdict_of_warnings fun item member => (warnings rfl item member).1]
        exact .produced job v w path (reaches prepared) produced (warnings rfl)
  · have error : (withFault f v).report.hasErrors = true := by
      simp [withFault, Report.error, Report.push, Report.hasErrors]
    rw [verdict, if_pos error]
    rw [build_eq] at failed
    rcases bind_eq_error.mp failed with failed | ⟨job, x, prepared, failed⟩
    · refine .unreached _ ?_
      rintro job x ⟨_, _, _, _, _, named', _, read', prepared⟩
      obtain rfl := Option.some.inj (named.symm.trans named')
      rw [read] at read'
      cases read'
      rw [failed] at prepared
      cases prepared
    · exact .refused job x v _ f (reaches prepared) failed (closed_output error)

/-- What a run has said: its report, line by line, and lines on the output only if it is verbose. -/
structure Said (settings : Settings) (s t : Session) : Prop where
  errors : ∃ before, t.errors = before ++
    String.join (t.report.items.map fun item => Report.line t.report.program (colored s) item ++ "\n")
  output : ∃ lines, s.Prints t lines ∧ (settings.verbose = false → lines = [])

theorem said_refusal (fresh : s.report.items = []) (ran : refuse problem s = .ok status t) :
    status = .failed ∧ settings.Said s t := by
  cases ran
  refine ⟨rfl, ⟨s.errors ++ s!"error: {problem}" ++ "\n", ?_⟩, [], .of_same rfl, fun _ => rfl⟩
  simp [fresh]

theorem closed_prints (artifact : Option String) (s : Session) :
    s.Prints (settings.closed artifact s) (settings.farewell s.report artifact) := rfl

theorem said_closed (host : u.host = s.host) (prints : s.Prints u lines)
    (quiet : settings.verbose = false → lines = []) : settings.Said s (settings.closed artifact u) := by
  refine ⟨⟨u.errors, ?_⟩, _, prints.trans (closed_prints artifact u), fun silent => ?_⟩
  · simp only [closed, Report.printed_eq, colored, host]
  · simp [quiet silent, farewell, silent]

/-- Lines are printed to the output only by a verbose program. -/
def speaking (settings : Settings) : Contract := fun _ s t =>
  t.host = s.host ∧ ∃ lines, s.Prints t lines ∧ (settings.verbose = false → lines = [])

instance (settings : Settings) : (speaking settings).Composes where
  refl s := ⟨rfl, [], .of_same rfl, fun _ => rfl⟩
  trans := by
    rintro ending s t u ⟨host, lines, prints, quiet⟩ ⟨host', more, prints', quiet'⟩
    refine ⟨host'.trans host, _, prints.trans prints', fun silent => ?_⟩
    rw [quiet silent, quiet' silent, List.append_nil]

theorem build_speaking : Obeys (speaking settings) (settings.build path libraries linkData) := by
  intro s
  have preparing : Meets (speaking settings) (settings.prepare path libraries linkData) s := by
    obtain ⟨host, -, said⟩ := prepare_gathering settings path libraries linkData s
    exact ⟨host, said⟩
  rw [build_eq]
  refine preparing.bind fun job t prepared => ?_
  obtain ⟨host, -, lines, prints, off⟩ := job.produce_discreet t
  exact ⟨host, lines, prints, fun quiet => off (prepare_logger prepared quiet)⟩

theorem said_of_build (ran : settings.buildAndReport path libraries linkData s = .ok status t) :
    settings.Said s t := by
  obtain ⟨artifact, u, built, -, rfl⟩ := buildAndReport_ok ran
  have spoken : speaking settings none s u := by
    rcases built with built | ⟨f, v, failed, rfl, rfl⟩
    · exact (build_speaking s).of_ok built
    · have spoken : speaking settings (some (.fault f)) s v := (build_speaking s).of_error failed
      exact spoken
  obtain ⟨host, lines, prints, quiet⟩ := spoken
  exact said_closed host prints quiet

/-- What is said after a start that printed nothing. -/
theorem Said.of_later (host : u.host = s.host) (prints : s.Prints u []) (said : settings.Said u t) :
    settings.Said s t := by
  obtain ⟨errors, lines, prints', quiet⟩ := said
  rw [show colored u = colored s by simp only [colored, host]] at errors
  exact ⟨errors, lines, prints.trans prints', quiet⟩

section Run
variable (version : settings.version = false) (info : CommandLine.given settings.libraryInfo = none)
include version info

theorem run_without_source (missing : ∀ file, settings.source = some file → file = "") :
    settings.run = refuse "source file required" := by
  unfold run
  rw [version, info]
  cases named : settings.source with
  | none => rfl
  | some file =>
      obtain rfl := missing file named
      rfl

theorem run_of_source {file : String} (named : settings.source = some file) (nonempty : file ≠ "") :
    settings.run = settings.buildSource file := by
  unfold run
  rw [version, info, named]
  simp only [Bool.false_eq_true, if_false]

theorem run_ends (fresh : s.report.items = []) (ran : settings.run s = .ok status t) :
    settings.Ends s status t ∧ settings.Said s t := by
  -- an empty name counts as none
  by_cases named : ∃ file, settings.source = some file ∧ file ≠ ""
  · obtain ⟨file, named, nonempty⟩ := named
    rw [run_of_source version info named nonempty, buildSource_eq] at ran
    obtain ⟨inputs, u, read, ran⟩ := bind_eq_ok.mp ran
    obtain ⟨host, report, lines, prints, none⟩ := (readInputs_gathering settings file s).of_ok read
    rw [none rfl] at prints
    cases inputs with
    | error problem =>
        obtain ⟨rfl, said⟩ := said_refusal (report ▸ fresh) ran
        refine ⟨.unreached t fun job v ⟨_, _, _, _, _, named', _, read', _⟩ => ?_,
          said.of_later host prints⟩
        obtain rfl := Option.some.inj (named.symm.trans named')
        rw [read] at read'
        nomatch read'
    | ok inputs =>
        exact ⟨ends_of_build named nonempty read fresh ran, (said_of_build ran).of_later host prints⟩
  · have missing (file : String) (given : settings.source = some file) : file = "" :=
      Decidable.byContradiction fun nonempty => named ⟨file, given, nonempty⟩
    rw [run_without_source version info missing] at ran
    obtain ⟨rfl, said⟩ := said_refusal fresh ran
    refine ⟨.unreached t fun job u ⟨file, _, _, _, _, given, nonempty, _⟩ => ?_, said⟩
    exact nonempty (missing file given)

end Run

theorem Ends.failed_iff (ends : settings.Ends s status t) :
    status = .failed ↔ (¬ ∃ job u, settings.Reaches s job u) ∨
      ∃ job u v, settings.Reaches s job u ∧
        ((∃ f, job.produce u = .error (.fault f) v) ∨ job.produce u = .ok none v) := by
  cases ends with
  | unreached _ none => exact iff_of_true rfl (.inl fun ⟨job, u, reaches⟩ => none job u reaches)
  | refused job u v _ f reaches failed _ =>
      exact iff_of_true rfl (.inr ⟨job, u, v, reaches, .inl ⟨f, failed⟩⟩)
  | linkFailed job u v _ reaches failed _ =>
      exact iff_of_true rfl (.inr ⟨job, u, v, reaches, .inr failed⟩)
  | produced job u v path reaches produced _ =>
      refine iff_of_false (by split <;> nofun) ?_
      rintro (none | ⟨job', u', v', reaches', ended⟩)
      · exact none ⟨job, u, reaches⟩
      · obtain ⟨rfl, rfl⟩ := reaches.unique reaches'
        rw [produced] at ended
        rcases ended with ⟨f, ended⟩ | ended
        · nomatch ended
        · nomatch ended

/-- How a run ends that came to an artifact. -/
theorem Ends.of_artifact {file : String} (ends : settings.Ends s status t)
    (reaches : settings.Reaches s job u) (produced : job.produce u = .ok (some file) v) :
    (∀ item ∈ t.report.items, item.severity = .warning ∧ item.code = "CW4009") ∧
      status = (if t.report.items = [] then .success else .warned) ∧
      t = settings.closed (some file) v := by
  cases ends with
  | unreached _ none => exact absurd reaches (none job u)
  | refused _ _ _ _ f reaches' failed _ =>
      obtain ⟨rfl, rfl⟩ := reaches.unique reaches'
      rw [produced] at failed
      nomatch failed
  | linkFailed _ _ _ _ reaches' failed _ =>
      obtain ⟨rfl, rfl⟩ := reaches.unique reaches'
      rw [produced] at failed
      nomatch failed
  | produced _ _ _ _ reaches' produced' warnings =>
      obtain ⟨rfl, rfl⟩ := reaches.unique reaches'
      rw [produced] at produced'
      cases produced'
      exact ⟨warnings, rfl, rfl⟩

/-- A run that does not fail came to an artifact. -/
theorem Ends.publishes (ends : settings.Ends s status t) (status' : status ≠ .failed) :
    ∃ job u path v, settings.Reaches s job u ∧ job.produce u = .ok (some path) v := by
  cases ends with
  | produced job u v path reaches produced _ => exact ⟨job, u, path, v, reaches, produced⟩
  | _ => contradiction

theorem Ends.warned_iff (ends : settings.Ends s status t) :
    status = .warned ↔ ∃ job u path v, settings.Reaches s job u ∧
      job.produce u = .ok (some path) v ∧ ∃ item ∈ t.report.items, item.code = "CW4009" := by
  constructor
  · rintro rfl
    obtain ⟨job, u, path, v, reaches, produced⟩ := ends.publishes nofun
    obtain ⟨warnings, status, -⟩ := ends.of_artifact reaches produced
    refine ⟨job, u, path, v, reaches, produced, ?_⟩
    obtain ⟨item, member⟩ : ∃ item, item ∈ t.report.items :=
      List.exists_mem_of_ne_nil _ fun none => by simp [none] at status
    exact ⟨item, member, (warnings item member).2⟩
  · rintro ⟨job, u, path, v, reaches, produced, item, member, -⟩
    obtain ⟨-, status, -⟩ := ends.of_artifact reaches produced
    rw [status, if_neg (List.ne_nil_of_mem member)]

theorem Ends.success_iff (ends : settings.Ends s status t) :
    status = .success ↔ ∃ job u path v, settings.Reaches s job u ∧
      job.produce u = .ok (some path) v ∧ t.report.items = [] := by
  constructor
  · rintro rfl
    obtain ⟨job, u, path, v, reaches, produced⟩ := ends.publishes nofun
    obtain ⟨-, status, -⟩ := ends.of_artifact reaches produced
    refine ⟨job, u, path, v, reaches, produced, Decidable.byContradiction fun some => ?_⟩
    rw [if_neg some] at status
    nomatch status
  · rintro ⟨job, u, path, v, reaches, produced, none⟩
    obtain ⟨-, status, -⟩ := ends.of_artifact reaches produced
    rw [status, if_pos none]

/-- A verbose program says last where the artifact is. -/
theorem Ends.last_line {file : String} (ends : settings.Ends s status t)
    (reaches : settings.Reaches s job u) (produced : job.produce u = .ok (some file) v)
    (verbose : settings.verbose = true) : ∃ lines, s.Prints t (lines ++ [s!"Wrote {file}"]) := by
  obtain ⟨warnings, -, rfl⟩ := ends.of_artifact reaches produced
  obtain ⟨-, lines, prints, -⟩ := reaches.gathering
  obtain ⟨-, -, more, prints', -⟩ := (job.produce_discreet u).of_ok produced
  have clean : v.report.hasErrors = false := by
    rw [hasErrors_eq, Report.errors, List.filter_eq_nil_iff]
    exact fun item member => by simp [(warnings item member).1]
  have last : settings.farewell v.report (some file) = [s!"Wrote {file}"] := by
    simp [farewell, clean, verbose]
  exact ⟨lines ++ more, (prints.trans prints').trans (last ▸ closed_prints (some file) v)⟩

/-- The program exits with 2 exactly if producing an artifact was not reached, was stopped by a fault or
gave no artifact, with 1 exactly if it gave one and a static library was reported, and with 0 exactly if
it gave one and nothing was reported. With an artifact, a verbose program says last where it is, and no
other prints anything to the output; and whatever was reported is printed, in that order. -/
theorem exit_status (parsed : parse argv = .ok settings) (version : settings.version = false)
    (info : CommandLine.given settings.libraryInfo = none) (fresh : s.report.items = [])
    (ran : CommandLine.run argv s = .ok status t) :
    (status = .failed ↔ (¬ ∃ job u, settings.Reaches s job u) ∨
      ∃ job u v, settings.Reaches s job u ∧
        ((∃ f, job.produce u = .error (.fault f) v) ∨ job.produce u = .ok none v)) ∧
    (status = .warned ↔ ∃ job u path v, settings.Reaches s job u ∧
      job.produce u = .ok (some path) v ∧ ∃ item ∈ t.report.items, item.code = "CW4009") ∧
    (status = .success ↔ ∃ job u path v, settings.Reaches s job u ∧
      job.produce u = .ok (some path) v ∧ t.report.items = []) ∧
    (∀ job u path v, settings.Reaches s job u → job.produce u = .ok (some path) v →
      settings.verbose = true → ∃ lines, s.Prints t (lines ++ [s!"Wrote {path}"])) ∧
    (settings.verbose = false → t.output = s.output) ∧
    ∃ before, t.errors = before ++
      String.join (t.report.items.map fun item => Report.line t.report.program (colored s) item ++ "\n") := by
  have started : settings.run s = .ok status t := by
    rw [CommandLine.run, parsed] at ran
    exact ran
  obtain ⟨ends, said⟩ := run_ends version info fresh started
  refine ⟨ends.failed_iff, ends.warned_iff, ends.success_iff,
    fun job u path v reaches produced verbose => ends.last_line reaches produced verbose,
    fun quiet => ?_, said.errors⟩
  obtain ⟨lines, prints, none⟩ := said.output
  exact (none quiet ▸ prints).output

/-- A program for WebAssembly is built, with a static library that is of no use for it. -/
def forWebAssembly : List String :=
  ["main.bc", "--properties=kiln.toml", "--target=wasm32", "--library=z=libz.a", "--verbose"]

/-- A session with that program and a properties file. -/
def withProgram : Session :=
  { Session.blank with
    files := {
      entries := [(["tmp"], .directory), (["work"], .directory), (["work", "main.bc"], .file [66, 67]),
        (["work", "kiln.toml"], .file (Utf8.encode
          "[targets.wasm32]\ntarget_toolchain = \"t\"\ntarget_sysroot = \"s\"\n"))]
      here := ["work"] } }

/-- The settings of that build. -/
theorem parse_forWebAssembly : parse forWebAssembly = .ok {
    source := some "main.bc", properties := some (.text "kiln.toml"), target := some (.text "wasm32")
    libraries := [.text "z=libz.a"], verbose := true } := by
  refine except_toOption_eq_some.mp ?_
  decide +kernel

/-- How that build ends, and that it prints something. -/
theorem run_forWebAssembly : (CommandLine.run forWebAssembly).outcome?
    (fun t => decide (t.output = "")) withProgram = some (.warned, false) := by
  decide +kernel

/-- That build comes to its artifact with a warning, and says last where the artifact is. -/
theorem warned_of_skipped_library : ∃ (t : Session) (path : String) (lines : List String),
    CommandLine.run forWebAssembly withProgram = .ok .warned t ∧
      (∃ item ∈ t.report.items, item.code = "CW4009") ∧
      withProgram.Prints t (lines ++ [s!"Wrote {path}"]) := by
  obtain ⟨t, ran, -⟩ := outcome?_eq_some.mp run_forWebAssembly
  obtain ⟨-, warned, -, last, -⟩ := exit_status parse_forWebAssembly rfl rfl rfl ran
  obtain ⟨job, u, path, v, reaches, produced, reported⟩ := warned.mp rfl
  obtain ⟨lines, prints⟩ := last job u path v reaches produced rfl
  exact ⟨t, path, lines, ran, reported, prints⟩

end Settings

end CommandLine

end Foundry
