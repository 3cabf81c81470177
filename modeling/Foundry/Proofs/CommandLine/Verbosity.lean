import Foundry.Proofs.Build.Verbosity
import Foundry.Proofs.CommandLine.ExitStatus
import Foundry.Proofs.CommandLine.Reading

/-! The option to be verbose changes nothing but what is printed to the output. -/
namespace Foundry

open Run

variable {a b : Bool}

theorem Run.prints_alike (lines : List String) : Alike (lines.forM print) (pure ()) := by
  induction lines with
  | nil => exact steady_pure _
  | cons line rest ih => exact (print_alike line).bind fun _ => ih

theorem Release.print_found_alike (release : Release) (properties : Properties) (target : Target) :
    Alike (release.print (.found properties target)) (pure ()) := by
  have reading : Alike (release.print (.found properties target)) (do
      let _ ← (get : Run Session)
      pure ()
      pure ()) := .get fun _ _ => (print_alike _).bind fun _ => prints_alike _
  exact reading

theorem Distribution.defaultNativeLibraries_filesOnly (d : Distribution) (target : Target) :
    OnFiles Failure.IsOfFile (d.defaultNativeLibraries target) :=
  (Files.look_filesOnly _).bind fun _ => (Files.names_filesOnly _).bind fun _ => .pure _

namespace CommandLine

namespace Settings
variable (s : Settings)

theorem config_spoken (source : Path) (target : Target) (libraries : List LinkedLibrary)
    (natives : List String) (verbose : Bool) :
    (s.spoken verbose).config source target libraries natives =
      ({ · with verbose }) <$> s.config source target libraries natives := by
  unfold config spoken
  dsimp only
  cases s.produce with
  | nothing => rfl
  | text name => cases parsed : ArtifactKind.parse name <;> simp [parsed, bind, Except.bind, pure, Except.pure]

theorem announce_alike (properties : Properties) (target : Target) :
    Alike ((s.spoken a).announce properties target) ((s.spoken b).announce properties target) := by
  have silent (verbose : Bool) : Alike ((s.spoken verbose).announce properties target) (pure ()) := by
    cases verbose with
    | true => exact Release.print_found_alike _ _ _
    | false => exact steady_pure ()
  exact (silent a).trans (silent b).symm

theorem chosenTarget_steady : Steady s.chosenTarget := by
  refine .get fun session output => ?_
  show Steady _
  dsimp only
  split
  · exact steady_pure _
  · exact steady_throw _

theorem jobFor_steady (source : Path) (libraries : List LinkedLibrary) (linkData : Bytes)
    (properties : Properties) (target : Target) :
    Steady (s.jobFor source libraries linkData properties target) := by
  have configuring (natives : List String) : Steady (do
      let config ← Run.ofExcept (s.config source target libraries natives)
      return { config, properties, linkData, depends := texts s.depends : Job }) :=
    (steady_ofExcept _).bind fun _ => steady_pure _
  unfold jobFor
  dsimp only
  split
  · exact (properties.distribution.defaultNativeLibraries_filesOnly target).steady.bind configuring
  · exact (steady_pure _).bind configuring

/-- The build of a verbose program is verbose, and is the same otherwise. -/
theorem jobFor_spoken (source : Path) (libraries : List LinkedLibrary) (linkData : Bytes)
    (properties : Properties) (target : Target) (verbose : Bool) :
    (s.spoken verbose).jobFor source libraries linkData properties target =
      (·.spoken verbose) <$> s.jobFor source libraries linkData properties target := by
  have configuring (natives : List String) : (do
      let config ← Run.ofExcept ((s.spoken verbose).config source target libraries natives)
      return { config, properties, linkData, depends := texts s.depends : Job }) =
      (·.spoken verbose) <$> (do
        let config ← Run.ofExcept (s.config source target libraries natives)
        return { config, properties, linkData, depends := texts s.depends : Job }) := by
    rw [config_spoken]
    cases s.config source target libraries natives <;> rfl
  unfold jobFor
  dsimp only
  rw [show texts (s.spoken verbose).defaultNativeLibraries = texts s.defaultNativeLibraries from rfl]
  split
  · rw [map_bind]
    exact bind_congr configuring
  · exact configuring _

theorem build_alike (source : Path) (libraries : List LinkedLibrary) (linkData : Bytes) :
    Alike ((s.spoken a).build source libraries linkData) ((s.spoken b).build source libraries linkData) := by
  rw [build_eq, build_eq, prepare_stages, prepare_stages]
  simp only [bind_assoc]
  exact (Properties.load_reads _ _ _ _).steady.bind fun _ => s.chosenTarget_steady.bind fun _ =>
    (s.announce_alike _ _).bind fun _ => by
      rw [jobFor_spoken, jobFor_spoken, bind_map_left, bind_map_left]
      exact (s.jobFor_steady _ _ _ _ _).bind fun job => job.produce_alike

theorem printReport_steady : Steady printReport := .modify fun _ _ => rfl

theorem buildAndReport_alike (source : Path) (libraries : List LinkedLibrary) (linkData : Bytes) :
    Alike ((s.spoken a).buildAndReport source libraries linkData)
      ((s.spoken b).buildAndReport source libraries linkData) := by
  refine ((s.build_alike source libraries linkData).tryCatch fun e _ _ _ => ?_).bind fun artifact =>
    printReport_steady.bind fun _ => .get fun session output => .ite (steady_pure _) ?_
  · split
    · exact Alike.bind (.modify fun _ _ => rfl) fun _ => steady_pure _
    · exact steady_throw _
  · cases artifact with
    | none => exact steady_pure _
    | some path =>
        have saying (verbose : Bool) (status : ExitStatus) : Alike (do
            if verbose then Run.print s!"Wrote {path}"
            return status) (pure status) := by
          cases verbose with
          | true => exact (print_alike _).bind fun _ => steady_pure _
          | false => exact steady_pure _
        exact (saying a _).trans (saying b _).symm

/-- With the same settings but for being verbose the program ends the same but for its output. -/
theorem run_unprinted (t : Session) : (s.spoken a).run.unprinted t = (s.spoken b).run.unprinted t := by
  have building (source : String) :
      ((s.spoken a).buildSource source).unprinted t = ((s.spoken b).buildSource source).unprinted t := by
    rw [buildSource_eq, buildSource_eq]
    change (s.readInputs source >>= _).unprinted t = (s.readInputs source >>= _).unprinted t
    refine unprinted_bind fun inputs u _ => ?_
    cases inputs with
    | error problem => rfl
    | ok inputs => exact s.buildAndReport_alike _ _ _ u u rfl
  by_cases version : s.version = true
  · have shown (verbose : Bool) : (s.spoken verbose).run = s.showVersion := if_pos version
    rw [shown, shown]
  · have version (verbose : Bool) : (s.spoken verbose).version = false := Bool.eq_false_iff.mpr version
    cases info : given s.libraryInfo with
    | some path =>
        have shown (verbose : Bool) : (s.spoken verbose).run = showLibrary (.ofText path) := by
          rw [run, version verbose]
          simp only [spoken, info, Bool.false_eq_true, if_false]
        rw [shown, shown]
    | none =>
        by_cases named : ∃ file, s.source = some file ∧ file ≠ ""
        · obtain ⟨file, named, nonempty⟩ := named
          have started (verbose : Bool) : (s.spoken verbose).run = (s.spoken verbose).buildSource file :=
            run_of_source (version verbose) info named nonempty
          rw [started, started]
          exact building file
        · have missing (file : String) (given : s.source = some file) : file = "" :=
            Decidable.byContradiction fun nonempty => named ⟨file, given, nonempty⟩
          have refused (verbose : Bool) : (s.spoken verbose).run = refuse "source file required" :=
            run_without_source (version verbose) info missing
          rw [refused, refused]

section Quiet
variable {settings : Settings} {path : Path} {libraries : List LinkedLibrary} {linkData : Bytes}

/-- A step that prints nothing to the output. -/
theorem speaking_of_same {ending : Option Failure} {s t : Session} (host : t.host = s.host)
    (output : t.output = s.output) : speaking settings ending s t :=
  ⟨host, [], .of_same output, fun _ => rfl⟩

theorem refuse_speaking (problem : String) : Obeys (speaking settings) (refuse problem) :=
  Obeys.bind (obeys_modify fun _ => speaking_of_same rfl rfl) fun _ => obeys_pure _

theorem buildAndReport_speaking :
    Obeys (speaking settings) (settings.buildAndReport path libraries linkData) := by
  have saying (line : String) (verbose : settings.verbose = true) :
      Obeys (speaking settings) (Run.print line) :=
    obeys_modify fun s => ⟨rfl, [line], .print s line, by simp [verbose]⟩
  have reporting : Obeys (speaking settings) printReport :=
    obeys_modify fun _ => speaking_of_same rfl rfl
  refine Obeys.bind (build_speaking.tryCatch fun e s t failed => ?_) fun artifact =>
    reporting.bind fun _ => obeys_get.bind fun session => ?_
  · have kept := (build_speaking s).of_error failed
    split
    · exact kept
    · exact kept
  · dsimp only
    split
    · exact obeys_pure _
    · cases artifact with
      | none => exact obeys_pure _
      | some path =>
          dsimp only
          split
          · rename_i verbose
            exact (saying _ verbose).bind fun _ => obeys_pure _
          · exact obeys_pure _

theorem buildSource_speaking (source : String) :
    Obeys (speaking settings) (settings.buildSource source) := by
  have reading : Obeys (speaking settings) (settings.readInputs source) := by
    intro s
    obtain ⟨host, -, lines, prints, none⟩ := readInputs_gathering settings source s
    exact ⟨host, lines, prints, fun _ => none rfl⟩
  rw [buildSource_eq]
  refine reading.bind fun inputs => ?_
  cases inputs with
  | error problem => exact refuse_speaking problem
  | ok inputs => exact buildAndReport_speaking

/-- A program that builds prints to the output only if it is verbose. -/
theorem run_speaking (version : settings.version = false)
    (info : CommandLine.given settings.libraryInfo = none) : Obeys (speaking settings) settings.run := by
  by_cases named : ∃ file, settings.source = some file ∧ file ≠ ""
  · obtain ⟨file, named, nonempty⟩ := named
    rw [run_of_source version info named nonempty]
    exact buildSource_speaking file
  · have missing (file : String) (given : settings.source = some file) : file = "" :=
      Decidable.byContradiction fun nonempty => named ⟨file, given, nonempty⟩
    rw [run_without_source version info missing]
    exact refuse_speaking _

end Quiet

end Settings

/-- Whether the program is verbose or not, it ends with the same exit status or the same failure, and the
session is the same but for the output: the processes that were started, the files, the report and what
was printed to the standard error. The option to be verbose may stand anywhere before a `--`. A program
that is not verbose prints nothing to the output while it builds. -/
theorem verbose_prints_only (parsed : parse argv = .ok settings) :
    parse ("--verbose" :: argv) = .ok { settings with verbose := true } ∧
    (∀ before after, argv = before ++ "--verbose" :: after → "--" ∉ before →
      ∃ quiet, parse (before ++ after) = .ok quiet ∧ settings = { quiet with verbose := true }) ∧
    (∀ other verbose, parse other = .ok { settings with verbose } → ∀ s,
      (CommandLine.run other).unprinted s = (CommandLine.run argv).unprinted s) ∧
    (settings.verbose = false → settings.version = false → given settings.libraryInfo = none →
      ∀ s, ((CommandLine.run argv).after s).output = s.output) := by
  refine ⟨parse_verbose parsed, ?_, ?_, ?_⟩
  · rintro before after rfl undivided
    exact parse_insert undivided parsed
  · intro other verbose parsed' s
    rw [CommandLine.run, CommandLine.run, parsed, parsed']
    exact settings.run_unprinted s
  · intro quiet version info s
    rw [CommandLine.run, parsed]
    obtain ⟨-, lines, prints, silent⟩ := Settings.run_speaking version info s
    exact (silent quiet ▸ prints).output

/-- The program for WebAssembly, built without a word. -/
def quietForWebAssembly : List String :=
  ["main.bc", "--properties=kiln.toml", "--target=wasm32", "--library=z=libz.a"]

/-- That build ends as the verbose one, which is the only one to print something. -/
theorem verbose_for_webAssembly :
    (CommandLine.run Settings.forWebAssembly).unprinted Settings.withProgram =
      (CommandLine.run quietForWebAssembly).unprinted Settings.withProgram ∧
    ((CommandLine.run quietForWebAssembly).after Settings.withProgram).output = "" ∧
    ((CommandLine.run Settings.forWebAssembly).after Settings.withProgram).output ≠ "" := by
  let quiet : Settings := {
    source := some "main.bc", properties := some (.text "kiln.toml"), target := some (.text "wasm32")
    libraries := [.text "z=libz.a"] }
  have parsed : (parse quietForWebAssembly).toOption = some quiet := by decide +kernel
  have parsed' : parse Settings.forWebAssembly = .ok { quiet with verbose := true } :=
    Settings.parse_forWebAssembly
  obtain ⟨-, -, same, silent⟩ := verbose_prints_only (except_toOption_eq_some.mp parsed)
  obtain ⟨t, ran, printed⟩ := outcome?_eq_some.mp Settings.run_forWebAssembly
  refine ⟨same _ true parsed' _, silent rfl rfl rfl _, ?_⟩
  rw [after_of_ok ran]
  exact of_decide_eq_false printed

end CommandLine

end Foundry
