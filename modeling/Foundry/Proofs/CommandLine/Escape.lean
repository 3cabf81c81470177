import Foundry.Proofs.Build.Escape
import Foundry.Proofs.CommandLine.ExitStatus
import Foundry.Proofs.Files.Listing
import Foundry.Proofs.Printed

/-! Whether the program comes to an exit status at all. What keeps it from one is a failure that is no
fault, and there are few places where such a failure is not turned into a message. -/
namespace Foundry

open Run

theorem Distribution.defaultNativeLibraries_error {d : Distribution}
    (failed : d.defaultNativeLibraries target s = .error e t) : ∃ r, e = .refusal r := by
  rcases bind_eq_error.mp failed with failed | ⟨_, u, -, rest⟩
  · have never := (((Files.look_filesOnly (F := fun _ => False) _).obeys s).of_error failed).2 e rfl
    exact never.elim
  · rcases bind_eq_error.mp rest with failed | ⟨_, _, -, rest⟩
    · obtain ⟨-, -, rfl⟩ := Files.names_fails_iff.mp ⟨_, failed⟩
      exact ⟨_, rfl⟩
    · nomatch rest

theorem ArtifactKind.parse_failsAs (name : String) : FailsAs Failure.IsFault (parse name) := by
  intro e failed
  unfold parse at failed
  split at failed <;> cases failed
  trivial

namespace CommandLine.Settings

open Files

/-- The linked libraries of a command line. -/
def linked (settings : Settings) : Except LibraryError (List LinkedLibrary) :=
  linkedLibraries (texts settings.defaultLibraries) (texts settings.libraries)
    (texts settings.libraryLinkerOptions)

/-- The absolute path of a source. -/
def sourcePath (source : String) (s : Session) : Path :=
  (Path.ofText source).resolve ⟨.root, s.files.here⟩

/-- The source can be asked for, and reading it gives this content. -/
structure Opens (settings : Settings) (source : String) (s : Session) (content : Bytes) : Prop where
  whole : holdsZero (Path.ofText source).text = false
  named : ∃ libraries, settings.linked = .ok libraries
  read : Files.read (Path.ofText (sourcePath source s).text).text s = .ok content s

/-- How reading what a build is given ends with a failure. -/
inductive Unread (settings : Settings) (source : String) (s : Session) : Failure → Prop where
  | sourceName : holdsZero (Path.ofText source).text = true → Unread settings source s .zeroInPath
  | sourcePlace (libraries) : holdsZero (Path.ofText source).text = false →
      settings.linked = .ok libraries →
      holdsZero (Path.ofText (sourcePath source s).text).text = true →
      Unread settings source s .zeroInPath
  /-- Assembly text is no text. -/
  | sourceText (content) : settings.Opens source s content →
      isAssembly (sourcePath source s) = true → Utf8.decode? content = none →
      Unread settings source s .notUtf8
  | linkDataName (content module file) : settings.Opens source s content →
      moduleOf (sourcePath source s) content = .ok (.ok module) →
      given settings.linkData = some file → holdsZero (Path.ofText file).text = true →
      Unread settings source s .zeroInPath

/-- A run with these settings gets from what it was given to its properties and its target. -/
def Equips (settings : Settings) (s : Session) (properties : Properties) (target : Target)
    (t : Session) : Prop :=
  ∃ u v, settings.loadProperties s = .ok properties u ∧ settings.chosenTarget u = .ok target v ∧
    settings.announce properties target v = .ok () t

/-- How preparing a build ends with a failure that is no fault. -/
inductive Unprepared (settings : Settings) (s : Session) : Failure → Prop where
  | properties (e t) : settings.loadProperties s = .error e t → e.IsOfProperties →
      Unprepared settings s e
  /-- The directory of the default bitcode cannot be looked at. -/
  | natives (properties target r t u) : settings.Equips s properties target t →
      texts settings.defaultNativeLibraries = [] →
      properties.distribution.defaultNativeLibraries target t = .error (.refusal r) u →
      Unprepared settings s (.refusal r)
  /-- The option for the kind of artifact is given without a kind. -/
  | kindless (properties target t) : settings.Equips s properties target t →
      (texts settings.defaultNativeLibraries = [] →
        ∃ natives u, properties.distribution.defaultNativeLibraries target t = .ok natives u) →
      settings.produce = .nothing → Unprepared settings s .lacksMember

/-- How a run ends with a failure that nothing says anything about. -/
inductive Escapes (settings : Settings) (source : String) (s : Session) : Failure → Prop where
  | reading (e) : settings.Unread source s e → Escapes settings source s e
  | preparing (e inputs t) : settings.readInputs source s = .ok (.ok inputs) t →
      settings.Unprepared t e → Escapes settings source s e
  | producing (e job t) : settings.Reaches s job t → job.Escapes t e → Escapes settings source s e

variable {settings : Settings} {source : String} {s t u v w : Session} {path : Path}
  {libraries : List LinkedLibrary} {linkData : Bytes}

section Inputs

/-- Reading an input is reading its file, with a refusal told in a message. -/
theorem readInput_apply (path : String) (s : Session) : readInput path s =
    match read (Path.ofText path).text s with
    | .ok content t => .ok (.ok content) t
    | .error (.refusal r) t => .ok (.error s!"cannot read {path}: {r.reason}") t
    | .error other t => .error other t := by
  unfold readInput
  cases reading : read (Path.ofText path).text s with
  | ok content t =>
      have found : (read (Path.ofText path).text).map (Except.ok (ε := String)) s =
          .ok (.ok content) t := by
        simp only [EStateM.map, reading]
      rw [tryCatch_of_ok found]
  | error problem t =>
      have refused : (read (Path.ofText path).text).map (Except.ok (ε := String)) s =
          .error problem t := by
        simp only [EStateM.map, reading]
      rw [tryCatch_of_error refused]
      cases problem <;> rfl

/-- An input that cannot be read is refused, but for a name that no file can have. -/
theorem readInput_fails_iff {path : String} : (∃ t, readInput path s = .error e t) ↔
    holdsZero (Path.ofText path).text = true ∧ e = .zeroInPath := by
  have reading : read (Path.ofText path).text s = _ := ask_apply _ _ _
  rw [readInput_apply, reading]
  by_cases zero : holdsZero (Path.ofText path).text = true
  · simp [zero, eq_comm]
  · rw [if_neg zero]
    refine iff_of_false ?_ fun both => zero both.1
    cases s.files.read (Path.ofText path).text <;> rintro ⟨t, ⟨⟩⟩

/-- The content of an input is that of its file. -/
theorem readInput_eq_ok {path : String} : readInput path s = .ok (.ok content) t ↔
    read (Path.ofText path).text s = .ok content t := by
  rw [readInput_apply]
  cases read (Path.ofText path).text s with
  | ok found u => simp
  | error problem u => cases problem <;> simp

theorem moduleOf_eq_error {content : Bytes} : moduleOf path content = .error e ↔
    isAssembly path = true ∧ Utf8.decode? content = none ∧ e = .notUtf8 := by
  unfold moduleOf
  split
  · rename_i assembly
    cases Utf8.decode? content <;> simp [assembly, eq_comm]
  · rename_i other
    simp [other]

theorem readModule_fails_iff : (∃ t, readModule path s = .error e t) ↔
    holdsZero (Path.ofText path.text).text = true ∧ e = .zeroInPath ∨
      ∃ content, read (Path.ofText path.text).text s = .ok content s ∧
        isAssembly path = true ∧ Utf8.decode? content = none ∧ e = .notUtf8 := by
  unfold readModule
  rw [bind_fails_iff, readInput_fails_iff]
  refine or_congr_right ⟨?_, ?_⟩
  · rintro ⟨found, u, opened, t, failed⟩
    cases found with
    | error problem => nomatch failed
    | ok content =>
        have reading := readInput_eq_ok.mp opened
        obtain rfl := (ask_ok reading).2
        rcases bind_eq_error.mp failed with garbled | ⟨module, v, -, rest⟩
        · exact ⟨content, reading, moduleOf_eq_error.mp (ofExcept_eq_error.mp garbled).1⟩
        · cases module <;> nomatch rest
  · rintro ⟨content, reading, garbled⟩
    refine ⟨.ok content, s, readInput_eq_ok.mpr reading, s, ?_⟩
    exact bind_eq_error.mpr (.inl (ofExcept_eq_error.mpr ⟨moduleOf_eq_error.mpr garbled, rfl⟩))

theorem readModule_ok_iff : (∃ t, readModule path s = .ok (.ok ()) t) ↔
    ∃ content module, read (Path.ofText path.text).text s = .ok content s ∧
      moduleOf path content = .ok (.ok module) := by
  constructor
  · rintro ⟨t, ran⟩
    obtain ⟨found, u, opened, rest⟩ := bind_eq_ok.mp ran
    cases found with
    | error problem => nomatch rest
    | ok content =>
        have reading := readInput_eq_ok.mp opened
        obtain rfl := (ask_ok reading).2
        obtain ⟨module, v, taken, rest⟩ := bind_eq_ok.mp rest
        cases module with
        | error problem => nomatch rest
        | ok module => exact ⟨content, module, reading, (ofExcept_eq_ok.mp taken).1⟩
  · rintro ⟨content, module, reading, taken⟩
    refine ⟨{ s with module }, bind_eq_ok.mpr ⟨.ok content, s, readInput_eq_ok.mpr reading, ?_⟩⟩
    exact bind_eq_ok.mpr ⟨.ok module, s, ofExcept_eq_ok.mpr ⟨taken, rfl⟩, rfl⟩

theorem readLinkData_fails_iff : (∃ t, settings.readLinkData s = .error e t) ↔
    ∃ file, given settings.linkData = some file ∧ holdsZero (Path.ofText file).text = true ∧
      e = .zeroInPath := by
  unfold readLinkData
  cases asked : given settings.linkData with
  | none => exact iff_of_false nofun nofun
  | some file =>
      show (∃ t, readInput file s = .error e t) ↔ _
      simp [readInput_fails_iff]

/-- What is left to read once the path of the source and the linked libraries are known. -/
def readRest (settings : Settings) (path : Path) (libraries : List LinkedLibrary) :
    Run (Except String (Path × List LinkedLibrary × Bytes)) := do
  match ← readModule path with
  | .error problem => return .error problem
  | .ok () =>
    match ← settings.readLinkData with
    | .error problem => return .error problem
    | .ok linkData => return .ok (path, libraries, linkData)

theorem readInputs_of_named (whole : holdsZero (Path.ofText source).text = false)
    (named : settings.linked = .ok libraries) :
    settings.readInputs source s = settings.readRest (sourcePath source s) libraries s := by
  rw [linked] at named
  simp only [readInputs, bind_of_ok (resolve_of_whole whole s), named]
  rfl

theorem readInputs_fails_iff :
    (∃ t, settings.readInputs source s = .error e t) ↔ settings.Unread source s e := by
  constructor
  · intro failed
    rcases bind_fails_iff.mp failed with failed' | ⟨path, u, resolved, t, rest⟩
    · obtain ⟨zero, rfl⟩ := resolve_fails_iff.mp failed'
      exact .sourceName zero
    · have whole := (resolve_ok resolved).2.1
      cases named : settings.linked with
      | error problem =>
          rw [linked] at named
          simp only [named] at rest
          nomatch rest
      | ok libraries =>
          rw [readInputs_of_named whole named, readRest, bind_fails_iff] at failed
          rcases failed with failed | ⟨module, v, opened, rest⟩
          · rcases readModule_fails_iff.mp failed with ⟨zero, rfl⟩ | ⟨content, read, assembly, garbled, rfl⟩
            · exact .sourcePlace libraries whole named zero
            · exact .sourceText content ⟨whole, ⟨libraries, named⟩, read⟩ assembly garbled
          · cases module with
            | error problem => obtain ⟨_, ⟨⟩⟩ := rest
            | ok _ =>
                obtain ⟨content, module, read, taken⟩ := readModule_ok_iff.mp ⟨v, opened⟩
                rcases bind_fails_iff.mp rest with failed | ⟨found, w, -, x, rest⟩
                · obtain ⟨file, asked, zero, rfl⟩ := readLinkData_fails_iff.mp failed
                  exact .linkDataName content module file ⟨whole, ⟨libraries, named⟩, read⟩ taken asked zero
                · cases found <;> nomatch rest
  · intro unread
    cases unread with
    | sourceName zero => exact bind_fails_iff.mpr (.inl (resolve_fails_iff.mpr ⟨zero, rfl⟩))
    | sourcePlace libraries whole named zero =>
        rw [readInputs_of_named whole named]
        exact bind_fails_iff.mpr (.inl (readModule_fails_iff.mpr (.inl ⟨zero, rfl⟩)))
    | sourceText content opens assembly garbled =>
        obtain ⟨libraries, named⟩ := opens.named
        rw [readInputs_of_named opens.whole named]
        exact bind_fails_iff.mpr (.inl (readModule_fails_iff.mpr
          (.inr ⟨content, opens.read, assembly, garbled, rfl⟩)))
    | linkDataName content module file opens taken asked zero =>
        obtain ⟨libraries, named⟩ := opens.named
        obtain ⟨t, opened⟩ := readModule_ok_iff.mpr ⟨content, module, opens.read, taken⟩
        rw [readInputs_of_named opens.whole named]
        refine bind_fails_iff.mpr (.inr ⟨.ok (), t, opened, ?_⟩)
        exact bind_fails_iff.mpr (.inl (readLinkData_fails_iff.mpr ⟨file, asked, zero, rfl⟩))

end Inputs

section Preparation

variable {properties : Properties} {target : Target}

theorem config_fails_iff {natives : List String} :
    settings.config path target libraries natives = .error e ∧ ¬ e.IsFault ↔
      settings.produce = .nothing ∧ e = .lacksMember := by
  unfold config
  cases settings.produce with
  | nothing =>
      simp [bind, Except.bind, throw, throwThe, MonadExceptOf.throw, eq_comm]
      rintro rfl
      exact id
  | text name =>
      refine iff_of_false ?_ nofun
      rintro ⟨failed, other⟩
      rcases except_bind_eq_error.mp failed with failed | ⟨kind, -, rest⟩
      · exact other (ArtifactKind.parse_failsAs name e failed)
      · nomatch rest

theorem announce_ok (properties : Properties) (target : Target) (s : Session) :
    ∃ t, settings.announce properties target s = .ok () t := by
  unfold announce
  split
  · obtain ⟨_, t, printed⟩ := failure?_eq_none.mp (failure?_prints (properties.summary target) id
      { s with output := s.output ++ Release.banner {} s.host.llvm ++ "\n" })
    exact ⟨t, bind_eq_ok.mpr ⟨s, s, rfl, bind_eq_ok.mpr ⟨(), _, rfl, printed⟩⟩⟩
  · exact ⟨s, rfl⟩

theorem chosenTarget_error (failed : settings.chosenTarget s = .error e t) : e.IsFault := by
  rcases bind_eq_error.mp failed with never | ⟨session, u, -, rest⟩
  · nomatch never
  · cases found : Target.resolve? ((given settings.target).getD session.host.triple) with
    | some target =>
        simp only [found] at rest
        nomatch rest
    | none =>
        simp only [found] at rest
        cases rest
        trivial

/-- With the default bitcode known, only the kind of artifact can be missing. -/
theorem configured_fails_iff {natives : List String} :
    (∃ u, (do
        let config ← Run.ofExcept (settings.config path target libraries natives)
        return ({ config, properties, linkData, depends := texts settings.depends } : Job)) t =
      .error e u) ∧ ¬ e.IsFault ↔ settings.produce = .nothing ∧ e = .lacksMember := by
  have missing : settings.config path target libraries natives = .error e ∧ ¬ e.IsFault ↔
      settings.produce = .nothing ∧ e = .lacksMember := config_fails_iff
  rw [← missing, bind_fails_iff]
  refine and_congr_left' ⟨?_, fun failed => .inl ⟨t, ofExcept_eq_error.mpr ⟨failed, rfl⟩⟩⟩
  rintro (⟨u, failed⟩ | ⟨config, u, -, v, never⟩)
  · exact (ofExcept_eq_error.mp failed).1
  · nomatch never

theorem jobFor_fails_iff :
    (∃ u, settings.jobFor path libraries linkData properties target t = .error e u) ∧ ¬ e.IsFault ↔
      (texts settings.defaultNativeLibraries = [] ∧ ∃ r u,
        properties.distribution.defaultNativeLibraries target t = .error (.refusal r) u ∧ e = .refusal r) ∨
      (texts settings.defaultNativeLibraries = [] →
        ∃ natives u, properties.distribution.defaultNativeLibraries target t = .ok natives u) ∧
        settings.produce = .nothing ∧ e = .lacksMember := by
  unfold jobFor
  cases named : texts settings.defaultNativeLibraries with
  | cons name rest =>
      refine Iff.trans configured_fails_iff ⟨fun missing => .inr ⟨nofun, missing⟩, ?_⟩
      rintro (⟨⟨⟩, -⟩ | ⟨-, missing⟩)
      exact missing
  | nil =>
      simp only [List.isEmpty_nil, if_true]
      cases found : properties.distribution.defaultNativeLibraries target t with
      | ok natives u =>
          rw [bind_of_ok found, configured_fails_iff]
          refine ⟨fun missing => .inr ⟨fun _ => ⟨natives, u, rfl⟩, missing⟩, ?_⟩
          rintro (⟨-, r, v, ⟨⟩, -⟩ | ⟨-, missing⟩)
          exact missing
      | error other u =>
          obtain ⟨r, rfl⟩ := Distribution.defaultNativeLibraries_error found
          rw [bind_fails_iff]
          constructor
          · rintro ⟨⟨v, failed⟩ | ⟨natives, v, ran, -⟩, -⟩
            · rw [found] at failed
              cases failed
              exact .inl ⟨trivial, r, u, rfl, rfl⟩
            · rw [found] at ran
              nomatch ran
          · rintro (⟨-, r', v, same, rfl⟩ | ⟨listed, -⟩)
            · exact ⟨.inl ⟨v, found.trans same⟩, id⟩
            · obtain ⟨natives, v, ⟨⟩⟩ := listed trivial

theorem prepare_fails_iff :
    (∃ t, settings.prepare path libraries linkData s = .error e t) ∧ ¬ e.IsFault ↔
      settings.Unprepared s e := by
  rw [prepare_stages]
  constructor
  · rintro ⟨failed, other⟩
    rcases bind_fails_iff.mp failed with ⟨t, failed⟩ | ⟨properties, u, loaded, failed⟩
    · have kind := ((Properties.load_reads _ _ _ _).obeys s).of_error failed
      exact .properties e t failed ((kind.2 e rfl).resolve_left other)
    · rcases bind_fails_iff.mp failed with ⟨t, failed⟩ | ⟨target, v, chosen, failed⟩
      · exact absurd (chosenTarget_error failed) other
      · obtain ⟨t, announced⟩ := settings.announce_ok properties target v
        rw [bind_of_ok announced] at failed
        have equips : settings.Equips s properties target t := ⟨u, v, loaded, chosen, announced⟩
        rcases jobFor_fails_iff.mp ⟨failed, other⟩ with ⟨unnamed, r, w, refused, rfl⟩ | ⟨listed, nothing, rfl⟩
        · exact .natives properties target r t w equips unnamed refused
        · exact .kindless properties target t equips listed nothing
  · intro unprepared
    have going {properties : Properties} {target : Target} {t : Session}
        (equips : settings.Equips s properties target t)
        (failed : ∃ u, settings.jobFor path libraries linkData properties target t = .error e u) :
        ∃ u, (do
          let properties ← settings.loadProperties
          let target ← settings.chosenTarget
          settings.announce properties target
          settings.jobFor path libraries linkData properties target) s = .error e u := by
      obtain ⟨u, v, loaded, chosen, announced⟩ := equips
      rw [bind_of_ok loaded, bind_of_ok chosen, bind_of_ok announced]
      exact failed
    cases unprepared with
    | properties _ t failed kind =>
        exact ⟨bind_fails_iff.mpr (.inl ⟨t, failed⟩), kind.not_isFault⟩
    | natives properties target r t u equips unnamed failed =>
        obtain ⟨failed, other⟩ := jobFor_fails_iff.mpr (.inl ⟨unnamed, r, u, failed, rfl⟩)
        exact ⟨going equips failed, other⟩
    | kindless properties target t equips listed nothing =>
        obtain ⟨failed, other⟩ := jobFor_fails_iff.mpr (.inr ⟨listed, nothing, rfl⟩)
        exact ⟨going equips failed, other⟩

end Preparation

/-- The faults of a build are reported, and reporting never fails. -/
theorem buildAndReport_fails_iff :
    (∃ t, settings.buildAndReport path libraries linkData s = .error e t) ↔
      (∃ t, settings.build path libraries linkData s = .error e t) ∧ ¬ e.IsFault := by
  unfold buildAndReport
  rw [bind_fails_iff]
  constructor
  · rintro (⟨t, failed⟩ | ⟨artifact, u, -, t, never⟩)
    · cases built : settings.build path libraries linkData s with
      | ok artifact u =>
          rw [tryCatch_of_ok built] at failed
          nomatch failed
      | error other u =>
          rw [tryCatch_of_error built] at failed
          split at failed
          · nomatch failed
          · rename_i nonfault
            cases failed
            refine ⟨⟨_, rfl⟩, fun fault => ?_⟩
            cases e <;> first | exact nonfault _ rfl | exact fault
    · -- what follows the build prints and decides the status
      rw [bind_of_ok (printReport_ok u)] at never
      obtain ⟨-, -, ⟨⟩, never⟩ := (bind_eq_error.mp never).resolve_left nofun
      cases errors : u.report.hasErrors <;> cases artifact <;> cases verbose : settings.verbose <;>
        simp [errors, verbose, bind, EStateM.bind, Run.print, pure, EStateM.pure] at never
  · rintro ⟨⟨t, failed⟩, other⟩
    refine .inl ⟨t, ?_⟩
    rw [tryCatch_of_error failed]
    split
    · exact absurd trivial other
    · rfl

section Run
variable (version : settings.version = false) (info : CommandLine.given settings.libraryInfo = none)
include version info

theorem run_fails_iff (named : settings.source = some source) (nonempty : source ≠ "") :
    (∃ t, settings.run s = .error e t) ↔ settings.Escapes source s e := by
  rw [run_of_source version info named nonempty]
  constructor
  · rw [buildSource_eq]
    intro failed
    rcases bind_fails_iff.mp failed with failed | ⟨inputs, u, read, t, failed⟩
    · exact .reading e (readInputs_fails_iff.mp failed)
    · cases inputs with
      | error problem => nomatch failed
      | ok inputs =>
          obtain ⟨path, libraries, linkData⟩ := inputs
          obtain ⟨failed, other⟩ := buildAndReport_fails_iff.mp ⟨t, failed⟩
          rw [build_eq] at failed
          rcases bind_fails_iff.mp failed with failed | ⟨job, v, prepared, failed⟩
          · exact .preparing e _ u read (prepare_fails_iff.mp ⟨failed, other⟩)
          · refine .producing e job v ?_ ((job.produce_escapes_iff v).mp ⟨failed, other⟩)
            exact ⟨source, path, libraries, linkData, u, named, nonempty, read, prepared⟩
  · intro escapes
    have going {inputs : Path × List LinkedLibrary × Bytes} {t : Session}
        (read : settings.readInputs source s = .ok (.ok inputs) t)
        (failed : (∃ u, (settings.prepare inputs.1 inputs.2.1 inputs.2.2 >>= Job.produce) t =
          .error e u) ∧ ¬ e.IsFault) : ∃ u, settings.buildSource source s = .error e u := by
      rw [← build_eq] at failed
      rw [buildSource_eq, bind_of_ok read]
      exact buildAndReport_fails_iff.mpr failed
    cases escapes with
    | reading unread =>
        rw [buildSource_eq]
        exact bind_fails_iff.mpr (.inl (readInputs_fails_iff.mpr unread))
    | preparing inputs t read unprepared =>
        obtain ⟨failed, other⟩ := prepare_fails_iff.mpr unprepared
        exact going read ⟨bind_fails_iff.mpr (.inl failed), other⟩
    | producing job t reaches escapes =>
        obtain ⟨file, path, libraries, linkData, u, named', -, read, prepared⟩ := reaches
        obtain rfl := Option.some.inj (named.symm.trans named')
        obtain ⟨failed, other⟩ := (job.produce_escapes_iff t).mpr escapes
        exact going read ⟨bind_fails_iff.mpr (.inr ⟨job, t, prepared, failed⟩), other⟩

end Run

/-- How a run with these settings ends with a failure that nothing says anything about, if they name a
source. -/
def Aborts (settings : Settings) (s : Session) (e : Failure) : Prop :=
  ∃ source, settings.source = some source ∧ source ≠ "" ∧ settings.Escapes source s e

/-- A failure that has a message is never among them. -/
theorem Aborts.not_isFault (aborts : settings.Aborts s e) : ¬ e.IsFault := by
  obtain ⟨source, -, -, escapes⟩ := aborts
  cases escapes with
  | reading unread => cases unread <;> exact id
  | preparing _ _ _ unprepared =>
      cases unprepared with
      | properties _ _ _ kind => exact kind.not_isFault
      | natives | kindless => exact id
  | producing _ _ _ escapes => exact escapes.not_isFault

section Whole
variable (parsed : parse argv = .ok settings) (version : settings.version = false)
  (info : CommandLine.given settings.libraryInfo = none)
include parsed version info

theorem run_aborts_iff :
    (∃ t, CommandLine.run argv s = .error e t) ↔ settings.Aborts s e := by
  have same : CommandLine.run argv s = settings.run s := by rw [CommandLine.run, parsed]
  rw [same]
  by_cases named : ∃ source, settings.source = some source ∧ source ≠ ""
  · obtain ⟨source, named, nonempty⟩ := named
    rw [run_fails_iff version info named nonempty]
    refine ⟨fun escapes => ⟨source, named, nonempty, escapes⟩, ?_⟩
    rintro ⟨other, named', -, escapes⟩
    exact Option.some.inj (named'.symm.trans named) ▸ escapes
  · have missing (file : String) (named' : settings.source = some file) : file = "" :=
      Decidable.byContradiction fun nonempty => named ⟨file, named', nonempty⟩
    rw [run_without_source version info missing]
    constructor
    · rintro ⟨t, failed⟩
      cases failed
    · rintro ⟨source, named', nonempty, -⟩
      exact absurd (missing source named') nonempty

/-- The program comes to an exit status, which is 0, 1 or 2, unless it ends with one of the failures that
abort it; and with any of these it does end so. None of them is a failure with a message: a failed tool,
a property that is missing or a library that cannot be linked never ends the program without a status. -/
theorem exits_unless_aborted :
    ((∃ status t, CommandLine.run argv s = .ok status t ∧ status.code ∈ [0, 1, 2]) ↔
      ¬ ∃ e, settings.Aborts s e) ∧
    (∀ e, (∃ t, CommandLine.run argv s = .error e t) ↔ settings.Aborts s e) ∧
    ∀ e, settings.Aborts s e → ¬ e.IsFault := by
  refine ⟨?_, fun e => run_aborts_iff parsed version info, fun e => Aborts.not_isFault⟩
  constructor
  · rintro ⟨status, t, ran, -⟩ ⟨e, aborts⟩
    obtain ⟨u, failed⟩ := (run_aborts_iff parsed version info).mpr aborts
    nomatch ran.symm.trans failed
  · intro never
    cases ran : CommandLine.run argv s with
    | ok status t => exact ⟨status, t, rfl, by cases status <;> decide⟩
    | error e t => exact absurd ⟨e, (run_aborts_iff parsed version info).mp ⟨t, ran⟩⟩ never

end Whole

/-- The program for WebAssembly as bitcode, with this artifact. -/
def bitcodeAt (artifact : String) : List String :=
  ["main.bc", "--properties=kiln.toml", "--target=wasm32", "--produce=bitcode", "--out=" ++ artifact]

/-- Written beside its source, the bitcode gives an exit status, and nothing aborts that run. -/
theorem exits_with_bitcode :
    (∃ status t, CommandLine.run (bitcodeAt "out") withProgram = .ok status t ∧
      status.code ∈ [0, 1, 2]) ∧
    ∃ settings, parse (bitcodeAt "out") = .ok settings ∧ ¬ ∃ e, settings.Aborts withProgram e := by
  have ran : (CommandLine.run (bitcodeAt "out")).outcome? (fun _ => ()) withProgram =
      some (.success, ()) := by
    decide +kernel
  obtain ⟨t, ran, -⟩ := outcome?_eq_some.mp ran
  have read : (parse (bitcodeAt "out")).toOption = some {
      source := some "main.bc", properties := some (.text "kiln.toml"), target := some (.text "wasm32")
      produce := .text "bitcode", out := some (.text "out") } := by
    decide +kernel
  have parsed := except_toOption_eq_some.mp read
  have exits : ∃ status t, CommandLine.run (bitcodeAt "out") withProgram = .ok status t ∧
      status.code ∈ [0, 1, 2] := ⟨.success, t, ran, by decide⟩
  exact ⟨exits, _, parsed, (exits_unless_aborted parsed rfl rfl).1.mp exits⟩

/-- Into a directory that is missing the bitcode cannot be written, and the program ends without an exit
status. -/
theorem bitcode_to_missing_directory : ∃ t,
    CommandLine.run (bitcodeAt "missing/out") withProgram =
      .error (.refusal (.system .noEntry (.text "missing/out.bc"))) t := by
  have failed : (CommandLine.run (bitcodeAt "missing/out")).defeat? (fun _ => ()) withProgram =
      some (.refusal (.system .noEntry (.text "missing/out.bc")), ()) := by
    decide +kernel
  obtain ⟨t, failed, -⟩ := defeat?_eq_some.mp failed
  exact ⟨t, failed⟩

end CommandLine.Settings

end Foundry
