import Foundry.Proofs.Files.Frame
import Foundry.Proofs.Files.Operation
import Foundry.Properties.Load

/-! Loading properties reads files and changes nothing. Files that cannot be had, or that hold no
document, are faults of the configuration; documents with the wrong things in the right places are
not. -/
namespace Foundry

open Run

/-- A failure to load properties that is no fault. -/
def Failure.IsOfProperties : Failure → Prop
  | .refusal _ | .zeroInPath | .notUtf8 | .integerTooLong _ | .lacksMember | .wrongKind | .noHome => True
  | _ => False

theorem Failure.IsOfFile.ofProperties {e : Failure} (kind : e.IsOfFile) : e.IsOfProperties := by
  cases e with
  | refusal | zeroInPath => trivial
  | _ => exact kind.elim

/-- No failure to load properties has a message. -/
theorem Failure.IsOfProperties.not_isFault {e : Failure} (kind : e.IsOfProperties) : ¬ e.IsFault := by
  cases e with
  | fault => exact kind.elim
  | _ => exact id

namespace Files

theorem resolve_filesOnly (path : Path) : OnFiles Failure.IsOfFile (resolve path) :=
  (checked_filesOnly _).bind fun _ => here_filesOnly.bind fun _ => .pure _

end Files

namespace Properties

/-- A run that changes nothing but files, and that fails as loading properties does. -/
abbrev Reads (run : Run α) : Prop := OnFiles (fun e => e.IsFault ∨ e.IsOfProperties) run

theorem reads_of_files {run : Run α} (kept : OnFiles Failure.IsOfFile run) : Reads run :=
  kept.mono fun _ kind => .inr kind.ofProperties

theorem ofExcept_reads {result : Except Failure α} (kind : FailsAs Failure.IsOfProperties result) :
    Reads (Run.ofExcept result) :=
  .ofExcept (kind.mono fun _ => .inr)

theorem parseBytes_eq_error {content : Bytes} : parseBytes content = .error e ↔
    Utf8.decode? content = none ∧ e = .notUtf8 ∨
      ∃ text, Utf8.decode? content = some text ∧
        (Toml.read text = .error .malformed ∧ e = .notToml ∨
          ∃ digits, Toml.read text = .error (.integerTooLong digits) ∧ e = .integerTooLong digits) := by
  unfold parseBytes parse
  cases Utf8.decode? content with
  | none => simp [eq_comm]
  | some text =>
      cases read : Toml.read text with
      | ok table => simp [read]
      | error problem => cases problem <;> simp [read, eq_comm]

/-- A text that cannot be read fails as no document, or by a number that is too long. -/
theorem parseBytes_error {bytes : Bytes} (failed : parseBytes bytes = .error e) :
    e = .notToml ∨ e = .notUtf8 ∨ ∃ digits, e = .integerTooLong digits := by
  rcases parseBytes_eq_error.mp failed with ⟨-, rfl⟩ | ⟨text, -, ⟨-, rfl⟩ | ⟨digits, -, rfl⟩⟩
  · exact .inr (.inl rfl)
  · exact .inl rfl
  · exact .inr (.inr ⟨digits, rfl⟩)

/-- What reading a file comes to. -/
theorem readFile_apply (path : String) (s : Session) : readFile path s =
    if Files.holdsZero path then .error .zeroInPath s
    else match s.files.read path with
      | .error errno => .error (.fault (.badProperties path errno.text)) s
      | .ok content => match parseBytes content with
        | .ok table => .ok table s
        | .error .notToml => .error (.fault (.badProperties path notToml)) s
        | .error other => .error other s := by
  have asked := Files.ask_apply path (·.read path) s
  split
  · rename_i zero
    rw [if_pos zero] at asked
    exact bind_eq_error.mpr (.inl (tryCatch_of_error asked))
  · rename_i whole
    rw [if_neg whole] at asked
    cases answer : s.files.read path with
    | error errno =>
        simp only [answer] at asked
        exact bind_eq_error.mpr (.inl (tryCatch_of_error asked))
    | ok content =>
        simp only [answer] at asked
        rw [readFile, Files.read, bind_of_ok (tryCatch_of_ok asked)]
        dsimp only
        cases parseBytes content with
        | ok table => rfl
        | error e => cases e <;> rfl

theorem readFile_reads (path : String) : Reads (readFile path) := by
  have reading : Reads (Files.read path) := reads_of_files (Files.ask_filesOnly _ _)
  refine (reading.tryCatch fun e kind => ?_).bind fun content => ?_
  · split
    · exact .throw (.inl trivial)
    · exact .throw kind
  · split
    · exact OnFiles.pure _
    · exact OnFiles.throw (.inl trivial)
    · rename_i e other failed
      rcases (parseBytes_error failed).resolve_left other with rfl | ⟨digits, rfl⟩
      · exact OnFiles.throw (.inr trivial)
      · exact OnFiles.throw (.inr trivial)

theorem platformFiles_reads (home : Path) (user : Option Path) : Reads (platformFiles home user) := by
  have listing (root : Path) : Reads (platformFilesIn root) :=
    (reads_of_files (Files.names_filesOnly _)).bind fun _ => OnFiles.pure _
  have resolving (path : Path) : Reads (Files.resolve path) :=
    reads_of_files (Files.resolve_filesOnly path)
  refine .get (fun _ _ => rfl) fun _ => (resolving _).bind fun _ => (resolving _).bind fun _ =>
    (listing _).bind fun _ => ?_
  split
  · exact (listing _).bind fun _ => OnFiles.pure _
  · exact (OnFiles.pure _).bind fun _ => OnFiles.pure _

theorem layFiles_reads (data : Table) (files : List Path) : Reads (layFiles data files) := by
  induction files generalizing data with
  | nil => exact OnFiles.pure _
  | cons file rest ih => exact (readFile_reads _).bind fun _ => ih _

theorem member_failsAs (value : Value) (key : String) :
    FailsAs (· = .lacksMember) (member value key) := by
  intro e failed
  unfold member at failed
  split at failed <;> cases failed
  rfl

theorem defaultPath_failsAs (host : Host) : FailsAs (· = .noHome) (defaultPath host) := by
  intro e failed
  unfold defaultPath expandHome at failed
  grind

theorem homePath_failsAs (host : Host) (data : Table) :
    FailsAs Failure.IsOfProperties (homePath host data) := by
  refine ((member_failsAs _ _).mono fun | _, rfl => trivial).bind fun value e failed => ?_
  split at failed <;> cases failed
  trivial

theorem ofData_failsAs (host : Host) (data : Table) (path : String) (runtime : Option String)
    (sources : List String) :
    FailsAs (· = .lacksMember) (ofData host data path runtime sources) := by
  have entry (key fallback : String) : FailsAs (· = .lacksMember)
      ((member (sectionOf data "distribution") key).map fun value =>
        (value.map Value.plain).getD fallback) := (member_failsAs _ _).map _
  refine FailsAs.bind ?_ fun _ => .pure _
  refine (entry _ _).bind fun _ => (entry _ _).bind fun _ => (entry _ _).bind fun _ =>
    (entry _ _).bind fun _ => ?_
  dsimp only
  split
  · exact (entry _ _).bind fun _ => .pure _
  · exact (FailsAs.pure _).bind fun _ => .pure _

theorem keepOnlyDefaultProfiles_reads (data : Table) :
    Reads (Run.ofExcept (keepOnlyDefaultProfiles data)) := by
  refine .ofExcept fun e failed => .inl ?_
  unfold keepOnlyDefaultProfiles at failed
  dsimp only at failed
  split at failed <;> cases failed
  trivial

/-- What is left to do once the data of all files are merged. -/
def settle (host : Host) (main : Path) (files : List Path) (onlyDefaultProfiles : Bool)
    (runtime : Option String) (data : Table) : Run Properties := do
  let data ← if onlyDefaultProfiles then Run.ofExcept (keepOnlyDefaultProfiles data) else pure data
  Run.ofExcept (ofData host data main.text runtime (main.text :: files.map Path.text))

/-- What is left to do once the main file is read. -/
def layOver (host : Host) (main : Path) (user : Option Path) (onlyDefaultProfiles : Bool)
    (runtime : Option String) (data : Table) : Run Properties := do
  let home ← Run.ofExcept (homePath host data)
  let files ← platformFiles home user
  let data ← layFiles data files
  settle host main files onlyDefaultProfiles runtime data

theorem layOver_reads (host : Host) (main : Path) (user : Option Path) (onlyDefaultProfiles : Bool)
    (runtime : Option String) (data : Table) :
    Reads (layOver host main user onlyDefaultProfiles runtime data) := by
  have made (data : Table) (sources : List String) :
      Reads (Run.ofExcept (ofData host data main.text runtime sources)) :=
    ofExcept_reads ((ofData_failsAs _ _ _ _ _).mono fun | _, rfl => trivial)
  refine (ofExcept_reads (homePath_failsAs _ _)).bind fun home => (platformFiles_reads _ _).bind
    fun files => (layFiles_reads _ _).bind fun data => ?_
  unfold settle
  split
  · exact (keepOnlyDefaultProfiles_reads _).bind fun _ => made _ _
  · exact (OnFiles.pure _).bind fun _ => made _ _

theorem load_reads (path user : Option Path) (onlyDefaultProfiles : Bool) (runtime : Option String) :
    Reads (load path user onlyDefaultProfiles runtime) := by
  cases path with
  | some path =>
      exact .get (fun _ _ => rfl) fun session => (OnFiles.pure path).bind fun path =>
        (readFile_reads _).bind fun main => layOver_reads session.host path user _ _ main
  | none =>
      have given (host : Host) : Reads (Run.ofExcept (defaultPath host)) :=
        ofExcept_reads ((defaultPath_failsAs host).mono fun | _, rfl => trivial)
      exact OnFiles.get (fun _ _ => rfl) fun session => (given session.host).bind fun path =>
        (readFile_reads _).bind fun main => layOver_reads session.host path user _ _ main

/-- Loading is to find the main file, to read it, and to lay the others over it. -/
theorem load_apply (path user : Option Path) (onlyDefaultProfiles : Bool) (runtime : Option String)
    (s : Session) : load path user onlyDefaultProfiles runtime s = (do
      let main ← Run.ofExcept (path.elim (defaultPath s.host) .ok)
      let data ← readFile main.text
      layOver s.host main user onlyDefaultProfiles runtime data) s := by
  cases path <;> rfl

end Properties

end Foundry
