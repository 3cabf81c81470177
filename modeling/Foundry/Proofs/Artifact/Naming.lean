import Foundry.Artifact.Kind
import Foundry.Proofs.FileSystem.Change

/-! What the files of artifacts are called. The suffix is looked for in the text that is given, and only a text
without it is read as a path, whose last part becomes the name of the file. -/
namespace Foundry.ArtifactKind

open FileSystem

variable {kind : ArtifactKind} {target : Target} {name file last : String}

/-- What the last part of a path becomes. -/
def fileName (kind : ArtifactKind) (target : Target) (last : String) : String :=
  (if Text.startsWith last (kind.lead target) then last else kind.lead target ++ last) ++
    kind.suffix target

theorem suffix_clean (kind : ArtifactKind) (target : Target) : '/' ∉ (kind.suffix target).toList := by
  cases kind <;> cases target <;> decide

theorem suffix_notDots (kind : ArtifactKind) (target : Target) :
    ∃ c ∈ (kind.suffix target).toList, c ≠ '.' := by
  have any : (kind.suffix target).toList.any (· ≠ '.') = true := by
    cases kind <;> cases target <;> decide
  simpa using any

theorem lead_clean (kind : ArtifactKind) (target : Target) : '/' ∉ (kind.lead target).toList := by
  cases kind <;> cases target <;> decide

/-- The suffix alone makes a name of any part of a path, be it `..`. -/
theorem fileName_isName (clean : '/' ∉ last.toList) : IsName (kind.fileName target last) := by
  obtain ⟨c, member, notDot⟩ := suffix_notDots kind target
  have inside : c ∈ (kind.fileName target last).toList := by simp [fileName, member]
  refine .of_mem inside notDot ?_
  unfold fileName
  split <;> simp [clean, suffix_clean kind target, lead_clean kind target]

theorem endsWith_fileName (kind : ArtifactKind) (target : Target) (last : String) :
    Text.endsWith (kind.fileName target last) (kind.suffix target) = true :=
  Text.endsWith_iff.mpr ⟨_, rfl⟩

theorem fileFor_suffixed (ends : Text.endsWith name (kind.suffix target) = true) :
    kind.fileFor target name = .ok name := by
  rw [fileFor, if_pos ends]

/-- A text without the suffix names a file beside what it reads into, if that has a name. -/
theorem fileFor_unsuffixed (bare : Text.endsWith name (kind.suffix target) = false) :
    kind.fileFor target name =
      if (Path.ofText name).name = "" then .error (.emptyName (.ofText name))
      else .ok ((Path.ofText name).parent.child (kind.fileName target (Path.ofText name).name)).text := by
  have proper := @fileName_isName kind target _ (Path.name_clean (Path.ofText_clean name)).1
  have renamed := Path.withName?_eq proper (Path.ofText name)
  unfold fileName at renamed
  rw [fileFor, bare, if_neg Bool.false_ne_true, fileName]
  by_cases unnamed : (Path.ofText name).name = ""
  · rw [if_pos unnamed] at renamed
    simp only [renamed, if_pos unnamed]
  · rw [if_neg unnamed] at renamed
    simp only [renamed, if_neg unnamed]

/-- No file is named exactly by a text that lacks the suffix and reads into no name. -/
theorem fileFor_error_iff : kind.fileFor target name = .error e ↔
    Text.endsWith name (kind.suffix target) = false ∧ (Path.ofText name).name = "" ∧
      e = .emptyName (.ofText name) := by
  cases ends : Text.endsWith name (kind.suffix target) with
  | true => simp [fileFor_suffixed ends]
  | false =>
      rw [fileFor_unsuffixed ends]
      split
      · rename_i unnamed
        simp [unnamed, eq_comm]
      · rename_i named
        simp [named]

/-- What the name of an artifact settles about its file. -/
structure IsFileOf (kind : ArtifactKind) (target : Target) (name file : String) : Prop where
  suffixed : Text.endsWith file (kind.suffix target) = true
  /-- The name of the file as it is stands for the same file. -/
  settled : kind.fileFor target file = .ok file
  kept : Text.endsWith name (kind.suffix target) = true → file = name
  beside : Text.endsWith name (kind.suffix target) = false →
    (Path.ofText file).parent = (Path.ofText name).parent
  led : Text.endsWith name (kind.suffix target) = false →
    Text.startsWith (Path.ofText name).name (kind.lead target) = true →
    (Path.ofText file).name = (Path.ofText name).name ++ kind.suffix target
  unled : Text.endsWith name (kind.suffix target) = false →
    Text.startsWith (Path.ofText name).name (kind.lead target) = false →
    (Path.ofText file).name = kind.lead target ++ (Path.ofText name).name ++ kind.suffix target

theorem isFileOf_of_suffixed (ends : Text.endsWith name (kind.suffix target) = true) :
    IsFileOf kind target name name where
  suffixed := ends
  settled := fileFor_suffixed ends
  kept _ := rfl
  beside _ := rfl
  led bare := nomatch ends.symm.trans bare
  unled bare := nomatch ends.symm.trans bare

theorem isFileOf_of_unsuffixed (bare : Text.endsWith name (kind.suffix target) = false) :
    IsFileOf kind target name
      ((Path.ofText name).parent.child (kind.fileName target (Path.ofText name).name)).text := by
  have clean := Path.ofText_clean name
  have above : (Path.ofText name).parent.Clean := (Path.parent_begins _).clean clean
  have proper := @fileName_isName kind target _ (Path.name_clean clean).1
  have reread := Path.ofText_child above (kind.fileName target (Path.ofText name).name)
  -- The suffix that the last part of a path has is one of its text.
  have ends := Path.endsWith_child above proper (endsWith_fileName kind target _)
  refine ⟨ends, fileFor_suffixed ends, fun other => ?_, fun _ => ?_, fun _ led => ?_, fun _ unled => ?_⟩
  · nomatch other.symm.trans bare
  · rw [reread, Path.parent_child proper]
  · rw [reread, Path.name_child proper, fileName, if_pos led]
  · rw [reread, Path.name_child proper, fileName, unled, if_neg Bool.false_ne_true]

theorem endsWith_of_fileFor (named : kind.fileFor target name = .ok file) :
    Text.endsWith file (kind.suffix target) = true := by
  cases ends : Text.endsWith name (kind.suffix target) with
  | true =>
      obtain rfl := Except.ok.inj ((fileFor_suffixed ends).symm.trans named)
      exact ends
  | false =>
      rw [fileFor_unsuffixed ends] at named
      split at named
      · nomatch named
      · obtain rfl := Except.ok.inj named
        exact (isFileOf_of_unsuffixed ends).suffixed

/-- A name stands for no file exactly if it lacks the suffix and reads into no name. Else its file is settled
by its suffix, its directory and its last part. -/
theorem fileFor_settles (kind : ArtifactKind) (target : Target) (name : String) :
    (∀ e, kind.fileFor target name = .error e ↔ Text.endsWith name (kind.suffix target) = false ∧
      (Path.ofText name).name = "" ∧ e = .emptyName (.ofText name)) ∧
    ∀ file, kind.fileFor target name = .ok file → IsFileOf kind target name file := by
  refine ⟨fun _ => fileFor_error_iff, fun file named => ?_⟩
  cases ends : Text.endsWith name (kind.suffix target) with
  | true =>
      obtain rfl := Except.ok.inj ((fileFor_suffixed ends).symm.trans named)
      exact isFileOf_of_suffixed ends
  | false =>
      rw [fileFor_unsuffixed ends] at named
      split at named
      · nomatch named
      · obtain rfl := Except.ok.inj named
        exact isFileOf_of_unsuffixed ends

example : ArtifactKind.dynamic.fileFor .linuxX64 "libfoo" = .ok "libfoo.so" := by decide

/-- The doubled slashes of a path and the one at its end are gone, and its directory is the same. -/
theorem file_of_app : ArtifactKind.dynamic.fileFor .linuxX64 "build//app/" = .ok "build/libapp.so" ∧
    IsFileOf .dynamic .linuxX64 "build//app/" "build/libapp.so" := by
  have named : ArtifactKind.dynamic.fileFor .linuxX64 "build//app/" = .ok "build/libapp.so" := by decide
  exact ⟨named, (fileFor_settles _ _ _).2 _ named⟩

end Foundry.ArtifactKind
