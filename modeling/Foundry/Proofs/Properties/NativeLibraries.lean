import Foundry.Proofs.FileSystem.Extension
import Foundry.Proofs.Files.Listing
import Foundry.Proofs.Process.History
import Foundry.Properties.Distribution

/-! The bitcode that is linked into programs where nothing else is asked for, as files. It is told apart by
how it is spelled, not by where it lies, and it is taken by name whatever stands there. -/
namespace Foundry.Distribution

open Run FileSystem Files

/-- The path can be asked for and leads to a regular file. -/
def LeadsToFile (fs : FileSystem) (path : String) : Prop :=
  holdsZero path = false ∧ ∃ content, fs.stat path = .ok (.file content)

/-- The directory of the other bitcode. -/
def natives (d : Distribution) (target : Target) : Path := .ofText (d.defaultNatives target)

/-- The path of a name in the directory of the other bitcode. -/
def native (d : Distribution) (target : Target) (name : String) : String :=
  ((d.natives target).child name).text

/-- The other bitcode with these names, without what is spelled like the runtime. -/
def others (d : Distribution) (target : Target) (names : List String) : List String :=
  (names.map (d.native target)).filter (· ≠ d.runtime target)

/-- First comes the runtime if it is a file, then the bitcode of the directory by name; the runtime is not
listed again under its spelling. -/
def Enumerates (d : Distribution) (target : Target) (fs : FileSystem) (paths : List String) : Prop :=
  ∃ names, NamesIn fs (d.natives target) ".bc" names ∧
    (LeadsToFile fs (d.runtime target) ∧ paths = d.runtime target :: d.others target names ∨
      ¬ LeadsToFile fs (d.runtime target) ∧ paths = d.others target names)

/-- The directory can be looked at, what has the name of bitcode there is a file, and the runtime, if it
lies there, is spelled like the directory's own path to it. -/
structure Listable (d : Distribution) (target : Target) (fs : FileSystem) : Prop where
  seen : holdsZero (d.natives target).text = false →
    fs.stat (d.natives target).text ≠ .error .nameTooLong
  files : ∀ name, NameIn fs (d.natives target) ".bc" name → d.native target name ≠ d.runtime target →
    LeadsToFile fs (d.native target name)
  spelled : LeadsToFile fs (d.runtime target) → ∀ name, NameIn fs (d.natives target) ".bc" name →
    fs.locate (d.native target name) = fs.locate (d.runtime target) →
      d.native target name = d.runtime target

variable {d : Distribution} {target : Target} {s t : Session} {paths : List String}

theorem look_isFile (path : String) (s : Session) :
    ∃ seen, look path s = .ok seen s ∧ (isFile seen = true ↔ LeadsToFile s.files path) := by
  obtain ⟨seen, looked⟩ := look_total path s
  obtain ⟨-, there, nowhere⟩ := look_ok looked
  refine ⟨seen, looked, ?_⟩
  cases seen with
  | none =>
      refine iff_of_false nofun ?_
      rintro ⟨whole, content, status⟩
      obtain ⟨errno, refused⟩ := nowhere rfl whole
      cases status.symm.trans refused
  | some entry =>
      have whole : holdsZero path = false := by
        rw [look] at looked
        split at looked
        · cases looked
        · rename_i whole
          simpa using whole
      have status := there entry rfl
      cases entry with
      | directory => simp [isFile, LeadsToFile, status]
      | file content => simp [isFile, LeadsToFile, status, whole]

/-- Listing fails only where the directory cannot be looked at. -/
theorem defaultNativeLibraries_cases (distinct : (s.files.entries.map (·.1)).Nodup) (d : Distribution)
    (target : Target) :
    (∃ paths, d.defaultNativeLibraries target s = .ok paths s ∧ d.Enumerates target s.files paths ∧
        (holdsZero (d.natives target).text = false →
          s.files.stat (d.natives target).text ≠ .error .nameTooLong)) ∨
      (∃ e t, d.defaultNativeLibraries target s = .error e t) ∧
        holdsZero (d.natives target).text = false ∧
        s.files.stat (d.natives target).text = .error .nameTooLong := by
  obtain ⟨seen, looked, file⟩ := look_isFile (d.runtime target) s
  rw [defaultNativeLibraries, bind_of_ok looked]
  cases listed : names (d.natives target).text s with
  | error e t =>
      obtain ⟨whole, long, -⟩ := names_fails_iff.mp ⟨t, listed⟩
      exact .inr ⟨⟨e, t, bind_eq_error.mpr (.inl listed)⟩, whole, long⟩
  | ok found t =>
      obtain ⟨rfl, named⟩ := namesIn_of_names distinct listed ".bc"
      have seen (whole : holdsZero (d.natives target).text = false) :
          t.files.stat (d.natives target).text ≠ .error .nameTooLong := by
        intro long
        obtain ⟨u, failed⟩ := names_fails_iff.mpr ⟨whole, long, rfl⟩
        cases listed.symm.trans failed
      refine .inl ⟨_, bind_of_ok listed, ⟨_, named, ?_⟩, seen⟩
      by_cases runs : LeadsToFile t.files (d.runtime target)
      · exact .inl ⟨runs, by rw [if_pos (file.mpr runs)]; rfl⟩
      · exact .inr ⟨runs, by rw [if_neg (runs ∘ file.mp)]; rfl⟩

theorem LeadsToFile.locate {fs : FileSystem} {path : String} (leads : LeadsToFile fs path) :
    fs.locate path = .ok (spot fs.here path) := by
  obtain ⟨-, content, status⟩ := leads
  exact (stat_ok status).1

/-- What stands in the directory lies below it, under its own name. -/
theorem spot_native {fs : FileSystem} (sound : fs.Sound) {name : String}
    (stands : NameIn fs (d.natives target) ".bc" name) :
    spot fs.here (d.native target name) = spot fs.here (d.natives target).text ++ [name] :=
  Path.spot_child _ (Path.ofText_clean _) (sound.proper _ stands.stands name (by simp))

/-- Files of the directory are told apart by their names. -/
theorem others_apart {fs : FileSystem} (sound : fs.Sound) {names : List String}
    (named : NamesIn fs (d.natives target) ".bc" names)
    (files : ∀ path ∈ d.others target names, LeadsToFile fs path) :
    (d.others target names).Pairwise fun a b => fs.locate a ≠ fs.locate b := by
  have apart : names.Pairwise fun a b =>
      spot fs.here (d.native target a) ≠ spot fs.here (d.native target b) := by
    refine List.Pairwise.imp_of_mem (fun {a b} inFirst inSecond before => ?_) named.ordered
    rw [spot_native sound ((named.mem a).mp inFirst), spot_native sound ((named.mem b).mp inSecond)]
    intro same
    exact String.ne_of_lt before (by simpa using same)
  have spots : (d.others target names).Pairwise fun a b => spot fs.here a ≠ spot fs.here b := by
    rw [others]
    exact List.Pairwise.filter _ (List.pairwise_map.mpr apart)
  refine spots.imp_of_mem fun {a b} inFirst inSecond different same => different ?_
  rw [(files a inFirst).locate, (files b inSecond).locate] at same
  exact Except.ok.inj same

theorem mem_others {names : List String} {path : String} : path ∈ d.others target names ↔
    (∃ name ∈ names, d.native target name = path) ∧ path ≠ d.runtime target := by
  simp [others]

/-- The bitcode that is listed is the runtime and what has the name of bitcode in the directory, in that
order; and all of it are files, none of which is listed twice, exactly if the directory and the spelling of
the runtime allow it. -/
theorem defaultNativeLibraries_lists_files_iff (sound : s.files.Sound)
    (distinct : (s.files.entries.map (·.1)).Nodup) (d : Distribution) (target : Target) :
    (∀ paths t, d.defaultNativeLibraries target s = .ok paths t → t = s ∧ d.Enumerates target s.files paths) ∧
    ((∃ paths t, d.defaultNativeLibraries target s = .ok paths t ∧
        (∀ path ∈ paths, LeadsToFile s.files path) ∧
        paths.Pairwise fun a b => s.files.locate a ≠ s.files.locate b) ↔
      d.Listable target s.files) := by
  refine ⟨fun paths t ran => ?_, ?_, fun listable => ?_⟩
  · rcases defaultNativeLibraries_cases distinct d target with ⟨paths', ran', listed, -⟩ | ⟨⟨e, u, failed⟩, -⟩
    · cases ran.symm.trans ran'
      exact ⟨rfl, listed⟩
    · cases ran.symm.trans failed
  · rintro ⟨paths, t, ran, files, apart⟩
    rcases defaultNativeLibraries_cases distinct d target with
      ⟨paths', ran', ⟨names, named, listed⟩, seen⟩ | ⟨⟨e, u, failed⟩, -⟩
    · cases ran.symm.trans ran'
      have other (name : String) (stands : NameIn s.files (d.natives target) ".bc" name)
          (different : d.native target name ≠ d.runtime target) :
          d.native target name ∈ d.others target names :=
        mem_others.mpr ⟨⟨name, (named.mem name).mpr stands, rfl⟩, different⟩
      refine ⟨seen, fun name stands different => files _ ?_, fun runs name stands same => ?_⟩
      · rcases listed with ⟨-, rfl⟩ | ⟨-, rfl⟩
        · exact List.mem_cons_of_mem _ (other name stands different)
        · exact other name stands different
      · rcases listed with ⟨-, rfl⟩ | ⟨missing, -⟩
        · by_contra different
          exact (List.pairwise_cons.mp apart).1 _ (other name stands different) same.symm
        · exact absurd runs missing
    · cases ran.symm.trans failed
  · rcases defaultNativeLibraries_cases distinct d target with
      ⟨paths, ran, ⟨names, named, listed⟩, -⟩ | ⟨-, whole, long⟩
    · have files : ∀ path ∈ d.others target names, LeadsToFile s.files path := by
        intro path member
        obtain ⟨⟨name, inside, rfl⟩, different⟩ := mem_others.mp member
        exact listable.files name ((named.mem name).mp inside) different
      have apart := others_apart sound named files
      refine ⟨paths, s, ran, ?_⟩
      rcases listed with ⟨runs, rfl⟩ | ⟨-, rfl⟩
      · refine ⟨List.forall_mem_cons.mpr ⟨runs, files⟩, List.pairwise_cons.mpr ⟨fun path member same => ?_, apart⟩⟩
        obtain ⟨⟨name, inside, rfl⟩, different⟩ := mem_others.mp member
        exact different (listable.spelled runs name ((named.mem name).mp inside) same.symm)
      · exact ⟨files, apart⟩
    · exact absurd long (listable.seen whole)

/-- A distribution with a runtime of its own. -/
def withRuntime (runtime : String) : Distribution :=
  { home := "/k", llvmHome := "/k/llvm", runtimeOverride := runtime }

/-- A session in the home of a distribution, where the runtime lies with the other bitcode. -/
def inHome : Session :=
  { Session.blank with
    files := {
      entries := [(["k"], .directory), (["k", "kiln"], .directory), (["k", "kiln", "targets"], .directory),
        (["k", "kiln", "targets", "linux_x64"], .directory),
        (["k", "kiln", "targets", "linux_x64", "native"], .directory),
        (["k", "kiln", "targets", "linux_x64", "native", "readme"], .file []),
        (["k", "kiln", "targets", "linux_x64", "native", "runtime.bc"], .file [1]),
        (["k", "kiln", "targets", "linux_x64", "native", "a.bc"], .file [2])]
      here := ["k"] } }

/-- The runtime is listed once where its whole path is given. -/
theorem runtime_listed_once : ∃ paths t,
    (withRuntime "/k/kiln/targets/linux_x64/native/runtime.bc").defaultNativeLibraries .linuxX64 inHome =
      .ok paths t ∧
    (∀ path ∈ paths, LeadsToFile inHome.files path) ∧
    paths.Pairwise fun a b => inHome.files.locate a ≠ inHome.files.locate b := by
  have sound : inHome.files.Sound := Sound.of_entries (by decide) (by decide)
  have distinct : (inHome.files.entries.map (·.1)).Nodup := by decide
  have listed (name : String) (stands : NameIn inHome.files
      ((withRuntime "/k/kiln/targets/linux_x64/native/runtime.bc").natives .linuxX64) ".bc" name) :
      name = "a.bc" ∨ name = "runtime.bc" := by
    have ran : (names ((withRuntime "/k/kiln/targets/linux_x64/native/runtime.bc").natives
        .linuxX64).text).outcome? (fun _ => ()) inHome = some (["a.bc", "readme", "runtime.bc"], ()) := by
      decide
    obtain ⟨t, ran, -⟩ := outcome?_eq_some.mp ran
    have member := ((namesIn_of_names distinct ran ".bc").2.mem name).mpr stands
    rwa [show ["a.bc", "readme", "runtime.bc"].filter (Text.endsWith · ".bc") = ["a.bc", "runtime.bc"] by
      decide, List.mem_cons, List.mem_singleton] at member
  refine (defaultNativeLibraries_lists_files_iff sound distinct _ _).2.mpr
    ⟨fun _ => by decide, fun name stands different => ?_, fun _ name stands same => ?_⟩
  · rcases listed name stands with rfl | rfl
    · exact ⟨by decide, [2], by decide +kernel⟩
    · exact absurd (by decide) different
  · rcases listed name stands with rfl | rfl
    · exact absurd same (by decide)
    · decide

/-- Where only the path from the current directory is given, the runtime is listed twice. -/
theorem runtime_listed_twice : ∃ t,
    (withRuntime "kiln/targets/linux_x64/native/runtime.bc").defaultNativeLibraries .linuxX64 inHome =
      .ok ["kiln/targets/linux_x64/native/runtime.bc", "/k/kiln/targets/linux_x64/native/a.bc",
        "/k/kiln/targets/linux_x64/native/runtime.bc"] t ∧
    inHome.files.locate "kiln/targets/linux_x64/native/runtime.bc" =
      inHome.files.locate "/k/kiln/targets/linux_x64/native/runtime.bc" := by
  have ran : ((withRuntime "kiln/targets/linux_x64/native/runtime.bc").defaultNativeLibraries
      .linuxX64).outcome? (fun _ => ()) inHome =
        some (["kiln/targets/linux_x64/native/runtime.bc", "/k/kiln/targets/linux_x64/native/a.bc",
          "/k/kiln/targets/linux_x64/native/runtime.bc"], ()) := by
    decide
  obtain ⟨t, ran, -⟩ := outcome?_eq_some.mp ran
  exact ⟨t, ran, by decide⟩

end Foundry.Distribution
