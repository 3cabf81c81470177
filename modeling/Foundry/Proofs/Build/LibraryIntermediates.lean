import Foundry.Proofs.Build.LibraryFailure
import Foundry.Proofs.Files.Removal
import Foundry.Proofs.Library.Publishing

/-! What is left of the intermediate files of a library. Whether the build succeeds or fails, they are in
its run directory and gone with it, but for the archive of the module: that one is made where the name of
the module leads from the run directory, and stays if that is outside. -/
namespace Foundry

open FileSystem Run

namespace RunDirectory

variable {m t : Session} {directory : String}

/-- Where no file has taken the place of the run directory, nothing is left of it once it is removed. -/
theorem remove_fileless (removable : m.Removable directory) (descends : ".." ∉ Text.split '/' directory)
    (kept : t.runDirectory = m.runDirectory) (here : t.files.here = m.files.here)
    (fileless : t.files.Fileless (spot t.files.here directory)) :
    ∃ fs, remove t = .ok () { t with files := fs, runDirectory := none } ∧ fs.here = t.files.here ∧
      ∀ place, fs.entry? place =
        if within (spot t.files.here directory) place = true then none else t.files.entry? place := by
  obtain ⟨fs, discarded, here', entries⟩ :=
    Files.discardTree_fileless removable.whole descends removable.named here fileless
  refine ⟨fs, ?_, here', entries⟩
  simp [remove, bind, EStateM.bind, kept.trans removable.runDirectory, discarded]

end RunDirectory

/-- A session of a build of a library that began at `origin`, before its run directory is removed and
whether the library was published or not: beyond what a draft changes, `A` is where it may have changed
something. -/
inductive Session.Settled (origin : Session) (F A : String → Location → Prop) (t : Session) : Prop where
  | untouched : t.files = origin.files → t.runDirectory = none → t.started = origin.started →
      Settled origin F A t
  | working (directory : String) (m : Session) :
      origin.Confined (F directory) (fun _ => True) directory m →
      Spares (spot origin.files.here directory) (A directory) m.files t.files →
      t.started = m.started → t.runDirectory = m.runDirectory → Settled origin F A t

namespace Job

open LibraryWriter

variable {job : Job} {w : LibraryWriter} {origin s : Session} {directory : String}

/-- The path under which the library is published, if there is one. -/
def published? (job : Job) : Option Path :=
  if job.config.unpacked then some job.libraryPath
  else job.libraryPath.withName? (job.libraryName ++ librarySuffix)

/-- Where the library is published: at its path, or below it. -/
def PublishesAt (job : Job) (here place : Location) : Prop :=
  ∃ path, job.published? = some path ∧ within (spot here path.text) place = true

/-- The archive of the module. -/
def moduleArchive (job : Job) (directory : String) : String :=
  joinPaths directory (job.config.moduleName ++ ".a")

theorem Lays.publishesAt (lays : job.Lays directory w) (here : Location) :
    w.PublishesAt here = job.PublishesAt here := by
  have published : w.published? = job.published? := by
    simp only [LibraryWriter.published?, Job.published?, packedPath?, lays.output, lays.unpacked]
    rfl
  funext place
  simp only [LibraryWriter.PublishesAt, Job.PublishesAt, published]

/-- Whether it succeeds or not, the build of a library changes its run directory, the place of the
library, and that of the archive of the module. -/
theorem produceLibrary_settled (compiles : job.CompilesLibrary origin) :
    origin.Settled
      (fun directory place => place = spot origin.files.here (job.moduleArchive directory))
      (fun directory place => within (spot origin.files.here directory) place = true ∨
        job.PublishesAt origin.files.here place) (job.produceLibrary.after origin) := by
  obtain ⟨drafted, undrafted⟩ := draftLibrary_confined (D := fun _ _ => True)
    (F := fun directory place => place = spot origin.files.here (job.moduleArchive directory)) compiles
    (fun _ _ _ => ⟨fun _ _ => .inl trivial, fun _ _ _ => .inl trivial⟩) fun _ => .inl rfl
  rw [produceLibrary_eq]
  cases ran : job.draftLibrary origin with
  | error e t =>
      rw [after_bind_of_error ran]
      cases undrafted e t ran with
      | untouched files _ none started => exact .untouched files none started
      | working directory confined => exact .working directory t confined (.refl _) rfl rfl
  | ok w m =>
      obtain ⟨directory, lays, confined⟩ := drafted w m ran
      have published : (job.draftLibrary >>= fun library => do
          return some (← library.commit).text).after origin = w.commit.after m := by
        rw [after_bind_of_ok ran, after_bind_pure]
      rw [published]
      have same := ((commit_filesOnly w).obeys m).1
      have spared := commit_sparing (lays.stagedAt origin.files.here) lays.clean m confined.here
      have reaches : w.Reaches origin.files.here (spot origin.files.here directory) = fun place =>
          within (spot origin.files.here directory) place = true ∨
            job.PublishesAt origin.files.here place := by
        funext place
        rw [Reaches, lays.publishesAt]
      exact .working directory m confined (reaches ▸ spared) (by rw [same]) (by rw [same])

/-- A place outside of the run directory where the archive of the module is made. Only the name of the
module can lead there, by a separator in it. -/
def StrayArchive (job : Job) (s : Session) (place : Location) : Prop :=
  '/' ∈ job.config.moduleName.toList ∧ ∃ directory, job.runDirectory? s = some directory ∧
    place = spot s.files.here (job.moduleArchive directory) ∧
    within (spot s.files.here directory) place = false

/-- The archive of a module with a plain name lies directly in the run directory. -/
theorem scratch_moduleArchive (plain : '/' ∉ job.config.moduleName.toList) (s : Session)
    (directory : String) : s.Scratch directory (spot s.files.here (job.moduleArchive directory)) :=
  ⟨_, spot_joinPaths_name _ _ (isName_moduleArchive plain)⟩

section Removal
variable {d m : Session} {F A D : Location → Prop} {fs : FileSystem} {place : Location}

/-- Removing the run directory of a build takes all of it and nothing else, whatever was spared in the
meantime. -/
theorem remove_of_spared (confined : s.Confined F D directory d)
    (spared : Spares (spot s.files.here directory) A d.files m.files)
    (kept : m.runDirectory = d.runDirectory) (descends : ".." ∉ Text.split '/' s.host.temporary) :
    ∃ fs, RunDirectory.remove m = .ok () { m with files := fs, runDirectory := none } ∧
      ∀ place, fs.entry? place =
        if within (spot s.files.here directory) place = true then none else m.files.entry? place := by
  have here : m.files.here = s.files.here := spared.changes.here.trans confined.here
  have descends' : ".." ∉ Text.split '/' directory := by
    obtain ⟨number, rfl⟩ := confined.drawn
    exact RunDirectory.descends_new descends number
  have fileless : m.files.Fileless (spot m.files.here directory) := by
    rw [here]
    refine spared.fileless ⟨confined.files.sound confined.sound, fun content file => ?_⟩
    rw [confined.stands] at file
    nomatch file
  obtain ⟨fs, removed, -, entries⟩ := RunDirectory.remove_fileless confined.removable descends' kept
    spared.changes.here fileless
  rw [here] at entries
  exact ⟨fs, removed, entries⟩

/-- Once the run directory is gone, only files outside of it that the build was to change can differ. -/
theorem file?_of_removed (confined : s.Confined F D directory d)
    (spared : Spares (spot s.files.here directory) A d.files m.files)
    (entries : ∀ place, fs.entry? place =
      if within (spot s.files.here directory) place = true then none else m.files.entry? place)
    (untouched : ¬ within (spot s.files.here directory) place = true → ¬ F place ∧ ¬ A place) :
    fs.file? place = s.files.file? place := by
  by_cases inside : within (spot s.files.here directory) place = true
  · have gone := entries place
    rw [if_pos inside] at gone
    exact file?_congr (gone.trans (confined.free_inside inside).symm)
  · have left := entries place
    rw [if_neg inside] at left
    obtain ⟨notMade, notSpared⟩ := untouched inside
    have drafted := confined.files.changes.file (not_or.mpr ⟨notMade, inside⟩)
    exact (file?_congr left).trans ((spared.changes.file notSpared).trans drafted)

end Removal

/-- The archive of the module is not made at a place outside of the run directory that is no stray
archive. -/
theorem not_moduleArchive {place : Location} (there : job.runDirectory? s = some directory)
    (notStray : ¬ job.StrayArchive s place)
    (outside : ¬ within (spot s.files.here directory) place = true) :
    place ≠ spot s.files.here (job.moduleArchive directory) := by
  intro same
  by_cases plain : '/' ∈ job.config.moduleName.toList
  · exact notStray ⟨plain, directory, there, same, Bool.eq_false_iff.mpr outside⟩
  · exact outside (same ▸ (scratch_moduleArchive plain s directory).inside)

/-- When a library is built, the tools write directly in the run directory, and nothing is left of that:
whether the build succeeds or not, no file has changed but at the place of the library. Only a separator
in the name of the module leads the archive of the module elsewhere, and there it stays. -/
theorem produce_library_intermediates (compiles : job.CompilesLibrary s)
    (descends : ".." ∉ Text.split '/' s.host.temporary) :
    let t := job.produce.after s
    (∃ new, t.started = s.started ++ new ∧
      ∀ start ∈ new, ∀ path ∈ Toolset.outputs start.argv, ∃ directory,
        job.runDirectory? s = some directory ∧
          (s.Scratch directory (spot s.files.here path) ∨ '/' ∈ job.config.moduleName.toList ∧
            spot s.files.here path = spot s.files.here (job.moduleArchive directory))) ∧
      (∀ directory, job.runDirectory? s = some directory →
        ∀ rest, t.files.entry? (spot s.files.here directory ++ rest) = none) ∧
      ∀ place, ¬ job.PublishesAt s.files.here place → ¬ job.StrayArchive s place →
        t.files.file? place = s.files.file? place := by
  obtain ⟨ended, directory?⟩ := produce_of_chosen (producer_library compiles.library) s
  have ended : job.produce.after s = RunDirectory.remove.after (job.produceLibrary.after s) := ended
  have directory? : job.runDirectory? s = (job.produceLibrary.after s).runDirectory := directory?
  rw [ended]
  have settled := produceLibrary_settled compiles
  generalize job.produceLibrary.after s = m at directory? settled
  cases settled with
  | untouched files none started =>
      rw [after_of_ok (RunDirectory.remove_of_none none)]
      refine ⟨⟨[], by simpa using started, nofun⟩, fun directory there => ?_, fun place _ _ => ?_⟩
      · rw [directory?, none] at there
        nomatch there
      · rw [files]
  | working directory d confined spared started kept =>
      have there : job.runDirectory? s = some directory := by
        rw [directory?, kept]
        exact confined.runDirectory
      obtain ⟨fs, removed, entries⟩ := remove_of_spared confined spared kept descends
      rw [after_of_ok removed]
      refine ⟨?_, fun directory' there' rest => ?_, fun place unpublished kept' => ?_⟩
      · obtain ⟨new, since, permitted⟩ := confined.starts
        refine ⟨new, started.trans since, fun start member path written => ⟨directory, there, ?_⟩⟩
        rcases permitted start member path written with archive | scratch
        · by_cases plain : '/' ∈ job.config.moduleName.toList
          · exact .inr ⟨plain, archive⟩
          · rw [archive]
            exact .inl (scratch_moduleArchive plain s directory)
        · exact .inl scratch
      · obtain rfl : directory = directory' := Option.some.inj (there.symm.trans there')
        exact (entries _).trans (if_pos (within_append _ _))
      · exact file?_of_removed confined spared entries fun outside =>
          ⟨not_moduleArchive there kept' outside, not_or.mpr ⟨outside, unpublished⟩⟩

/-- A library of a module with this name, for Linux and not to be packed. -/
def ofModule (moduleName : String) : Job :=
  { ofOutput "lib" with config := { (ofOutput "lib").config with moduleName } }

theorem compilesLibrary_ofModule {moduleName : String} {tools : Toolset}
    (flags : (ofModule moduleName).setup.map (·.codeFlags) = .ok []) :
    (ofModule moduleName).CompilesLibrary (withOldLibrary tools) := by
  have sound : (withOldLibrary .obliging).files.Sound := Sound.of_entries (by decide) (by decide)
  refine ⟨⟨sound, rfl⟩, rfl, List.not_mem_nil, fun setup ready => ?_⟩
  rw [ready] at flags
  have none : setup.codeFlags = [] := Except.ok.inj flags
  rw [Setup.NamesOutputs, none]
  exact List.not_mem_nil

/-- It is published as a directory. -/
theorem publishesAt_ofModule {moduleName : String} {place : Location}
    (published : (ofModule moduleName).PublishesAt [] place) : within ["lib"] place = true := by
  obtain ⟨path, named, inside⟩ := published
  have there : (ofModule moduleName).published?.map (fun path => spot [] path.text) = some ["lib"] := by
    have same : (ofModule moduleName).published? = (ofModule "").published? := rfl
    rw [same]
    decide +kernel
  rw [named, Option.map_some, Option.some.injEq] at there
  exact there ▸ inside

theorem builds_main :
    (ofModule "main").runDirectory? (withOldLibrary .obliging) = some "/tmp/kiln-1" ∧
      (ofModule "main").produce.outcome?
        (fun t => t.started.flatMap fun start => Toolset.outputs start.argv)
        (withOldLibrary .obliging) = some (some "lib",
          ["/tmp/kiln-1/optimized2.bc", "/tmp/kiln-1/compiled3.o", "/tmp/kiln-1/main.a"]) := by
  decide +kernel

/-- The tools of a library have written in its run directory, and nothing is left of that. -/
theorem intermediates_gone :
    let s := withOldLibrary .obliging
    (ofModule "main").CompilesLibrary s ∧ ∃ path t, (ofModule "main").produce s = .ok path t ∧
      t.started.flatMap (fun start => Toolset.outputs start.argv) =
        ["/tmp/kiln-1/optimized2.bc", "/tmp/kiln-1/compiled3.o", "/tmp/kiln-1/main.a"] ∧
      (∀ rest, t.files.entry? (["tmp", "kiln-1"] ++ rest) = none) ∧
      ∀ place, within ["lib"] place = false → t.files.file? place = s.files.file? place := by
  intro s
  have compiles : (ofModule "main").CompilesLibrary s := compilesLibrary_ofModule (by decide +kernel)
  obtain ⟨directory, built⟩ := builds_main
  obtain ⟨t, ran, outputs⟩ := outcome?_eq_some.mp built
  have there : spot s.files.here "/tmp/kiln-1" = ["tmp", "kiln-1"] := by decide +kernel
  obtain ⟨-, gone, kept⟩ := produce_library_intermediates compiles (by decide)
  rw [after_of_ok ran] at gone kept
  refine ⟨compiles, _, t, ran, outputs, there ▸ gone _ directory, fun place outside => kept place ?_ ?_⟩
  · intro published
    rw [publishesAt_ofModule published] at outside
    exact Bool.noConfusion outside
  · rintro ⟨slash, -⟩
    exact absurd slash (by decide)

theorem builds_stray :
    (ofModule "../x").runDirectory? (withOldLibrary .obliging) = some "/tmp/kiln-1" ∧
      (ofModule "../x").produce.outcome? (fun t => (t.started.getLast?.map (Toolset.outputs ·.argv),
        t.files.file? ["tmp", "x.a"])) (withOldLibrary .obliging) =
        some (some "lib", (some ["/tmp/kiln-1/../x.a"], some [])) := by
  decide +kernel

/-- A module name that leads out of the run directory leads the archive of the module out of it. It is
left there. -/
theorem stray_archive_stays :
    let s := withOldLibrary .obliging
    (ofModule "../x").CompilesLibrary s ∧ (ofModule "../x").runDirectory? s = some "/tmp/kiln-1" ∧
      ¬ (ofModule "../x").PublishesAt s.files.here ["tmp", "x.a"] ∧
      s.files.file? ["tmp", "x.a"] = none ∧
      ∃ path t, (ofModule "../x").produce s = .ok path t ∧
        t.started.getLast?.map (Toolset.outputs ·.argv) = some ["/tmp/kiln-1/../x.a"] ∧
        t.files.file? ["tmp", "x.a"] = some [] := by
  intro s
  have compiles : (ofModule "../x").CompilesLibrary s := compilesLibrary_ofModule (by decide +kernel)
  obtain ⟨directory, built⟩ := builds_stray
  obtain ⟨t, ran, found⟩ := outcome?_eq_some.mp built
  obtain ⟨outputs, archive⟩ := Prod.mk.inj found
  have outside : ¬ (ofModule "../x").PublishesAt s.files.here ["tmp", "x.a"] := fun published =>
    absurd (publishesAt_ofModule published) (by decide)
  exact ⟨compiles, directory, outside, by decide +kernel, _, t, ran, outputs, archive⟩

end Job

end Foundry
