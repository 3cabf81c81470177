import Foundry.Build.Produce
import Foundry.Proofs.Build.Workspace
import Foundry.Proofs.Library.Staging

/-! The archives of a library: each is compiled in the run directory, and what the archiver made is
put among the included binaries. -/
namespace Foundry

open FileSystem Run LibraryWriter

/-- An archiver that succeeded has written its archive if it can be read. -/
theorem FileSystem.write_of_writeEach {fs : FileSystem} {path : String} {product content : Bytes}
    (notAbove : Text.baseName path ≠ "..")
    (readable : (fs.writeEach [path] product).read path = .ok content) :
    ∃ fs', fs.write path product = .ok fs' ∧ fs.writeEach [path] product = fs' := by
  cases done : fs.write path product with
  | ok fs' => exact ⟨fs', rfl, by simp [writeEach, done]⟩
  | error errno =>
      have same : fs.writeEach [path] product = fs := by simp [writeEach, done]
      rw [same] at readable
      obtain ⟨fs', written⟩ := write_of_read readable notAbove product
      rw [done] at written
      contradiction

/-- A session in which work in the run directory has gone on. -/
structure Session.Proceeds (directory : String) (s t : Session) : Prop where
  works : t.WorksIn directory
  host : t.host = s.host
  started : s.started <+: t.started
  here : t.files.here = s.files.here

theorem Session.Proceeds.refl {s : Session} (works : s.WorksIn directory) : s.Proceeds directory s :=
  ⟨works, rfl, List.prefix_refl _, rfl⟩

theorem Session.Proceeds.trans {s t u : Session} (first : s.Proceeds directory t)
    (second : t.Proceeds directory u) : s.Proceeds directory u where
  works := second.works
  host := second.host.trans first.host
  started := first.started.trans second.started
  here := second.here.trans first.here

/-- An archive as it is filed: under the last name of its path. -/
def filed (archive : String × Bytes) : String × Bytes := (Text.baseName archive.1, archive.2)

namespace Job

variable {job : Job} {w : LibraryWriter} {s t : Session} {directory : String}
  {natives included : List (String × Bytes)}

/-- A place outside of every run directory that a build can make. -/
def OutsideRuns (s : Session) (path : String) : Prop :=
  ∀ number, within (spot s.files.here (RunDirectory.new s.host RunDirectory.buildStem number))
    (spot s.files.here path) = false

/-- The contents of files, in order. -/
def Holding (fs : FileSystem) (paths : List String) (contents : List Bytes) : Prop :=
  paths.map (fun path => fs.file? (spot fs.here path)) = contents.map some

theorem joinPaths_nonempty (directory : String) : joinPaths directory "library" ≠ "" := by
  intro empty
  have base := baseName_joinPaths directory "library"
  rw [empty] at base
  exact absurd base (by decide)

/-- A library is laid out in a new run directory, with each native bitcode file and each binary. -/
theorem layOutLibrary_ok (sound : s.files.Sound) (none : s.runDirectory = none)
    (outside : ∀ path ∈ job.config.nativeLibraries ++ job.config.includedBinaries,
      OutsideRuns s path)
    (ran : job.layOutLibrary s = .ok w t) :
    ∃ number output natives included,
      let directory := RunDirectory.new s.host RunDirectory.buildStem number
      job.config.outputFile = .ok output ∧ s.Proceeds directory t ∧ s.archivesSince t = [] ∧
      w.BegunAs output (joinPaths directory "library") job.config.target job.config.unpacked ∧
      w.nativeTargets = job.config.nativeLibraries.map nameOf ∧
      w.StagedAt s.files.here (spot s.files.here directory) ∧
      Holding s.files job.config.nativeLibraries natives ∧
      Holding s.files job.config.includedBinaries included ∧
      w.Laid t ((job.config.nativeLibraries.map nameOf).zip natives)
        ((job.config.includedBinaries.map nameOf).zip included) := by
  obtain ⟨output, a, asked, rest⟩ := bind_eq_ok.mp ran
  obtain ⟨found, rfl⟩ := ofExcept_eq_ok.mp asked
  obtain ⟨s', b, got, rest⟩ := bind_eq_ok.mp rest
  obtain ⟨rfl, rfl⟩ : s = s' ∧ s = b := by simpa using got
  obtain ⟨staging, m, named, building⟩ := bind_eq_ok.mp rest
  obtain ⟨number, rfl, works, host, started, -, grown, free, vacant⟩ :=
    RunDirectory.named_new sound none named
  have proper : IsName "library" := by decide
  have there := spot_joinPaths_name m.files.here
    (RunDirectory.new s.host RunDirectory.buildStem number) proper
  have apart : ∀ path ∈ job.config.nativeLibraries ++ job.config.includedBinaries,
      within (spot m.files.here (RunDirectory.new s.host RunDirectory.buildStem number))
        (spot m.files.here path) = false := by
    intro path member
    rw [grown.here]
    exact outside path member number
  obtain ⟨begun, targets, at', grown', natives, included, first, second, laid⟩ :=
    build_ok (grown.here ▸ vacant) works.sound (joinPaths_nonempty _) there
      (fun path member => apart path (List.mem_append_left _ member))
      (fun path member => apart path (List.mem_append_right _ member)) building
  have before (path : String) :
      m.files.file? (spot m.files.here path) = s.files.file? (spot s.files.here path) := by
    rw [grown.here, grown.file fun impossible => impossible]
  simp only [before] at first second
  have kept := ((build_filesOnly _ _ _ _ _ _ _).obeys m).of_ok building
  refine ⟨number, output, natives, included, found, ⟨⟨?_, grown'.sound works.sound⟩, ?_, ?_, ?_⟩, ?_,
    begun, targets, grown.here ▸ at', first, second, laid⟩
  · rw [kept.1]
    exact works.runDirectory
  · rw [kept.1]
    exact host
  · rw [kept.1]
    exact started ▸ List.prefix_refl _
  · exact grown'.here.trans grown.here
  · apply Session.archivesSince_same
    rw [kept.1]
    exact started

/-- The place of files that compiling makes is not one of the layout. -/
theorem not_scratch (at' : w.StagedAt s.files.here (spot s.files.here directory)) (step step' : String)
    (rest : Location) : ¬ s.Scratch directory (w.place s.files.here ++ step :: step' :: rest) := by
  rintro ⟨name, same⟩
  have deep := at'.length_place
  have length := congrArg List.length same
  simp only [List.length_append, List.length_cons, List.length_nil] at length
  omega

theorem Laid.advance (at' : w.StagedAt s.files.here (spot s.files.here directory))
    (laid : w.Laid s natives included) (advanced : s.Advances directory t) :
    w.Laid t natives included := by
  apply laid.extend advanced.files
  · intro name
    simpa [nativeSteps, targetSteps] using not_scratch at' "targets" w.target.name ["native", name]
  · intro name
    simpa [includedSteps, targetSteps] using not_scratch at' "targets" w.target.name ["included", name]

theorem archiveName_notFlag (directory stem : String) : joinPaths directory (stem ++ ".a") ≠ "-o" := by
  have ends (front : String) : front ++ (stem ++ ".a") ≠ "-o" := by
    intro same
    have last := congrArg (fun text => text.toList.getLast?) same
    simp at last
  unfold joinPaths
  split
  · simpa using ends ""
  · split
    · exact ends directory
    · exact ends (directory ++ "/")

theorem archiveName (stem : String) : IsName (Text.baseName stem ++ ".a") := by
  have inside : 'a' ∈ (Text.baseName stem ++ ".a").toList := by simp
  exact .of_mem inside (by decide) (by simp [Text.not_mem_baseName])

theorem baseName_archive (directory stem : String) :
    Text.baseName (joinPaths directory (stem ++ ".a")) = Text.baseName stem ++ ".a" := by
  rw [baseName_joinPaths, Text.baseName_append_tail stem (by decide)]

/-- The archiver's file is put nowhere among the included binaries, for then it could not be copied
there; if its path leads into the native bitcode, it is put there. -/
theorem Laid.archived {fs : FileSystem} {path : String} (clean : w.staging.Clean)
    (laid : w.Laid s natives included) (done : s.files.write path product = .ok fs)
    (after : t.files = fs) (apart : spot s.files.here path ≠
      spot s.files.here (w.includedDirectory.child (nameOf path)).text) :
    ∃ strays, w.Laid t (natives ++ strays) included ∧ strays.length ≤ 1 ∧
      ∀ stray, stray ∈ strays ↔
        spot s.files.here path = w.place s.files.here ++ w.nativeSteps ++ [stray.1] ∧
          stray.2 = product := by
  obtain ⟨cleanDirectory, there⟩ := includedDirectory_spot clean s.files.here
  obtain ⟨proper, directory, named⟩ := write_name done
  obtain ⟨standing, free, rfl⟩ := write_ok done
  have last : nameOf path = Text.baseName path := Path.name_ofText proper.nonempty proper.notSelf
  rw [last, Path.spot_child _ cleanDirectory proper, there] at apart
  have outside : ∀ name, spot s.files.here path ≠ w.place s.files.here ++ w.includedSteps ++ [name] := by
    intro name same
    rw [named] at same
    have base := (List.append_inj' same rfl).2
    simp only [List.cons.injEq, and_true] at base
    exact apart (named.trans (same.trans (by rw [base])))
  obtain ⟨strays, natives, few, which⟩ := laid.natives.put standing.below free product
  have included := laid.included.put_outside standing.below free outside product
  rw [← after] at natives included
  have here : t.files.here = s.files.here := by rw [after]; rfl
  exact ⟨strays, ⟨here ▸ natives, here ▸ included⟩, few, which⟩

/-- An archive is put among the included binaries as the archiver made it. If its path leads into
the native bitcode, it is put there too. -/
theorem addArchive_ok {bitcode stem : String}
    (named : ∀ setup, job.setup = .ok setup → setup.NamesOutputs) (works : s.WorksIn directory)
    (at' : w.StagedAt s.files.here (spot s.files.here directory)) (laid : w.Laid s natives included)
    (notFlag : bitcode ≠ "-o") (ran : job.addArchive w bitcode (stem ++ ".a") s = .ok u t) :
    ∃ product strays, s.Proceeds directory t ∧
      s.archivesSince t = [(joinPaths directory (stem ++ ".a"), product)] ∧
      w.Laid t (natives ++ strays) (included ++ (s.archivesSince t).map filed) ∧
      strays.length ≤ 1 ∧
      ∀ stray, stray ∈ strays ↔ spot s.files.here (joinPaths directory (stem ++ ".a")) =
        w.place s.files.here ++ w.nativeSteps ++ [stray.1] ∧ stray.2 = product := by
  obtain ⟨setup, a, ready, rest⟩ := bind_eq_ok.mp ran
  obtain ⟨found, rfl⟩ := ofExcept_eq_ok.mp ready
  obtain ⟨path, v, archiving, adding⟩ := bind_eq_ok.mp rest
  have nonempty : stem ++ ".a" ≠ "" := by simp
  obtain ⟨rfl, m, product, advanced, host, kept, started, archives, files⟩ :=
    Setup.staticLibrary_ok works (named setup found) (by simpa using Ne.symm notFlag) nonempty
      (archiveName_notFlag directory stem) archiving
  have laid₁ := Laid.advance at' laid advanced
  have base : Text.baseName (joinPaths directory (stem ++ ".a")) ≠ ".." := by
    rw [baseName_archive]
    exact (archiveName stem).notAbove
  obtain ⟨_, readable, apart⟩ := @copyInto_source w v t _ _ w.includedDirectory adding
  rw [files] at readable
  obtain ⟨fs, done, same⟩ := FileSystem.write_of_writeEach base readable
  have after : v.files = fs := files.trans same
  have here : v.files.here = m.files.here := by
    obtain ⟨-, -, rfl⟩ := write_ok done
    rw [after]
    rfl
  obtain ⟨strays, laid₂, few, which⟩ :=
    Laid.archived at'.clean laid₁ done after (here ▸ apart)
  obtain ⟨content, readable', laid₃, -, grown, ended⟩ := addIncluded_ok at'.clean laid₂ adding
  have proper := (write_name done).1
  have last : nameOf _ = _ := Path.name_ofText proper.nonempty proper.notSelf
  obtain ⟨standing, -, rfl⟩ := write_ok done
  obtain rfl : content = product := by
    have found := file?_spot_of_read readable'
    rw [here, after, Holds.file?_put standing.below, if_pos rfl] at found
    exact (Option.some.inj found).symm
  have written : m.files.Extends (fun _ => True) v.files := after ▸ write_extends done trivial
  have sound : t.files.Sound := grown.sound (written.sound advanced.works.sound)
  have started' : v.started = t.started := by rw [ended]
  have made : s.archivesSince t = [(joinPaths directory (stem ++ ".a"), content)] := by
    rw [Session.archivesSince_trans host started (started' ▸ List.prefix_refl _), archives,
      Session.archivesSince_same started'.symm]
    rfl
  refine ⟨content, strays, ⟨⟨?_, sound⟩, ?_, started' ▸ started, ?_⟩, made, ?_, few, fun stray => ?_⟩
  · rw [ended]
    exact kept
  · rw [ended]
    exact host
  · exact grown.here.trans (here.trans advanced.files.here)
  · rw [made, List.map_singleton, filed, ← last]
    exact laid₃
  · rw [which stray, advanced.files.here]

/-- The archive of native bitcode lies in the run directory itself. -/
theorem addNativeArchive_ok {library : String}
    (named : ∀ setup, job.setup = .ok setup → setup.NamesOutputs) (works : s.WorksIn directory)
    (at' : w.StagedAt s.files.here (spot s.files.here directory)) (laid : w.Laid s natives included)
    (notFlag : library ≠ "-o")
    (ran : job.addArchive w library (Text.baseName library ++ ".a") s = .ok u t) :
    s.Proceeds directory t ∧
      (s.archivesSince t).map (·.1) = [joinPaths directory (Text.baseName library ++ ".a")] ∧
      w.Laid t natives (included ++ (s.archivesSince t).map filed) := by
  obtain ⟨product, strays, proceeds, made, laid', -, which⟩ :=
    addArchive_ok named works at' laid notFlag ran
  have none : strays = [] := by
    refine List.eq_nil_iff_forall_not_mem.mpr fun stray member => ?_
    have place := ((which stray).mp member).1
    rw [spot_joinPaths_name _ _ (archiveName library)] at place
    have deep := at'.length_place
    have length := congrArg List.length place
    simp only [List.length_append, List.length_cons, List.length_nil, nativeSteps, targetSteps] at length
    omega
  rw [none, List.append_nil] at laid'
  exact ⟨proceeds, by rw [made, List.map_singleton], laid'⟩

theorem addNativeArchives_ok {libraries : List String}
    (named : ∀ setup, job.setup = .ok setup → setup.NamesOutputs) (works : s.WorksIn directory)
    (at' : w.StagedAt s.files.here (spot s.files.here directory)) (laid : w.Laid s natives included)
    (notFlags : "-o" ∉ libraries)
    (ran : libraries.forM (fun library => job.addArchive w library (Text.baseName library ++ ".a")) s =
      .ok u t) :
    s.Proceeds directory t ∧
      (s.archivesSince t).map (·.1) =
        libraries.map (fun library => joinPaths directory (Text.baseName library ++ ".a")) ∧
      w.Laid t natives (included ++ (s.archivesSince t).map filed) := by
  induction libraries generalizing s included with
  | nil =>
      obtain ⟨-, rfl⟩ := pure_eq_ok.mp ran
      have none := @Session.archivesSince_same s s rfl
      exact ⟨.refl works, by simp [none], by simpa [none] using laid⟩
  | cons library rest ih =>
      simp only [List.mem_cons, not_or] at notFlags
      obtain ⟨_, m, first, others⟩ := bind_eq_ok.mp ran
      obtain ⟨proceeds, made, laid₁⟩ :=
        addNativeArchive_ok named works at' laid (Ne.symm notFlags.1) first
      obtain ⟨proceeds', made', laid₂⟩ :=
        ih proceeds.works (proceeds.here ▸ at') laid₁ notFlags.2 others
      have all := Session.archivesSince_trans proceeds.host proceeds.started proceeds'.started
      refine ⟨proceeds.trans proceeds', ?_, ?_⟩
      · rw [all, List.map_append, made, made']
        rfl
      · rw [all, List.map_append, ← List.append_assoc]
        exact laid₂

theorem mainBitcode_notFlag (clean : w.staging.Clean) : w.mainBitcode.text ≠ "-o" := by
  have bitcode : IsName "program.bc" := by decide
  have above : w.programDirectory.Clean := Path.child_clean (targetDirectory_spot clean []).1 _
  have parts : w.mainBitcode.parts = w.programDirectory.parts ++ ["program.bc"] := by
    rw [mainBitcode, Path.child_name bitcode]
  have base : Text.baseName w.mainBitcode.text = "program.bc" :=
    Path.baseName_text (Path.child_clean above _) parts
  intro same
  rw [same] at base
  exact absurd base (by decide)

/-- A library as it is before it is published, in a run directory of its own. -/
structure Filled (job : Job) (s m : Session) (directory : String) (w : LibraryWriter)
    (natives included : List Bytes) (strays : List (String × Bytes)) : Prop where
  proceeds : s.Proceeds directory m
  begun : ∃ output, job.config.outputFile = .ok output ∧
    w.BegunAs output (joinPaths directory "library") job.config.target job.config.unpacked
  nativeTargets : w.nativeTargets = job.config.nativeLibraries.map nameOf
  staged : w.StagedAt s.files.here (spot s.files.here directory)
  nativeSources : Holding s.files job.config.nativeLibraries natives
  includedSources : Holding s.files job.config.includedBinaries included
  archives : (s.archivesSince m).map (·.1) =
    (job.config.nativeLibraries.map Text.baseName ++ [job.config.moduleName]).map
      fun stem => joinPaths directory (stem ++ ".a")
  laid : w.Laid m ((job.config.nativeLibraries.map nameOf).zip natives ++ strays)
    ((job.config.includedBinaries.map nameOf).zip included ++ (s.archivesSince m).map filed)
  few : strays.length ≤ 1
  stray : ∀ name content, (name, content) ∈ strays ↔
    spot s.files.here (joinPaths directory (job.config.moduleName ++ ".a")) =
        w.place s.files.here ++ w.nativeSteps ++ [name] ∧
      ((s.archivesSince m).map (·.2)).getLast? = some content

/-- All that is compiled for a library is filed in it when it is published. -/
theorem produceLibrary_ok
    (named : ∀ setup, job.setup = .ok setup → setup.NamesOutputs)
    (notFlags : "-o" ∉ job.config.nativeLibraries) (sound : s.files.Sound)
    (none : s.runDirectory = none)
    (outside : ∀ path ∈ job.config.nativeLibraries ++ job.config.includedBinaries,
      OutsideRuns s path)
    (ran : job.produceLibrary s = .ok result t) :
    ∃ number w natives included strays m published,
      job.Filled s m (RunDirectory.new s.host RunDirectory.buildStem number) w natives included strays ∧
      w.commit m = .ok published t ∧ result = some published.text := by
  obtain ⟨w, a, laying, rest⟩ := bind_eq_ok.mp ran
  obtain ⟨number, output, natives, included, found, begins, unarchived, begun, targets, at', first,
    second, laid⟩ := layOutLibrary_ok sound none outside laying
  obtain ⟨_, b, adding, rest⟩ := bind_eq_ok.mp rest
  obtain ⟨goesOn, paths, laid₁⟩ := addNativeArchives_ok named begins.works (begins.here ▸ at') laid
    notFlags adding
  obtain ⟨_, m, addingMain, rest⟩ := bind_eq_ok.mp rest
  have proceeds := begins.trans goesOn
  obtain ⟨product, strays, ends, made, laid₂, few, which⟩ := addArchive_ok named proceeds.works
    (proceeds.here ▸ at') laid₁ (mainBitcode_notFlag at'.clean) addingMain
  obtain ⟨published, c, committing, returned⟩ := bind_eq_ok.mp rest
  obtain ⟨rfl, rfl⟩ := pure_eq_ok.mp returned
  have all : s.archivesSince m = a.archivesSince b ++ b.archivesSince m := by
    rw [Session.archivesSince_trans proceeds.host proceeds.started ends.started,
      Session.archivesSince_trans begins.host begins.started goesOn.started, unarchived]
    rfl
  refine ⟨number, w, natives, included, strays, m, published,
    ⟨proceeds.trans ends, ⟨output, found, begun⟩, targets, at', first, second, ?_, ?_, few,
      fun name content => ?_⟩, committing, rfl⟩
  · rw [all, List.map_append, paths, made]
    simp [Function.comp_def]
  · rw [all, List.map_append, ← List.append_assoc]
    exact laid₂
  · rw [which, all, made, proceeds.here]
    simp [eq_comm]

end Job

end Foundry
