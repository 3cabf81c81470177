import Foundry.Proofs.Build.Cleanup
import Foundry.Proofs.Build.LibraryInputs
import Foundry.Proofs.Library.Drafting

/-! The build of a library up to its publication: it lays the library out in its run directory,
compiles there, and changes nothing else. -/
namespace Foundry

open FileSystem Run LibraryWriter

namespace Session

/-- Where a library that is called `name` is laid out: in a directory of the run directory, so that
all directories on the way to it are there already. -/
def LaysOut (origin : Session) (directory name : String) (place : Location) : Prop :=
  origin.files.entry? place = some .directory ∨
    place = spot origin.files.here directory ++ ["library"] ∨
      within (spot origin.files.here directory ++ ["library", name]) place = true

/-- A session of the build of a library that changes nothing outside of its run directory. -/
abbrev Drafts (origin : Session) (directory name : String) : Session → Prop :=
  origin.Confined (fun _ => False) (origin.LaysOut directory name) directory

/-- The directories on the way to the staging directory were there before, or are of the build. -/
theorem Confined.leads_staging {origin t : Session} {directory name : String}
    (drafts : origin.Drafts directory name t) :
    ∀ place, (Path.ofText (joinPaths directory "library")).Leads origin.files.here place →
      origin.LaysOut directory name place ∨ place = spot origin.files.here directory := by
  intro place leads
  have library : IsName "library" := by decide
  obtain ⟨above, last, found⟩ := drafts.named
  obtain ⟨-, -, proper, located⟩ := last_name found
  have nonempty : Text.baseName directory ≠ "" := (located rfl).2 ▸ proper.nonempty
  have stands : t.files.entry? (spot t.files.here directory) = some .directory :=
    drafts.here ▸ drafts.stands
  rw [← drafts.here] at leads
  rcases hasWay_joinPaths (stat_of_last found stands) nonempty library place leads with
    same | directory
  · rw [spot_joinPaths_name _ _ library, drafts.here] at same
    exact .inl (.inr (.inl same))
  · rcases drafts.files.made place directory with before | made
    · exact .inl (.inl before)
    · exact made

/-- Nothing is left of a draft once its run directory is gone. -/
theorem Confined.discarded {origin t : Session} {directory name : String}
    (drafts : origin.Drafts directory name t) :
    origin.Touched (fun _ => False) (fun _ => False) directory t where
  removable := drafts.removable
  free _ := drafts.free_inside
  files := by
    refine ⟨drafts.here, fun place outside => ?_⟩
    rcases drafts.files.changes.places place outside with same | ⟨made, free, stands⟩
    · exact .inl same
    · refine .inr ⟨made.imp_left ?_, free, stands⟩
      rintro (before | rfl | inside)
      · rw [before] at free
        contradiction
      · exact outside (.inr (within_append _ _))
      · exact outside (.inr (within_trans (within_append _ _) inside))

end Session

variable {origin s t : Session} {F D : Location → Prop} {directory name : String}

namespace LibraryWriter

variable {w : LibraryWriter}

theorem reporting_meets {P : Session → Prop} {path : Path} {reason : Refusal → String} {body : Run α}
    (kept : Meets (keeping P) body s) : Meets (keeping P) (reporting path reason body) s := by
  rw [Meets, after_reporting]
  exact kept

theorem writeFile_keeping {path : Path}
    (inside : within (spot origin.files.here directory) (spot origin.files.here path.text) = true)
    (content : Bytes) :
    Obeys (keeping (origin.Confined F D directory)) (w.writeFile path content) :=
  fun s => reporting_meets (write_keeping (.inr inside) content s)

theorem copyInto_keeping {path : Path} {first : String} {more : Location} (clean : path.Clean)
    (below : spot origin.files.here path.text = spot origin.files.here directory ++ first :: more)
    (source : String) :
    Obeys (keeping (origin.Confined F D directory)) (w.copyInto source path) := by
  have slashless := (Path.name_clean (Path.ofText_clean source)).1
  have inside := within_child clean below slashless
  have copying : Obeys (keeping (origin.Confined F D directory))
      (Files.copy source (.typed (path.child (Path.ofText source).name).text)) := by
    apply copy_keeping
    rw [FileName.plain]
    exact .inr inside
  exact fun s => reporting_meets (copying s)

section Layout
variable (at' : w.StagedAt origin.files.here (spot origin.files.here directory))
include at'

theorem addNatives_keeping (libraries : List String) :
    Obeys (keeping (origin.Confined F D directory)) (w.addNatives libraries) := by
  induction libraries generalizing w with
  | nil => exact obeys_pure w
  | cons library rest ih =>
      obtain ⟨clean, there⟩ := nativeDirectory_spot at'.clean origin.files.here
      obtain ⟨first, more, below⟩ := at'.place_below "targets" [w.target.name, "native"]
      have copying : Obeys (keeping (origin.Confined F D directory))
          (w.copyInto library w.nativeDirectory) := copyInto_keeping clean (there.trans below) library
      have adding : w.addNatives (library :: rest) = (w.copyInto library w.nativeDirectory >>= fun _ =>
          { w with nativeTargets := w.nativeTargets ++ [nameOf library] }.addNatives rest) := by
        simp only [addNatives, addNative, bind_assoc, pure_bind]
        rfl
      rw [adding]
      exact copying.bind fun _ => ih (at'.same rfl rfl)

theorem addIncluded_keeping (library : String) :
    Obeys (keeping (origin.Confined F D directory)) (w.addIncluded library) := by
  obtain ⟨clean, there⟩ := includedDirectory_spot at'.clean origin.files.here
  obtain ⟨first, more, below⟩ := at'.place_below "targets" [w.target.name, "included"]
  exact copyInto_keeping clean (there.trans below) library

/-- In an empty run directory, laying out makes directories of the layout and those on the way to it. -/
theorem layOut_keeping
    (staging : ∀ place, w.staging.Leads origin.files.here place →
      D place ∨ place = spot origin.files.here directory)
    (inside : ∀ rest, D (w.place origin.files.here ++ rest) ∨
      w.place origin.files.here ++ rest = spot origin.files.here directory)
    (same : s.files.here = origin.files.here)
    (vacant : s.files.Vacant (spot origin.files.here directory)) :
    Meets (keeping (origin.Confined F D directory)) w.layOut s := by
  have looking : Obeys bystanding (Files.lookStrictly w.root.text) :=
    (Files.lookStrictly_filesOnly _).bystanding (Files.lookStrictly_still _)
  refine (Obeys.keeping looking s).bind fun seen t looked => ?_
  obtain ⟨rfl, status, -⟩ := Files.lookStrictly_ok looked
  cases seen with
  | some entry => exact (root_unseen (same ▸ at') vacant (status entry rfl)).elim
  | none =>
      have making : Obeys (keeping (origin.Confined F D directory))
          ([w.linkData, w.programDirectory, w.nativeDirectory, w.includedDirectory].forM
            Files.makeDirectories) :=
        obeys_forM fun path member => makeDirectories_keeping fun place =>
          leads_layout at'.clean at'.slashless at'.notSelf staging inside path member place
      exact making t

end Layout

/-- A library whose layout is still to be made, in a staging directory that is given. -/
def blank (output name : String) (target : Target) (abiVersion : Int) (unpacked : Bool)
    (directory : String) : LibraryWriter where
  output := .ofText (Text.dropTail output librarySuffix)
  name := name
  target := target
  abiVersion := abiVersion
  unpacked := unpacked
  ownsStaging := false
  staging := .ofText directory

/-- Adding native bitcode adds its names to the manifest. -/
theorem addNatives_names {libraries : List String} (ran : w.addNatives libraries s = .ok w' t) :
    ∃ nativeTargets, w' = { w with nativeTargets } := by
  induction libraries generalizing w s with
  | nil =>
      obtain ⟨rfl, -⟩ := pure_eq_ok.mp ran
      exact ⟨w.nativeTargets, rfl⟩
  | cons library rest ih =>
      obtain ⟨w₁, u, first, others⟩ := bind_eq_ok.mp ran
      obtain ⟨_, v, -, given⟩ := bind_eq_ok.mp first
      obtain ⟨rfl, -⟩ := pure_eq_ok.mp given
      obtain ⟨nativeTargets, rfl⟩ := ih others
      exact ⟨nativeTargets, rfl⟩

theorem addGivenManifest_bystanding (file : Option String) :
    Obeys Run.bystanding (w.addGivenManifest file) := by
  unfold addGivenManifest
  split
  · exact obeys_pure _
  · exact obeys_pure _
  · rename_i file _
    have asking : Obeys Run.bystanding (Files.read file) :=
      (Files.ask_filesOnly _ _).bystanding (Files.ask_still _ _)
    refine Obeys.bind ?_ fun content => ?_
    · apply Obeys.tryCatch asking
      intro e s t failed
      have ended := (asking s).of_error failed
      split
      · exact ended
      · exact ended
    · split
      · exact obeys_pure _
      · exact throw_bystanding _
      · exact throw_bystanding _

section Parts
variable {output moduleName staging : String} {target : Target} {abiVersion : Int} {unpacked : Bool}
  {parts : Parts}

/-- The parts of a library are added to its layout one after another. -/
theorem build_given (given : staging ≠ "") :
    build output moduleName target abiVersion unpacked (some staging) parts = (do
      let w := blank output moduleName target abiVersion unpacked staging
      reporting w.root Refusal.reason w.layOut
      w.writeModule parts.module
      w.addLinkData parts.linkData
      let w ← w.addNatives parts.natives
      parts.included.forM w.addIncluded
      let w ← (w.addDepends parts.needed).addGivenManifest parts.manifestFile
      parts.escapeAnalysis.forM w.addEscapeAnalysis
      parts.dataFlowGraph.forM w.addDataFlowGraph
      pure w) := by
  simp only [build, start, stagingDirectory_given given, pure_bind, bind_assoc]
  rfl

theorem build_begun (given : staging ≠ "")
    (ran : build output moduleName target abiVersion unpacked (some staging) parts s = .ok w t) :
    w.BegunAs output staging target unpacked := by
  rw [build_given given] at ran
  obtain ⟨_, a, -, rest₀⟩ := bind_eq_ok.mp ran
  obtain ⟨_, b, -, rest₁⟩ := bind_eq_ok.mp rest₀
  obtain ⟨_, c, -, rest₂⟩ := bind_eq_ok.mp rest₁
  obtain ⟨w₁, d, adding, rest₃⟩ := bind_eq_ok.mp rest₂
  obtain ⟨_, e, -, rest₄⟩ := bind_eq_ok.mp rest₃
  obtain ⟨w₂, f, reading, rest₅⟩ := bind_eq_ok.mp rest₄
  obtain ⟨_, g, -, rest₆⟩ := bind_eq_ok.mp rest₅
  obtain ⟨_, h, -, rest₇⟩ := bind_eq_ok.mp rest₆
  obtain ⟨rfl, -⟩ := pure_eq_ok.mp rest₇
  obtain ⟨nativeTargets, rfl⟩ := addNatives_names adding
  obtain ⟨⟨properties, rfl⟩, -⟩ := addGivenManifest_ok reading
  exact ⟨rfl, rfl, rfl, rfl, rfl⟩

theorem writeOptional_keeping {path : Path} {content : Option Bytes}
    (inside : within (spot origin.files.here directory) (spot origin.files.here path.text) = true) :
    Obeys (keeping (origin.Confined F D directory)) (content.forM (w.writeFile path)) := by
  cases content with
  | none => exact obeys_pure _
  | some content => exact writeFile_keeping inside content

/-- In an empty run directory, a library is laid out with its parts, and nothing else changes. -/
theorem build_keeping (given : staging ≠ "")
    (made : w = blank output moduleName target abiVersion unpacked staging)
    (at' : w.StagedAt origin.files.here (spot origin.files.here directory))
    (leads : ∀ place, w.staging.Leads origin.files.here place →
      D place ∨ place = spot origin.files.here directory)
    (layout : ∀ rest, D (w.place origin.files.here ++ rest) ∨
      w.place origin.files.here ++ rest = spot origin.files.here directory)
    (same : s.files.here = origin.files.here)
    (vacant : s.files.Vacant (spot origin.files.here directory)) (parts : Parts) :
    Meets (keeping (origin.Confined F D directory))
      (build output moduleName target abiVersion unpacked (some staging) parts) s := by
  rw [build_given given, ← made]
  have inside {path : Path} {rest : Location} (there : spot origin.files.here path.text =
      w.place origin.files.here ++ rest) :
      within (spot origin.files.here directory) (spot origin.files.here path.text) = true := by
    rw [there]
    exact at'.within_place rest
  have linkData {name : String} (proper : IsName name) := inside (linkData_spot at'.clean proper)
  have laying := layOut_keeping (F := F) at' leads layout same vacant
  refine (reporting_meets laying).bind fun _ t _ => Obeys.bind ?_ (fun _ => ?_) t
  · exact writeFile_keeping (inside (mainBitcode_spot at'.clean)) _
  refine (writeFile_keeping (linkData (by decide)) _).bind fun _ t => ?_
  refine (addNatives_keeping at' parts.natives t).bind fun w' u added => ?_
  obtain ⟨nativeTargets, rfl⟩ := addNatives_names added
  refine (obeys_forM fun library _ => addIncluded_keeping (at'.same rfl rfl) library).bind
    (fun _ v => ?_) u
  refine (Obeys.keeping (addGivenManifest_bystanding _) v).bind fun w'' x reading => ?_
  obtain ⟨⟨properties, rfl⟩, -⟩ := addGivenManifest_ok reading
  refine ((writeOptional_keeping (linkData (by decide))).bind fun _ => ?_) x
  exact (writeOptional_keeping (linkData (by decide))).bind fun _ => obeys_pure _

end Parts

end LibraryWriter

namespace Job

variable {job : Job} {w : LibraryWriter}

/-- The place of the library that a build makes, without the suffix of packed ones. -/
def libraryPath (job : Job) : Path := .ofText (Text.dropTail job.config.outputName librarySuffix)

/-- What the library is called. -/
def libraryName (job : Job) : String := job.libraryPath.name

/-- A library that a build lays out in its run directory. -/
abbrev Lays (job : Job) (directory : String) (w : LibraryWriter) : Prop :=
  w.BegunAs job.config.outputName (joinPaths directory "library") job.config.target
    job.config.unpacked

theorem Lays.clean (lays : job.Lays directory w) : w.Clean :=
  ⟨lays.staging ▸ Path.ofText_clean _, lays.output ▸ Path.ofText_clean _⟩

theorem layOutLibrary_eq (library : job.config.produce = .kind .library) (s : Session) :
    ∃ parts, job.layOutLibrary s =
      (RunDirectory.named RunDirectory.buildStem "library" >>= fun staging =>
        build job.config.outputName job.config.moduleName job.config.target job.config.abiVersion
          job.config.unpacked (some staging) parts) s := by
  simp only [layOutLibrary, outputFile_library library]
  exact ⟨_, rfl⟩

/-- A build of a library whose tools write what the build names for them. -/
structure CompilesLibrary (job : Job) (s : Session) : Prop where
  ready : s.Ready
  library : job.config.produce = .kind .library
  notFlags : "-o" ∉ job.config.nativeLibraries
  named : ∀ setup, job.setup = .ok setup → setup.NamesOutputs

/-- Wherever its run directory is, the build may make the directories in which it lays out the library,
and those on the way. -/
def LaysIn (job : Job) (origin : Session) (F D : String → Location → Prop) : Prop :=
  ∀ directory t, origin.Confined (F directory) (D directory) directory t →
    (∀ place, (Path.ofText (joinPaths directory "library")).Leads origin.files.here place →
      D directory place ∨ place = spot origin.files.here directory) ∧
    ∀ w, job.Lays directory w → ∀ rest, D directory (w.place origin.files.here ++ rest) ∨
      w.place origin.files.here ++ rest = spot origin.files.here directory

/-- Laying out a library changes its run directory alone, whether it succeeds or not. -/
theorem layOutLibrary_confined {F D : String → Location → Prop} (ready : origin.Ready)
    (library : job.config.produce = .kind .library) (laysIn : job.LaysIn origin F D) :
    (∀ w t, job.layOutLibrary origin = .ok w t → ∃ directory, job.Lays directory w ∧
      origin.Confined (F directory) (D directory) directory t) ∧
    ∀ e t, job.layOutLibrary origin = .error e t → origin.Begun F D t := by
  obtain ⟨parts, whole⟩ := layOutLibrary_eq library origin
  rw [whole]
  cases named : RunDirectory.named RunDirectory.buildStem "library" origin with
  | error e t =>
      constructor
      · intro w u ran
        obtain ⟨_, _, ok, -⟩ := bind_eq_ok.mp ran
        rw [named] at ok
        contradiction
      · intro e' u failed
        rw [bind_eq_error.mpr (.inl named)] at failed
        cases failed
        exact RunDirectory.named_failed ready.begun named
  | ok staging t =>
      obtain ⟨directory, u, ran, given⟩ := bind_eq_ok.mp named
      obtain ⟨rfl, rfl⟩ := pure_eq_ok.mp given
      have confined : origin.Confined (F directory) (D directory) directory u :=
        RunDirectory.path_confined ready ready.begun ran
      have vacant := RunDirectory.path_vacant ready.sound ready.runDirectory ran
      have begun : job.Lays directory
        (blank job.config.outputName job.config.moduleName job.config.target job.config.abiVersion
          job.config.unpacked (joinPaths directory "library")) := ⟨rfl, rfl, rfl, rfl, rfl⟩
      obtain ⟨leads, layout⟩ := laysIn directory u confined
      have keeping := build_keeping (F := F directory) (joinPaths_nonempty _) rfl (begun.stagedAt _)
        leads (layout _ begun) confined.here vacant parts
      constructor
      · intro w' v ran
        obtain ⟨_, _, ok, building⟩ := bind_eq_ok.mp ran
        rw [named] at ok
        cases ok
        exact ⟨directory, build_begun (joinPaths_nonempty _) building, keeping.of_ok building confined⟩
      · intro e v failed
        rcases bind_eq_error.mp failed with failed | ⟨_, _, ok, building⟩
        · rw [named] at failed
          contradiction
        · rw [named] at ok
          cases ok
          exact .working _ (keeping.of_error building confined)

theorem addArchive_keeping {bitcode stem : String}
    (named : ∀ setup, job.setup = .ok setup → setup.NamesOutputs) (lays : job.Lays directory w)
    (notFlag : bitcode ≠ "-o")
    (allowed : origin.Permits F directory (joinPaths directory (stem ++ ".a"))) :
    Obeys (keeping (origin.Confined F D directory)) (job.addArchive w bitcode (stem ++ ".a")) := by
  refine ofExcept_keeping fun setup made => ?_
  have notFlags : "-o" ∉ [bitcode] := by simpa using Ne.symm notFlag
  have archiving : Obeys (keeping (origin.Confined F D directory))
      (setup.staticLibrary [bitcode] (some (stem ++ ".a"))) :=
    Setup.staticLibrary_keeping (named setup made) notFlags (by simp)
      (archiveName_notFlag directory stem) allowed
  exact archiving.bind fun archive => addIncluded_keeping (lays.stagedAt _) archive

/-- A name leads directly into the run directory. -/
theorem permits_name (proper : IsName name) : origin.Permits F directory (joinPaths directory name) :=
  .inr ⟨name, spot_joinPaths_name _ _ proper⟩

/-- Lay out a library and add its archives. -/
def draftLibrary (job : Job) : Run LibraryWriter := do
  let library ← job.layOutLibrary
  job.config.nativeLibraries.forM fun native =>
    job.addArchive library native (Text.baseName native ++ ".a")
  job.addArchive library library.mainBitcode.text (job.config.moduleName ++ ".a")
  pure library

theorem produceLibrary_eq (job : Job) : job.produceLibrary = (do
    let library ← job.draftLibrary
    return some (← library.commit).text) := by
  simp only [produceLibrary, draftLibrary, bind_assoc, pure_bind]

/-- Up to its publication, a library changes the run directory alone, if the archive of the module is
made where the build may write. -/
theorem draftLibrary_confined {F D : String → Location → Prop} (compiles : job.CompilesLibrary origin)
    (laysIn : job.LaysIn origin F D) (module : ∀ directory,
      origin.Permits (F directory) directory (joinPaths directory (job.config.moduleName ++ ".a"))) :
    (∀ w t, job.draftLibrary origin = .ok w t → ∃ directory, job.Lays directory w ∧
      origin.Confined (F directory) (D directory) directory t) ∧
    ∀ e t, job.draftLibrary origin = .error e t → origin.Begun F D t := by
  obtain ⟨laid, failed⟩ := layOutLibrary_confined compiles.ready compiles.library laysIn
  have adding {directory : String} {w : LibraryWriter} (lays : job.Lays directory w) :
      Obeys (keeping (origin.Confined (F directory) (D directory) directory)) (do
        job.config.nativeLibraries.forM fun native =>
          job.addArchive w native (Text.baseName native ++ ".a")
        job.addArchive w w.mainBitcode.text (job.config.moduleName ++ ".a")
        pure w) := by
    refine (obeys_forM fun native member => ?_).bind fun _ => ?_
    · have notFlag : native ≠ "-o" := fun same => compiles.notFlags (same ▸ member)
      exact addArchive_keeping compiles.named lays notFlag (permits_name (archiveName native))
    · have notFlag := mainBitcode_notFlag (lays.stagedAt []).clean
      exact (addArchive_keeping compiles.named lays notFlag (module directory)).bind fun _ => obeys_pure w
  constructor
  · intro w t ran
    obtain ⟨w', u, laying, rest⟩ := bind_eq_ok.mp ran
    obtain ⟨directory, lays, confined⟩ := laid w' u laying
    have kept := (adding lays u).of_ok rest confined
    obtain ⟨_, _, -, rest⟩ := bind_eq_ok.mp rest
    obtain ⟨_, _, -, given⟩ := bind_eq_ok.mp rest
    obtain ⟨rfl, -⟩ := pure_eq_ok.mp given
    exact ⟨directory, lays, kept⟩
  · intro e t ran
    rcases bind_eq_error.mp ran with ran | ⟨w', u, laying, rest⟩
    · exact failed e t ran
    · obtain ⟨directory, lays, confined⟩ := laid w' u laying
      exact .working _ ((adding lays u).of_error rest confined)

/-- A build of a library with a name of its own, whose tools write what the build names for them. -/
structure DraftsLibrary (job : Job) (s : Session) : Prop where
  ready : s.Ready
  library : job.config.produce = .kind .library
  proper : IsName job.libraryName
  plain : '/' ∉ job.config.moduleName.toList
  notFlags : "-o" ∉ job.config.nativeLibraries
  named : ∀ setup, job.setup = .ok setup → setup.NamesOutputs

/-- A module with a plain name has a plain archive. -/
theorem isName_moduleArchive (plain : '/' ∉ job.config.moduleName.toList) :
    IsName (job.config.moduleName ++ ".a") := by
  simpa [Text.baseName_of_not_mem plain] using archiveName job.config.moduleName

/-- A library with a name of its own is laid out in a directory of the run directory. -/
theorem laysIn_name (proper : IsName job.libraryName) :
    job.LaysIn origin (fun _ _ => False) fun directory => origin.LaysOut directory job.libraryName := by
  refine fun directory t drafts => ⟨drafts.leads_staging, fun w lays rest => ?_⟩
  have name : w.output.name = job.libraryName := by
    rw [lays.output]
    rfl
  rw [(lays.stagedAt _).place_of_name (name ▸ proper), name]
  exact .inl (.inr (.inr (within_append _ _)))

/-- Up to its publication, a library with a name of its own leaves nothing outside of the run
directory. -/
theorem draftLibrary_drafts (drafts : job.DraftsLibrary origin) :
    (∀ w t, job.draftLibrary origin = .ok w t → ∃ directory, job.Lays directory w ∧
      origin.Drafts directory job.libraryName t) ∧
    ∀ e t, job.draftLibrary origin = .error e t →
      origin.Ended (fun _ => False) (fun _ => False) t := by
  have compiles : job.CompilesLibrary origin :=
    ⟨drafts.ready, drafts.library, drafts.notFlags, drafts.named⟩
  obtain ⟨drafted, failed⟩ := draftLibrary_confined compiles (laysIn_name drafts.proper)
    fun _ => permits_name (isName_moduleArchive drafts.plain)
  refine ⟨drafted, fun e t ran => ?_⟩
  cases failed e t ran with
  | untouched files _ none _ => exact .untouched files none
  | working directory drafts => exact .touched _ drafts.discarded

end Job

end Foundry
