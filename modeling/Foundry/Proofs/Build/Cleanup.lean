import Foundry.Proofs.Build.Confinement

/-! How a build comes to its run directory and leaves it. The directory is made where nothing was, and
when it is removed only the places outside it that the build may change differ from before. -/
namespace Foundry

open FileSystem Run

variable {origin s t : Session} {F A D : Location → Prop} {directory : String}

namespace Session

/-- A session in which a build can begin. -/
structure Ready (s : Session) : Prop where
  sound : s.files.Sound
  runDirectory : s.runDirectory = none

/-- A session of a build that began at `origin`, whether it has come to its run directory or not. Where
it may change something can hang on that directory. -/
inductive Begun (origin : Session) (F D : String → Location → Prop) (t : Session) : Prop where
  | untouched : t.files = origin.files → t.host = origin.host → t.runDirectory = none →
      t.started = origin.started → Begun origin F D t
  | working (directory : String) :
      origin.Confined (F directory) (D directory) directory t → Begun origin F D t

/-- A session after a build that began at `origin`. -/
structure Cleared (origin : Session) (F D : Location → Prop) (t : Session) : Prop where
  runDirectory : t.runDirectory = none
  files : origin.files.Changes F D t.files

/-- The path of the run directory still leads to it. -/
structure Removable (directory : String) (t : Session) : Prop where
  runDirectory : t.runDirectory = some directory
  stands : t.files.entry? (spot t.files.here directory) = some .directory
  named : ∃ above name, t.files.last directory = .ok (.name above name false)
  straight : passesBelow (spot t.files.here directory) (startOf t.files.here directory)
    (Text.split '/' directory) = false
  whole : Files.holdsZero directory = false

/-- A session of a build that began at `origin` and may leave its run directory, whatever it did there:
elsewhere it has changed places of `A` and made directories in places of `D`. -/
structure Touched (origin : Session) (A D : Location → Prop) (directory : String) (t : Session) :
    Prop where
  removable : t.Removable directory
  free : ∀ place, within (spot origin.files.here directory) place = true →
    origin.files.entry? place = none
  files : origin.files.Changes
    (fun place => A place ∨ within (spot origin.files.here directory) place = true)
    (fun place => D place ∨ place = spot origin.files.here directory) t.files

/-- A session in which the work of a build is over, whether it had a run directory or not. -/
inductive Ended (origin : Session) (A D : Location → Prop) (t : Session) : Prop where
  | untouched : t.files = origin.files → t.runDirectory = none → Ended origin A D t
  | touched (directory : String) : origin.Touched A D directory t → Ended origin A D t

theorem Confined.removable (confined : origin.Confined F D directory s) : s.Removable directory where
  runDirectory := confined.runDirectory
  stands := confined.here ▸ confined.stands
  named := confined.named
  straight := confined.here ▸ confined.straight
  whole := confined.whole

theorem Ready.begun {F D : String → Location → Prop} (ready : origin.Ready) :
    origin.Begun F D origin :=
  .untouched rfl rfl ready.runDirectory rfl

/-- Nothing that was before the build is in its run directory. -/
theorem Confined.free_inside (confined : origin.Confined F D directory s)
    (inside : within (spot origin.files.here directory) place = true) :
    origin.files.entry? place = none := by
  obtain ⟨rest, rfl⟩ := within_iff.mp inside
  cases rest with
  | nil => simpa using confined.free
  | cons step rest =>
      have free : origin.files.entry? (spot origin.files.here directory) ≠ some .directory := by
        rw [confined.free]
        simp
      exact confined.sound.free_below free (List.cons_ne_nil step rest)

/-- The run directory can still be removed where it is still a directory with all those above it. -/
theorem Removable.kept (removable : s.Removable directory) (descends : ".." ∉ Text.split '/' directory)
    (kept : t.runDirectory = s.runDirectory) (here : t.files.here = s.files.here)
    (above : ∀ place, place <+: spot s.files.here directory → s.files.entry? place = some .directory →
      t.files.entry? place = some .directory) : t.Removable directory where
  runDirectory := kept.trans removable.runDirectory
  stands := by
    rw [here]
    exact above _ (List.prefix_refl _) removable.stands
  named := by
    obtain ⟨above', name, found⟩ := removable.named
    exact ⟨above', name, last_stays here (.of_above descends above) found⟩
  straight := here ▸ removable.straight
  whole := removable.whole

/-- The run directory can still be removed after changes that are neither above it nor at it. -/
theorem Removable.stays (removable : s.Removable directory) (descends : ".." ∉ Text.split '/' directory)
    (kept : t.runDirectory = s.runDirectory) (changed : s.files.Changes A D t.files)
    (outside : ∀ place, place <+: spot s.files.here directory → ¬ A place) : t.Removable directory :=
  removable.kept descends kept changed.here fun place onWay => changed.directory (outside place onWay)

theorem Touched.mono {A' D' : Location → Prop} (wider : ∀ place, A place → A' place)
    (wider' : ∀ place, D place → D' place) (touched : origin.Touched A D directory s) :
    origin.Touched A' D' directory s where
  removable := touched.removable
  free := touched.free
  files := touched.files.mono (fun place => Or.imp_left (wider place))
    fun place => Or.imp_left (wider' place)

theorem Touched.weaken (touched : origin.Touched (fun _ => False) (fun _ => False) directory s) :
    origin.Touched A D directory s :=
  touched.mono (fun _ => False.elim) fun _ => False.elim

/-- Going on with such changes, but neither above the run directory nor at it. -/
theorem Touched.step {A' : Location → Prop} (touched : origin.Touched A D directory s)
    (descends : ".." ∉ Text.split '/' directory) (kept : t.runDirectory = s.runDirectory)
    (changed : s.files.Changes A' D t.files)
    (inside : ∀ place, A' place → A place ∨ within (spot origin.files.here directory) place = true)
    (outside : ∀ place, place <+: spot origin.files.here directory → ¬ A' place) :
    origin.Touched A D directory t where
  removable := touched.removable.stays descends kept changed (touched.files.here ▸ outside)
  free := touched.free
  files := touched.files.trans (changed.mono inside fun _ => .inl)

theorem Confined.touched (confined : origin.Confined F D directory s) :
    origin.Touched F D directory s :=
  ⟨confined.removable, fun _ => confined.free_inside, confined.files.changes⟩

theorem Ended.mono {A' D' : Location → Prop} (wider : ∀ place, A place → A' place)
    (wider' : ∀ place, D place → D' place) (ended : origin.Ended A D s) : origin.Ended A' D' s := by
  cases ended with
  | untouched files none => exact .untouched files none
  | touched directory touched => exact .touched directory (touched.mono wider wider')

theorem Begun.ended (begun : origin.Begun (fun _ => F) (fun _ => D) s) : origin.Ended F D s := by
  cases begun with
  | untouched files host none started => exact .untouched files none
  | working directory confined => exact .touched directory confined.touched

end Session

namespace RunDirectory

/-- The run directory is removed with everything in it. -/
theorem remove_of_removable (removable : s.Removable directory) :
    remove s = .ok () { s with
      files := s.files.withoutTree (spot s.files.here directory), runDirectory := none } := by
  obtain ⟨above, name, found⟩ := removable.named
  have removed := removeTree_of_straight found removable.stands removable.straight
  simp [remove, Files.discardTree, Files.replace, bind, EStateM.bind, removable.runDirectory,
    removable.whole, removed]

theorem remove_of_none (none : s.runDirectory = none) : remove s = .ok () s := by
  simp [remove, bind, EStateM.bind, none, pure, EStateM.pure]

theorem remove_touched (touched : origin.Touched A D directory s) :
    ∃ t, remove s = .ok () t ∧ origin.Cleared A D t ∧
      ∀ rest, t.files.entry? (spot origin.files.here directory ++ rest) = none := by
  have removed := remove_of_removable touched.removable
  rw [touched.files.here] at removed
  have below : spot origin.files.here directory ≠ [] := by
    intro root
    have free := touched.free [] (root ▸ within_self _)
    simp at free
  have left := entry?_withoutTree_below s.files below
  refine ⟨_, removed, ⟨rfl, ⟨touched.files.here, fun place unwritten => ?_⟩⟩, fun rest => ?_⟩
  · by_cases inside : within (spot origin.files.here directory) place = true
    · have gone := left place
      rw [if_pos inside] at gone
      exact .inl (gone.trans (touched.free place inside).symm)
    · have kept := left place
      rw [if_neg inside] at kept
      have outside : ¬ (A place ∨ within (spot origin.files.here directory) place = true) := by
        rintro (written | below)
        · exact unwritten written
        · exact inside below
      rcases touched.files.places place outside with same | ⟨made | top, free, taken⟩
      · exact .inl (kept.trans same)
      · exact .inr ⟨made, free, kept.trans taken⟩
      · rw [top] at inside
        simp at inside
  · have gone := left (spot origin.files.here directory ++ rest)
    rwa [if_pos (within_append _ _)] at gone

/-- When a build is over, its run directory is gone, and only what it may change has changed. -/
theorem remove_ended (ended : origin.Ended A D s) :
    ∃ t, remove s = .ok () t ∧ origin.Cleared A D t ∧
      ∀ directory, s.runDirectory = some directory →
        ∀ rest, t.files.entry? (spot origin.files.here directory ++ rest) = none := by
  cases ended with
  | untouched files none =>
      refine ⟨s, remove_of_none none, ⟨none, files ▸ .refl _⟩, fun directory there => ?_⟩
      rw [none] at there
      contradiction
  | touched directory touched =>
      obtain ⟨t, removed, cleared, gone⟩ := remove_touched touched
      refine ⟨t, removed, cleared, fun directory' there => ?_⟩
      rw [touched.removable.runDirectory] at there
      exact Option.some.inj there ▸ gone

/-- If no run directory can be made, nothing is. -/
theorem path_failed (failed : path stem s = .error e t) :
    s.runDirectory = none ∧ t = { s with draws := t.draws } ∧ s.draws ≤ t.draws := by
  rcases Option.eq_none_or_eq_some s.runDirectory with there | ⟨directory, there⟩
  case inr =>
      rw [path_of_some there] at failed
      contradiction
  case inl =>
      have making : Files.makeTemporaryDirectory (stem ++ "-") s = .error e t := by
        simp only [path, bind, EStateM.bind, get_apply, there] at failed
        split at failed
        · cases failed
        · rename_i making
          rw [← failed]
          exact making
      have same := (((Files.makeTemporaryDirectory_filesOnly _).obeys s).of_error making).1
      have still := Files.makeTemporaryDirectory_failed making
      have counted := (Files.makeDrawn_counting _ _ _ s).of_error making
      rw [still] at same
      exact ⟨there, same, counted⟩

/-- A run directory that was just made can be removed again. -/
theorem path_removable (sound : s.files.Sound) (none : s.runDirectory = none)
    (ran : path stem s = .ok directory t) : t.Removable directory := by
  obtain ⟨number, fs, draws, rfl, whole, done, rfl⟩ := path_new none ran
  have open' := baseName_new_nonempty s.host stem number
  obtain ⟨above, name, found⟩ := last_of_makeDirectory done open'
  have grown : s.files.Extends (fun _ => False) fs := makeDirectory_extends done
  obtain ⟨standing, free, rfl⟩ := makeDirectory_ok done
  have straight := straight_of_free sound found free
  exact {
    runDirectory := rfl
    stands := entry?_put_self _ standing.below _
    named := ⟨above, name, last_stays grown.here (.of_directories fun _ => grown.directory) found⟩
    straight := straight
    whole := whole }

section Beginning
variable {F D : String → Location → Prop}

/-- The run directory is there from the moment at which a build asks for it. -/
theorem path_confined (ready : origin.Ready) (begun : origin.Begun F D s)
    (ran : path buildStem s = .ok directory t) :
    origin.Confined (F directory) (D directory) directory t := by
  cases begun with
  | working directory' confined =>
      obtain ⟨rfl, rfl⟩ := path_ok confined.runDirectory ran
      exact confined
  | untouched files host none started =>
      have removable := path_removable (files ▸ ready.sound) none ran
      obtain ⟨number, fs, draws, rfl, -, done, rfl⟩ := path_new none ran
      have grown : s.files.Grows
          (fun place => F (new s.host buildStem number) place ∨
            within (spot origin.files.here (new s.host buildStem number)) place = true)
          (fun place => D (new s.host buildStem number) place ∨ place = spot origin.files.here (new s.host buildStem number)) fs :=
        makeDirectory_grows done (.inr (files ▸ rfl))
      obtain ⟨-, free, -⟩ := makeDirectory_ok done
      rw [files] at free grown
      exact {
        sound := ready.sound
        runDirectory := rfl
        drawn := ⟨number, by rw [host]⟩
        host := host
        starts := ⟨[], by simpa using started, fun _ none => absurd none List.not_mem_nil⟩
        free := free
        files := grown
        stands := grown.here ▸ removable.stands
        named := removable.named
        straight := grown.here ▸ removable.straight
        whole := removable.whole }

/-- A build that cannot come to a run directory has done nothing. -/
theorem named_failed (begun : origin.Begun F D s) (failed : named buildStem name s = .error e t) :
    origin.Begun F D t := by
  have ran : path buildStem s = .error e t := by
    rcases bind_eq_error.mp failed with failed | ⟨_, _, _, given⟩
    · exact failed
    · cases given
  obtain ⟨none, same, -⟩ := path_failed ran
  rw [same]
  cases begun with
  | working directory confined =>
      rw [confined.runDirectory] at none
      contradiction
  | untouched files host none' started => exact .untouched files host none' started

end Beginning

end RunDirectory

namespace Run

variable {F D : String → Location → Prop}

/-- Runs that change neither the files nor what the run directory is. -/
theorem begun_of_bystanding {run : Run α} (kept : Obeys bystanding run) :
    Obeys (keeping (origin.Begun F D)) run := by
  intro s begun
  obtain ⟨files, host, runDirectory, started⟩ := kept s
  cases begun with
  | untouched files' host' none started' =>
      exact .untouched (files.trans files') (host.trans host') (runDirectory.trans none)
        (started.trans started')
  | working directory confined =>
      exact .working _ (confined.bystander files host runDirectory started)

/-- Going on from a path in the run directory with something that keeps the build confined. -/
theorem named_begun {next : String → Run α} (ready : origin.Ready) (proper : IsName name)
    (rest : ∀ directory path, spot origin.files.here path = spot origin.files.here directory ++ [name] →
      Obeys (keeping (origin.Confined (F directory) (D directory) directory)) (next path)) :
    Obeys (keeping (origin.Begun F D)) (RunDirectory.named RunDirectory.buildStem name >>= next) := by
  intro s begun
  cases named : RunDirectory.named RunDirectory.buildStem name s with
  | error e t =>
      have failed : (RunDirectory.named RunDirectory.buildStem name >>= next) s = .error e t :=
        bind_eq_error.mpr (.inl named)
      rw [after_of_error failed]
      exact RunDirectory.named_failed begun named
  | ok path t =>
      rw [after_bind_of_ok named]
      obtain ⟨directory, u, ran, given⟩ := bind_eq_ok.mp named
      obtain ⟨rfl, rfl⟩ := pure_eq_ok.mp given
      have confined := RunDirectory.path_confined ready begun ran
      exact .working directory (rest directory _ (spot_joinPaths_name _ _ proper) u confined)

end Run

end Foundry
