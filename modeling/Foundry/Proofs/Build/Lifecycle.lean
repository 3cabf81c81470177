import Foundry.Proofs.Build.RunDirectory
import Foundry.Proofs.Build.Succession

/-! The run directory over its whole life: whatever is asked of it, one call after another, at most one run
directory is there, fresh files get paths that were never given before and stay in it until it is cleaned up,
and then nothing is left that a path was given for. -/
namespace Foundry.RunDirectory

open FileSystem Run

/-- What can be asked of the run directory: its path, the path of a fresh or of a named file in it, and that
everything in it is cleaned up, which is also what happens where its scope ends. -/
inductive Call where
  | directory
  | create (name suffix : String)
  | named (name : String)
  | cleanup
deriving DecidableEq, Repr

namespace Call

/-- No slash is in a name or a suffix. -/
def Proper : Call → Prop
  | .create name suffix => '/' ∉ name.toList ∧ '/' ∉ suffix.toList
  | .named name => '/' ∉ name.toList
  | .directory | .cleanup => True

instance : DecidablePred Proper
  | .create name suffix => inferInstanceAs (Decidable ('/' ∉ name.toList ∧ '/' ∉ suffix.toList))
  | .named name => inferInstanceAs (Decidable ('/' ∉ name.toList))
  | .directory | .cleanup => isTrue trivial

/-- Carry out a call; all but cleaning up give a path. -/
def run (stem : String) : Call → Run (Option String)
  | .directory => some <$> path stem
  | .create name suffix => some <$> RunDirectory.create stem name suffix
  | .named name => some <$> RunDirectory.named stem name
  | .cleanup => do
    remove
    pure none

end Call

/-- A call with the path that it gave, if it did, and the run directory after it. -/
structure Event where
  call : Call
  answer : Option String
  directory : Option String
deriving DecidableEq, Repr

/-- The path of the fresh file that was made. -/
def Event.file? (event : Event) : Option String :=
  match event.call with
  | .create .. => event.answer
  | _ => none

def Call.event (stem : String) (call : Call) (s : Session) : Event where
  call := call
  answer := match call.run stem s with
    | .ok answer _ => answer
    | .error .. => none
  directory := ((call.run stem).after s).runDirectory

/-- The session after calls, of which some may fail. -/
def after (stem : String) (calls : List Call) (s : Session) : Session :=
  calls.foldl (fun s call => (call.run stem).after s) s

/-- What comes of calls, first one first. -/
def history (stem : String) : List Call → Session → List Event
  | [], _ => []
  | call :: rest, s => call.event stem s :: history stem rest ((call.run stem).after s)

/-- The run directories that there were. -/
def directories (past : List Event) : List String := past.filterMap (·.directory)

/-- The paths that were given. -/
def answers (past : List Event) : List String := past.filterMap (·.answer)

/-- The fresh files that were made. -/
def files (past : List Event) : List String := past.filterMap Event.file?

theorem after_append (stem : String) (first second : List Call) (s : Session) :
    after stem (first ++ second) s = after stem second (after stem first s) :=
  List.foldl_append

theorem history_append (stem : String) (first second : List Call) (s : Session) :
    history stem (first ++ second) s = history stem first s ++ history stem second (after stem first s) := by
  induction first generalizing s with
  | nil => rfl
  | cons call first ih => exact congrArg (call.event stem s :: ·) (ih _)

/-- How a call ends: with which path, if any, and in which session. -/
inductive Call.Ends (stem : String) (s : Session) : Call → Option String → Session → Prop where
  | unopened : call ≠ .cleanup → path stem s = .error e t → Ends stem s call none t
  | directory : path stem s = .ok d t → Ends stem s .directory (some d) t
  | named (name) : path stem s = .ok d t → Ends stem s (.named name) (some (joinPaths d name)) t
  | created : path stem s = .ok d u → Files.makeTemporaryFile d name suffix u = .ok file t →
      Ends stem s (.create name suffix) (some file) t
  | uncreated : path stem s = .ok d u → Files.makeTemporaryFile d name suffix u = .error e t →
      Ends stem s (.create name suffix) none t
  | cleaned : remove s = .ok () t → Ends stem s .cleanup none t

theorem Call.ends (stem : String) (call : Call) (s : Session) :
    call.Ends stem s (call.event stem s).answer ((call.run stem).after s) := by
  have answered {answer : Option String} {t : Session} (ran : call.run stem s = .ok answer t)
      (ends : call.Ends stem s answer t) : call.Ends stem s (call.event stem s).answer ((call.run stem).after s) := by
    simp only [event, ran, after_of_ok ran]
    exact ends
  have failed {e : Failure} {t : Session} (ran : call.run stem s = .error e t)
      (ends : call.Ends stem s none t) : call.Ends stem s (call.event stem s).answer ((call.run stem).after s) := by
    simp only [event, ran, after_of_error ran]
    exact ends
  cases call with
  | directory =>
      cases found : path stem s with
      | ok d t => exact answered (map_of_ok found) (.directory found)
      | error e t => exact failed (map_of_error found) (.unopened nofun found)
  | named name =>
      cases found : path stem s with
      | ok d t => exact answered (map_of_ok (bind_of_ok found)) (.named name found)
      | error e t => exact failed (map_of_error (bind_eq_error.mpr (.inl found))) (.unopened nofun found)
  | create name suffix =>
      cases found : path stem s with
      | error e t => exact failed (map_of_error (bind_eq_error.mpr (.inl found))) (.unopened nofun found)
      | ok d u =>
          cases making : Files.makeTemporaryFile d name suffix u with
          | ok file t => exact answered (map_of_ok ((bind_of_ok found).trans making)) (.created found making)
          | error e t => exact failed (map_of_error ((bind_of_ok found).trans making)) (.uncreated found making)
  | cleanup =>
      obtain ⟨t, removed, -⟩ := remove_ok s
      exact answered (bind_of_ok removed) (.cleaned removed)

/-- The path leads nowhere unless something is where the directory was made. -/
def Needs (here : Location) (directory path : String) : Prop :=
  ∀ fs : FileSystem, fs.Sound → fs.here = here → ∀ entry, fs.stat path = .ok entry →
    fs.entry? (spot here directory) ≠ none

theorem needs_self (here : Location) (directory : String) : Needs here directory directory := by
  rintro fs - rfl entry found
  simp [(stat_ok found).2]

/-- The path of something directly in the directory. -/
theorem needs_of_inside {here : Location} {directory path name : String}
    (inside : spot here path = spot here directory ++ [name]) : Needs here directory path := by
  rintro fs sound rfl entry found
  have stands := (stat_ok found).2
  rw [inside] at stands
  have above := sound.above (List.cons_ne_nil name []) (Option.isSome_of_eq_some stands)
  simp [above]

theorem needs_named (here : Location) {directory name : String} (open' : Text.baseName directory ≠ "")
    (clean : '/' ∉ name.toList) : Needs here directory (joinPaths directory name) := by
  rintro fs - rfl entry found
  have relative : Text.startsWith name "/" = false := by
    rw [Bool.eq_false_iff]
    intro slash
    obtain ⟨rest, rfl⟩ := Text.startsWith_iff.mp slash
    exact clean (by simp)
  obtain ⟨steps, start⟩ := split_joinPaths_open fs.here open' relative
  have followed := follow_of_locate (stat_ok found).1
  rw [steps, start, Text.split_of_not_mem clean, follow_append] at followed
  obtain ⟨reached, first, last⟩ := except_bind_eq_ok.mp followed
  have there : reached = spot fs.here directory := follow_ok first
  have stands := follow_cons last
  rw [there] at stands
  simp [stands]

/-- An empty file is there under the path, directly in the run directory. -/
def Holds (s : Session) (path : String) : Prop :=
  ∃ directory, s.runDirectory = some directory ∧ s.Scratch directory (spot s.files.here path) ∧
    s.files.stat path = .ok (.file [])

variable {origin s t u : Session} {stem : String} {made : List String} {past : List Event}

/-- Where names were only drawn, nothing was made. -/
theorem unmade (same : t = { s with draws := t.draws }) :
    t.runDirectory = s.runDirectory ∧ s.files.Extends (fun _ => False) t.files := by
  have files : t.files = s.files := by rw [same]
  exact ⟨by rw [same], files ▸ .refl _⟩

/-- A fresh file stays while files are only made elsewhere. -/
theorem Holds.stays {Z : Location → Prop} {path : String} (holds : Holds s path) (files : s.files.Extends Z t.files)
    (kept : t.runDirectory = s.runDirectory) (outside : ¬ Z (spot s.files.here path)) : Holds t path := by
  obtain ⟨directory, there, ⟨name, inside⟩, found⟩ := holds
  refine ⟨directory, kept.trans there, ⟨name, ?_⟩, stat_stays files outside found⟩
  rw [files.here]
  exact inside

/-- What has become of a fresh file: it is still there, or its run directory is not the current one. -/
def Accounted (origin : Session) (made : List String) (s : Session) (path : String) : Prop :=
  Holds s path ∨ ∃ directory ∈ made, s.runDirectory ≠ some directory ∧
    origin.Scratch directory (spot origin.files.here path)

namespace Accounted
variable {path : String}

theorem mono (accounted : Accounted origin made s path) (more : List String) :
    Accounted origin (made ++ more) s path :=
  accounted.imp_right fun ⟨directory, member, rest⟩ => ⟨directory, List.mem_append_left _ member, rest⟩

theorem grows {Z : Location → Prop} (accounted : Accounted origin made s path) (files : s.files.Extends Z t.files)
    (kept : t.runDirectory = s.runDirectory)
    (outside : s.files.entry? (spot s.files.here path) ≠ none → ¬ Z (spot s.files.here path)) :
    Accounted origin made t path := by
  rcases accounted with holds | ⟨directory, member, other, inside⟩
  · refine .inl (holds.stays files kept (outside ?_))
    obtain ⟨-, -, -, found⟩ := holds
    simp [(stat_ok found).2]
  · exact .inr ⟨directory, member, kept ▸ other, inside⟩

/-- A fresh file when a run directory is asked for. -/
theorem opened (accounted : Accounted origin made s path) (tidy : Tidy origin stem made s)
    (ran : RunDirectory.path stem s = .ok directory t) : Accounted origin made t path := by
  obtain ⟨-, current, files, before | ⟨before, fresh⟩⟩ := tidy.opened ran
  · exact accounted.grows files (current.trans before.symm) fun _ => id
  · rcases accounted with ⟨_, there, -⟩ | ⟨other, member, -, inside⟩
    · rw [before] at there
      contradiction
    · refine .inr ⟨other, member, fun same => fresh ?_, inside⟩
      rw [current, Option.some.injEq] at same
      exact same ▸ member

theorem cleared (accounted : Accounted origin made s path) (tidy : Tidy origin stem made s)
    (none : t.runDirectory = none) : Accounted origin made t path := by
  rcases accounted with ⟨directory, there, inside, -⟩ | ⟨directory, member, -, inside⟩
  · refine .inr ⟨directory, (tidy.current _ there).1, by simp [none], ?_⟩
    simpa only [Session.Scratch, tidy.here] using inside
  · exact .inr ⟨directory, member, by simp [none], inside⟩

end Accounted

/-- What is known after calls from `origin` on: each path that was given needs a run directory, each fresh file
is accounted for, and no two of them got one path. -/
structure Kept (origin : Session) (stem : String) (past : List Event) (s : Session) : Prop where
  tidy : Tidy origin stem (directories past) s
  needs : ∀ path ∈ answers past, ∃ directory ∈ directories past, Needs origin.files.here directory path
  fresh : ∀ path ∈ files past, Accounted origin (directories past) s path
  distinct : (files past).Nodup

namespace Kept

theorem begins (ready : origin.Ready) (stem : String) : Kept origin stem [] origin :=
  ⟨tidy_of_ready ready stem, nofun, nofun, .nil⟩

/-- One more event. -/
theorem add {event : Event} (kept : Kept origin stem past s)
    (tidy : Tidy origin stem (directories past ++ event.directory.toList) t)
    (needs : ∀ path, event.answer = some path →
      ∃ directory ∈ directories past ++ event.directory.toList, Needs origin.files.here directory path)
    (old : ∀ path ∈ files past, Accounted origin (directories past ++ event.directory.toList) t path)
    (new : ∀ path, event.file? = some path → Holds t path ∧ path ∉ files past) :
    Kept origin stem (past ++ [event]) t := by
  have split {f : Event → Option String} : (past ++ [event]).filterMap f = past.filterMap f ++ (f event).toList := by
    rw [List.filterMap_append]
    cases same : f event <;> simp [same]
  have made : directories (past ++ [event]) = directories past ++ event.directory.toList := split
  have given : answers (past ++ [event]) = answers past ++ event.answer.toList := split
  have fresh : files (past ++ [event]) = files past ++ event.file?.toList := split
  refine ⟨made ▸ tidy, fun path member => ?_, fun path member => ?_, ?_⟩
  · rw [made]
    rw [given] at member
    rcases List.mem_append.mp member with earlier | last
    · obtain ⟨directory, inside, needed⟩ := kept.needs path earlier
      exact ⟨directory, List.mem_append_left _ inside, needed⟩
    · exact needs path (Option.mem_toList.mp last)
  · rw [made]
    rw [fresh] at member
    rcases List.mem_append.mp member with earlier | last
    · exact old path earlier
    · exact .inl (new path (Option.mem_toList.mp last)).1
  · rw [fresh, List.nodup_append]
    refine ⟨kept.distinct, ?_, fun path earlier other last => ?_⟩
    · cases event.file? <;> simp
    · rintro rfl
      exact (new _ (Option.mem_toList.mp last)).2 earlier

/-- A fresh file is made where no fresh file was made before. -/
theorem unused {name suffix file : String} (tidy : Tidy origin stem made s)
    (there : s.runDirectory = some directory) (cleanName : '/' ∉ name.toList)
    (cleanSuffix : '/' ∉ suffix.toList)
    (ran : Files.makeTemporaryFile directory name suffix s = .ok file t) :
    Holds t file ∧ ¬ Accounted origin made s file ∧ t.runDirectory = s.runDirectory ∧
      s.files.entry? (spot s.files.here file) = none ∧
      s.files.Extends (· = spot s.files.here file) t.files := by
  have found := Files.stat_of_makeTemporaryFile tidy.sound.here cleanName cleanSuffix ran
  obtain ⟨number, fs, draws, -, -, inside, free, -, grown, rfl⟩ :=
    Files.makeTemporaryFile_drawn tidy.sound.here cleanName cleanSuffix ran
  refine ⟨⟨directory, there, ⟨name ++ toString number ++ suffix, ?_⟩, found⟩, ?_, rfl, free, grown⟩
  · exact grown.here ▸ inside
  · rintro (⟨-, -, -, stands⟩ | ⟨other, member, different, name', outside⟩)
    · rw [(stat_ok stands).2] at free
      contradiction
    · rw [tidy.here] at inside
      have same := (List.append_inj' (outside.symm.trans inside) rfl).1
      exact different (there.trans (congrArg some (tidy.apart member (tidy.current _ there).1 same).symm))

/-- Whatever is asked for but cleaning up begins with the run directory. -/
theorem began (kept : Kept origin stem past s) (ran : RunDirectory.path stem s = .ok directory t) :
    Tidy origin stem (directories past ++ t.runDirectory.toList) t ∧ t.runDirectory = some directory ∧
      directory ∈ directories past ++ t.runDirectory.toList ∧
      ∀ path ∈ files past, Accounted origin (directories past ++ t.runDirectory.toList) t path := by
  obtain ⟨tidy, current, -, -⟩ := kept.tidy.opened ran
  rw [current]
  exact ⟨tidy, rfl, by simp, fun path member => ((kept.fresh path member).opened kept.tidy ran).mono _⟩

/-- A fresh file is kept apart from those that were made before it. -/
theorem created {name suffix file : String} (kept : Kept origin stem past s)
    (proper : (Call.create name suffix).Proper) (ran : RunDirectory.path stem s = .ok directory u)
    (making : Files.makeTemporaryFile directory name suffix u = .ok file t) :
    Kept origin stem (past ++ [⟨.create name suffix, some file, t.runDirectory⟩]) t := by
  obtain ⟨tidy, current, member, old⟩ := kept.began ran
  obtain ⟨holds, unaccounted, still, free, grown⟩ := unused tidy current proper.1 proper.2 making
  have filed := tidy.filed current proper.1 proper.2 making
  refine kept.add ?_ (fun path same => ?_) (fun path earlier => ?_) fun path same => ?_
  · rw [still]
    exact filed
  · obtain rfl := Option.some.inj same
    obtain ⟨directory, there, ⟨drawn, inside⟩, -⟩ := holds
    rw [still] at there ⊢
    exact ⟨directory, (tidy.current _ there).1, needs_of_inside (filed.here ▸ inside)⟩
  · rw [still]
    exact (old path earlier).grows grown still fun stands same => stands (same ▸ free)
  · obtain rfl := Option.some.inj same
    exact ⟨holds, fun earlier => unaccounted (old _ earlier)⟩

theorem ended {call : Call} {answer : Option String} (kept : Kept origin stem past s) (proper : call.Proper)
    (ends : call.Ends stem s answer t) : Kept origin stem (past ++ [⟨call, answer, t.runDirectory⟩]) t := by
  cases ends with
  | unopened other failed =>
      obtain ⟨none, same, -⟩ := path_failed failed
      obtain ⟨still, grown⟩ := unmade same
      refine kept.add ?_ nofun
        (fun path member => ((kept.fresh path member).grows grown still fun _ => id).mono _) ?_
      · rw [still, none, Option.toList_none, List.append_nil]
        exact kept.tidy.unopened failed
      · cases call <;> nofun
  | directory ran =>
      obtain ⟨tidy, current, member, old⟩ := kept.began ran
      refine kept.add tidy (fun path same => ?_) old nofun
      exact ⟨_, member, Option.some.inj same ▸ needs_self _ _⟩
  | named name ran =>
      obtain ⟨tidy, current, member, old⟩ := kept.began ran
      obtain ⟨number, -, -, drawn⟩ := tidy.drawn _ member
      have open' := drawn ▸ baseName_new_nonempty origin.host stem number
      refine kept.add tidy (fun path same => ⟨_, member, ?_⟩) old nofun
      exact Option.some.inj same ▸ needs_named _ open' proper
  | created ran making => exact kept.created proper ran making
  | uncreated ran failed =>
      obtain ⟨tidy, current, member, old⟩ := kept.began ran
      obtain ⟨same, -⟩ := Files.makeTemporaryFile_failed failed
      obtain ⟨still, grown⟩ := unmade same
      refine kept.add ?_ nofun (fun path earlier => ?_) nofun
      · rw [still]
        exact tidy.unfiled failed
      · rw [still]
        exact (old path earlier).grows grown still fun _ => id
  | cleaned removed =>
      obtain ⟨t', removed', tidy, none⟩ := kept.tidy.cleared
      obtain ⟨-, rfl⟩ := EStateM.Result.ok.inj (removed.symm.trans removed')
      refine kept.add ?_ nofun (fun path member => ((kept.fresh path member).cleared kept.tidy none).mono _) nofun
      rw [none, Option.toList_none, List.append_nil]
      exact tidy

theorem step (kept : Kept origin stem past s) {call : Call} (proper : call.Proper) :
    Kept origin stem (past ++ [call.event stem s]) ((call.run stem).after s) :=
  kept.ended proper (call.ends stem s)

theorem run (kept : Kept origin stem past s) {calls : List Call} (proper : ∀ call ∈ calls, call.Proper) :
    Kept origin stem (past ++ history stem calls s) (after stem calls s) := by
  induction calls generalizing past s with
  | nil => rwa [history, List.append_nil]
  | cons call rest ih =>
      obtain ⟨first, later⟩ := List.forall_mem_cons.mp proper
      have further := ih (kept.step first) later
      rwa [List.append_assoc, List.singleton_append] at further

/-- A fresh file is there after the call that made it. -/
theorem made_held {call : Call} {answer directory : Option String} (kept : Kept origin stem past s)
    (proper : call.Proper) (ends : call.Ends stem s answer t) {path : String}
    (file : Event.file? ⟨call, answer, directory⟩ = some path) : Holds t path := by
  cases ends with
  | unopened => cases call <;> contradiction
  | directory | named | uncreated | cleaned => contradiction
  | created ran making =>
      obtain ⟨tidy, current, -, -⟩ := kept.tidy.opened ran
      exact Option.some.inj file ▸ (unused tidy current proper.1 proper.2 making).1

/-- A fresh file stays until it is cleaned up. -/
theorem held_on {call : Call} {answer : Option String} (kept : Kept origin stem past s)
    (proper : call.Proper) (ends : call.Ends stem s answer t) (other : call ≠ .cleanup) {path : String}
    (holds : Holds s path) : Holds t path := by
  obtain ⟨directory, there, -, found⟩ := id holds
  cases ends with
  | unopened _ failed =>
      rw [(path_failed failed).1] at there
      contradiction
  | directory ran => exact (path_ok there ran).2 ▸ holds
  | named name ran => exact (path_ok there ran).2 ▸ holds
  | created ran making =>
      obtain ⟨rfl, rfl⟩ := path_ok there ran
      obtain ⟨-, -, still, free, grown⟩ := unused kept.tidy there proper.1 proper.2 making
      refine holds.stays grown still fun same => ?_
      rw [← same, (stat_ok found).2] at free
      contradiction
  | uncreated ran failed =>
      obtain ⟨rfl, rfl⟩ := path_ok there ran
      obtain ⟨same, -⟩ := Files.makeTemporaryFile_failed failed
      obtain ⟨still, grown⟩ := unmade same
      exact holds.stays grown still id
  | cleaned => contradiction

/-- Until the next cleaning up, all fresh files are there. -/
theorem run_held (kept : Kept origin stem past s) {calls : List Call} (proper : ∀ call ∈ calls, call.Proper)
    (unclean : .cleanup ∉ calls) : (∀ path, Holds s path → Holds (after stem calls s) path) ∧
      ∀ path ∈ files (history stem calls s), Holds (after stem calls s) path := by
  induction calls generalizing past s with
  | nil => exact ⟨fun _ => id, nofun⟩
  | cons call rest ih =>
      obtain ⟨first, later⟩ := List.forall_mem_cons.mp proper
      rw [List.mem_cons, not_or] at unclean
      obtain ⟨on, fresh⟩ := ih (kept.step first) later unclean.2
      refine ⟨fun path holds => on path (kept.held_on first (call.ends stem s) (Ne.symm unclean.1) holds),
        fun path member => ?_⟩
      rw [history, files, List.filterMap_cons] at member
      cases file : (call.event stem s).file? with
      | none =>
          rw [file] at member
          exact fresh path member
      | some made =>
          rw [file] at member
          rcases List.mem_cons.mp member with rfl | member
          · exact on path (kept.made_held first (call.ends stem s) file)
          · exact fresh path member

theorem one {directory : String} (kept : Kept origin stem past s) (member : directory ∈ directories past)
    (stands : s.files.entry? (spot s.files.here directory) ≠ none) : s.runDirectory = some directory := by
  by_contra other
  rw [kept.tidy.here] at stands
  exact stands (kept.tidy.gone directory member other)

/-- Without a run directory, no path leads anywhere that was given. -/
theorem nowhere {path : String} {entry : Entry} (kept : Kept origin stem past s) (none : s.runDirectory = none)
    (given : path ∈ answers past) : s.files.stat path ≠ .ok entry := by
  intro found
  obtain ⟨directory, made, needs⟩ := kept.needs path given
  have gone := kept.tidy.gone directory made (by simp [none])
  exact needs s.files kept.tidy.sound kept.tidy.here entry found gone

/-- From where there is no run directory, only ones are made that were not there before. -/
theorem renewed {directory : String} (kept : Kept origin stem past s) (none : s.runDirectory = none)
    {calls : List Call} (proper : ∀ call ∈ calls, call.Proper)
    (member : directory ∈ directories (history stem calls s)) : directory ∉ directories past := by
  intro earlier
  have later := (begins ⟨kept.tidy.sound, none⟩ stem).run proper
  obtain ⟨m, low, -, same⟩ := later.tidy.drawn directory member
  obtain ⟨n, -, high, same'⟩ := kept.tidy.drawn directory earlier
  rw [kept.tidy.host] at same
  exact Nat.not_lt_of_le high (new_injective (same'.symm.trans same) ▸ low)

end Kept

/-- If the next name that is drawn is free, the run directory is made under it. -/
theorem path_next {fs : FileSystem} (none : s.runDirectory = none)
    (whole : Files.holdsZero (new s.host stem (s.draws + 1)) = false)
    (free : s.files.makeDirectory (new s.host stem (s.draws + 1)) = .ok fs) :
    path stem s = .ok (new s.host stem (s.draws + 1))
      { s with files := fs, draws := s.draws + 1, runDirectory := some (new s.host stem (s.draws + 1)) } := by
  have making : Files.makeTemporaryDirectory (stem ++ "-") s = .ok (new s.host stem (s.draws + 1))
      { s with files := fs, draws := s.draws + 1 } := by
    rw [Files.makeTemporaryDirectory_apply]
    exact Files.makeDrawn_next 9999 whole free
  simp only [path, bind, EStateM.bind, get_apply, modify_apply, pure, EStateM.pure, none, making]

/-- After a call that asks for the run directory, that is the current one. -/
theorem Call.Ends.current {call : Call} {answer : Option String} {given : String}
    (ends : call.Ends stem s answer t) (other : call ≠ .cleanup) (ran : path stem s = .ok given u) :
    t.runDirectory = some given := by
  have there : u.runDirectory = some given := path_current ran
  cases ends with
  | unopened _ failed => exact nomatch ran.symm.trans failed
  | directory again =>
      obtain ⟨rfl, rfl⟩ := EStateM.Result.ok.inj (ran.symm.trans again)
      exact there
  | named _ again =>
      obtain ⟨rfl, rfl⟩ := EStateM.Result.ok.inj (ran.symm.trans again)
      exact there
  | created again making =>
      obtain ⟨rfl, rfl⟩ := EStateM.Result.ok.inj (ran.symm.trans again)
      have same := (((Files.makeTemporaryFile_filesOnly _ _ _).obeys _).of_ok making).1
      rw [same]
      exact there
  | uncreated again failed =>
      obtain ⟨rfl, rfl⟩ := EStateM.Result.ok.inj (ran.symm.trans again)
      rw [(Files.makeTemporaryFile_failed failed).1]
      exact there
  | cleaned => contradiction

/-- A call that gives a path leaves a run directory. -/
theorem Call.Ends.opened {call : Call} {answer : Option String} (ends : call.Ends stem s answer t)
    (given : answer ≠ none) : t.runDirectory ≠ none := by
  obtain ⟨answered, rfl⟩ := Option.ne_none_iff_exists'.mp given
  have other : call ≠ .cleanup := by
    rintro rfl
    contradiction
  obtain ⟨directory, u, ran⟩ : ∃ directory u, path stem s = .ok directory u := by
    cases ends <;> exact ⟨_, _, ‹_›⟩
  rw [ends.current other ran]
  exact nofun

theorem mem_history {calls : List Call} {event : Event} (member : event ∈ history stem calls s) :
    ∃ call u, event = Call.event stem call u := by
  induction calls generalizing s with
  | nil => contradiction
  | cons call rest ih =>
      rcases List.mem_cons.mp member with rfl | later
      · exact ⟨call, s, rfl⟩
      · exact ih later

/-- The life of a run directory, from a session without one through calls. -/
structure Lifecycle (stem : String) (origin : Session) (calls : List Call) : Prop where
  /-- Of all run directories that there were, only the current one can be there. -/
  one : ∀ directory ∈ directories (history stem calls origin),
    (after stem calls origin).files.entry? (spot (after stem calls origin).files.here directory) ≠ none →
      (after stem calls origin).runDirectory = some directory
  /-- Calls that give a path leave a run directory. -/
  opened : ∀ event ∈ history stem calls origin, event.answer ≠ none → event.directory ≠ none
  stands : ∀ directory, (after stem calls origin).runDirectory = some directory →
    (after stem calls origin).files.stat directory = .ok .directory
  distinct : (files (history stem calls origin)).Nodup
  /-- Fresh files that were made since the last cleaning up are there. -/
  held : ∀ before rest, calls = before ++ rest → .cleanup ∉ rest →
    ∀ path ∈ files (history stem rest (after stem before origin)), Holds (after stem calls origin) path
  /-- Right after cleaning up, no path leads anywhere that was given. -/
  gone : ∀ before, calls = before ++ [.cleanup] →
    ∀ path ∈ answers (history stem calls origin), ∀ entry, (after stem calls origin).files.stat path ≠ .ok entry
  /-- The run directories after cleaning up are none of those before. -/
  renewed : ∀ before rest, calls = before ++ .cleanup :: rest →
    ∀ directory ∈ directories (history stem rest (after stem (before ++ [.cleanup]) origin)),
      directory ∉ directories (history stem before origin)
  /-- The next call after cleaning up makes a run directory, if the name that is drawn next is free. -/
  restarted : ∀ before call, calls = before ++ [.cleanup, call] → call ≠ .cleanup →
    let s := after stem (before ++ [.cleanup]) origin
    Files.holdsZero (new s.host stem (s.draws + 1)) = false →
      (∃ fs, s.files.makeDirectory (new s.host stem (s.draws + 1)) = .ok fs) →
        (after stem calls origin).runDirectory = some (new s.host stem (s.draws + 1))

theorem cleaned_up (ready : origin.Ready) {calls : List Call} (proper : ∀ call ∈ calls, call.Proper) :
    (after stem (calls ++ [.cleanup]) origin).runDirectory = none := by
  obtain ⟨t, removed, -, none⟩ := ((Kept.begins ready stem).run proper).tidy.cleared
  have cleaned : Call.cleanup.run stem (after stem calls origin) = .ok Option.none t := bind_of_ok removed
  rw [after_append]
  exact (congrArg Session.runDirectory (after_of_ok cleaned)).trans none

/-- Whatever is asked of a run directory and in whichever order. -/
theorem lifecycle (ready : origin.Ready) (stem : String) {calls : List Call}
    (proper : ∀ call ∈ calls, call.Proper) : Lifecycle stem origin calls := by
  have kept : Kept origin stem (history stem calls origin) (after stem calls origin) :=
    (Kept.begins ready stem).run proper
  exact {
    one := fun directory => kept.one
    opened := fun event member given => by
      obtain ⟨call, s, rfl⟩ := mem_history member
      exact (call.ends stem s).opened given
    stands := fun directory there => by
      obtain ⟨-, stands, ⟨above, name, found⟩, -, -⟩ := (kept.tidy.current directory there).2
      exact stat_of_last found stands
    distinct := kept.distinct
    held := fun before rest split unclean => by
      subst split
      obtain ⟨first, later⟩ := List.forall_mem_append.mp proper
      rw [after_append]
      exact (((Kept.begins ready stem).run first).run_held later unclean).2
    gone := fun before split path member entry => by
      subst split
      have first := (List.forall_mem_append.mp proper).1
      exact kept.nowhere (cleaned_up ready first) member
    renewed := fun before rest split directory member earlier => by
      rw [List.append_cons] at split
      subst split
      obtain ⟨first, later⟩ := List.forall_mem_append.mp proper
      have none : (after stem (before ++ [.cleanup]) origin).runDirectory = none :=
        cleaned_up ready (List.forall_mem_append.mp first).1
      refine ((Kept.begins ready stem).run first).renewed none later member ?_
      rw [List.nil_append, history_append, directories, List.filterMap_append]
      exact List.mem_append_left _ earlier
    restarted := fun before call split other => by
      rintro s whole ⟨fs, free⟩
      subst split
      have none : s.runDirectory = none := cleaned_up ready (List.forall_mem_append.mp proper).1
      have ran := path_next none whole free
      rw [List.append_cons, after_append]
      exact (call.ends stem s).current other ran }

/-- Fresh files of one name, before and after everything is cleaned up. -/
def twice : List Call :=
  [.create "compiled" ".o", .create "compiled" ".o", .cleanup, .create "compiled" ".o", .named "program.bc"]

/-- The fresh files are in two run directories that come one after the other. -/
theorem lifecycle_twice :
    Session.blank.Ready ∧ (∀ call ∈ twice, call.Proper) ∧ Lifecycle "kiln" .blank twice ∧
      files (history "kiln" twice .blank) =
        ["/tmp/kiln-1/compiled2.o", "/tmp/kiln-1/compiled3.o", "/tmp/kiln-4/compiled5.o"] := by
  have ready : Session.blank.Ready := ⟨Sound.of_entries (by decide) (by decide), rfl⟩
  have proper : ∀ call ∈ twice, call.Proper := by decide
  exact ⟨ready, proper, lifecycle ready "kiln" proper, by decide +kernel⟩

end Foundry.RunDirectory
