import Foundry.Proofs.Files.Extension
import Foundry.Proofs.Files.Temporary
import Foundry.Proofs.FileSystem.Reach

/-! What is where after a file or a directory was moved, and what is left after something was
discarded. -/
namespace Foundry

open FileSystem Run

namespace FileSystem

variable {fs fs' : FileSystem}

/-- A file takes the place of no directory. -/
theorem rename_file (done : fs.rename source target = .ok fs')
    (file : fs.entry? (spot fs.here source) = some (.file content)) :
    fs.entry? (spot fs.here target) ≠ some .directory := by
  obtain ⟨entry, stands, -, -, ⟨same, -⟩ | ⟨-, -, replaced, -⟩⟩ := rename_ok done
  · rw [← same, file]
    simp
  · intro directory
    rw [file] at stands
    obtain rfl := Option.some.inj stands
    simp [replaces, directory] at replaced

/-- The directories on the way to where a file is moved stay what they are. -/
theorem rename_above (done : fs.rename source target = .ok fs')
    (file : fs.entry? (spot fs.here source) = some (.file content))
    (stands : fs.entry? above = some .directory)
    (onWay : within above (spot fs.here target) = true) : fs'.entry? above = some .directory := by
  have free := rename_file done file
  obtain ⟨entry, -, movable, standing, ⟨-, rfl⟩ | ⟨notInside, -, -, rfl⟩⟩ := rename_ok done
  · exact stands
  · have notTarget : within (spot fs.here target) above ≠ true := by
      intro below
      have same : spot fs.here target = above :=
        (within_iff.mp below).eq_of_length_le (within_iff.mp onWay).length_le
      exact free (same ▸ stands)
    have notSource : within (spot fs.here source) above ≠ true := by
      intro below
      rw [within_trans below onWay] at notInside
      contradiction
    rw [entry?_moveTree _ movable standing.below, if_neg notTarget, if_neg fun both => notSource both.2,
      stands]

/-- Renaming removes no directory but those that it moves. -/
theorem rename_keeps (sound : fs.Sound) (done : fs.rename source target = .ok fs')
    (stands : fs.entry? place = some .directory) (outside : within (spot fs.here source) place = false) :
    fs'.entry? place = some .directory := by
  obtain ⟨entry, there, movable, standing, ⟨-, rfl⟩ | ⟨-, -, replaced, rfl⟩⟩ := rename_ok done
  · exact stands
  · rw [entry?_moveTree _ movable standing.below]
    split
    · rename_i inside
      obtain ⟨rest, rfl⟩ := within_iff.mp inside
      have taken : fs.entry? (spot fs.here target) = some .directory := by
        cases rest with
        | nil => simpa using stands
        | cons step rest => exact sound.above (List.cons_ne_nil step rest) (by simp [stands])
      cases entry with
      | file content => simp [replaces, taken] at replaced
      | directory =>
          simp only [replaces, taken] at replaced
          split at replaced
          · rename_i empty
            cases rest with
            | nil => simpa using there
            | cons step rest =>
                have child : (fs.entry? (spot fs.here target ++ [step])).isSome := by
                  cases rest with
                  | nil => simp [stands]
                  | cons next more =>
                      rw [List.append_cons] at stands
                      simp [sound.above (List.cons_ne_nil next more) (Option.isSome_of_eq_some stands)]
                have listed := mem_names.mpr child
                rw [List.isEmpty_iff.mp empty] at listed
                exact absurd listed List.not_mem_nil
          · contradiction
    · rw [outside, if_neg (by simp), stands]

/-- Renaming a file makes no directory and removes none. -/
theorem rename_directories (sound : fs.Sound)
    (file : fs.entry? (spot fs.here source) = some (.file content))
    (done : fs.rename source target = .ok fs') (place : Location) :
    fs'.entry? place = some .directory ↔ fs.entry? place = some .directory := by
  have free := rename_file done file
  have below {top place : Location} (free : fs.entry? top ≠ some .directory)
      (inside : within top place = true) : fs.entry? place ≠ some .directory := by
    obtain ⟨rest, rfl⟩ := within_iff.mp inside
    cases rest with
    | nil => simpa using free
    | cons step rest =>
        rw [sound.free_below free (List.cons_ne_nil step rest)]
        simp
  have notSource : fs.entry? (spot fs.here source) ≠ some .directory := by simp [file]
  obtain ⟨entry, -, movable, standing, ⟨-, rfl⟩ | ⟨-, -, -, rfl⟩⟩ := rename_ok done
  · rfl
  · rw [entry?_moveTree _ movable standing.below]
    split
    · rename_i inside
      obtain ⟨rest, rfl⟩ := within_iff.mp inside
      rw [List.drop_left]
      exact iff_of_false (below notSource (within_append _ _)) (below free inside)
    · split
      · rename_i inside
        exact iff_of_false (by simp) (below notSource inside.2)
      · rfl

theorem removeTree_outside (done : fs.removeTree path = .ok (fs', refused)) :
    fs'.here = fs.here ∧
      ∀ place, within (spot fs.here path) place = false → fs'.entry? place = fs.entry? place := by
  obtain ⟨-, -, rfl⟩ := removeTree_ok done
  split
  · refine ⟨rfl, fun place outside => ?_⟩
    rw [entry?_withoutTree, outside]
    simp
  · refine ⟨rfl, fun place outside => ?_⟩
    have other : place ≠ spot fs.here path := by
      rintro rfl
      simp at outside
    rw [entry?_put_of_ne _ other, entry?_withoutTree, outside]
    simp

end FileSystem

namespace Files

variable {s t : Session}

theorem discardTree_outside (ran : discardTree path s = .ok u t) :
    t.files.here = s.files.here ∧ ∀ place, within (spot s.files.here path) place = false →
      t.files.entry? place = s.files.entry? place := by
  unfold discardTree at ran
  split at ran
  · obtain ⟨-, rfl⟩ := pure_eq_ok.mp ran
    exact ⟨rfl, fun _ _ => rfl⟩
  · obtain ⟨fs, v, found, removing⟩ := bind_eq_ok.mp ran
    obtain ⟨rfl, rfl⟩ := current_ok.mp found
    cases done : s.files.removeTree path with
    | ok result =>
        simp only [done] at removing
        obtain rfl := replace_ok.mp removing
        exact removeTree_outside done
    | error errno =>
        simp only [done] at removing
        obtain ⟨-, rfl⟩ := pure_eq_ok.mp removing
        exact ⟨rfl, fun _ _ => rfl⟩

/-- Discarding a file removes it, if anything. -/
theorem discardFile_prunes (ran : discardFile path s = .ok u t) :
    t.files.here = s.files.here ∧ ∀ place, t.files.entry? place = s.files.entry? place ∨
      place = spot s.files.here path ∧ t.files.entry? place = none ∧
        s.files.entry? place ≠ some .directory := by
  obtain ⟨_, a, clean, rest⟩ := bind_eq_ok.mp ran
  obtain ⟨fs, b, found, removing⟩ := bind_eq_ok.mp rest
  obtain rfl := (checked_ok clean).1
  obtain ⟨rfl, rfl⟩ := current_ok.mp found
  cases done : a.files.removeFile path with
  | ok fs =>
      simp only [done] at removing
      obtain rfl := replace_ok.mp removing
      obtain ⟨below, ⟨content, file⟩, rfl⟩ := removeFile_ok done
      refine ⟨rfl, fun place => ?_⟩
      rw [entry?_without _ below]
      split
      · rename_i same
        exact .inr ⟨same, rfl, by simp [same, file]⟩
      · exact .inl rfl
  | error errno =>
      cases errno with
      | noEntry =>
          simp only [done] at removing
          obtain ⟨-, rfl⟩ := pure_eq_ok.mp removing
          exact ⟨rfl, fun _ => .inl rfl⟩
      | _ =>
          simp only [done] at removing
          nomatch removing

theorem discardFile_outside (ran : discardFile path s = .ok u t) :
    t.files.here = s.files.here ∧ ∀ place, place ≠ spot s.files.here path →
      t.files.entry? place = s.files.entry? place := by
  obtain ⟨here, pruned⟩ := discardFile_prunes ran
  exact ⟨here, fun place other => (pruned place).resolve_right fun same => other same.1⟩

theorem removeTree_done {name : FileName} (ran : removeTree name s = .ok u t) :
    spot s.files.here name.plain ≠ [] ∧ t.files.here = s.files.here ∧ ∀ place, t.files.entry? place =
      if place ≠ [] ∧ within (spot s.files.here name.plain) place = true then none
      else s.files.entry? place := by
  obtain ⟨_, a, clean, rest⟩ := bind_eq_ok.mp ran
  obtain ⟨fs, b, found, removing⟩ := bind_eq_ok.mp rest
  obtain rfl := (checked_ok clean).1
  obtain ⟨rfl, rfl⟩ := current_ok.mp found
  cases done : a.files.removeTree name.plain with
  | ok result =>
      obtain ⟨fs, refused⟩ := result
      simp only [done] at removing
      cases refused with
      | none =>
          obtain rfl := replace_ok.mp removing
          obtain ⟨-, below, rfl⟩ := removeTree_ok done
          exact ⟨below rfl, rfl, entry?_withoutTree _ _⟩
      | some errno =>
          obtain ⟨_, c, _, refused⟩ := bind_eq_ok.mp removing
          nomatch refused
  | error errno =>
      cases errno with
      | notDirectory =>
          simp only [done] at removing
          obtain ⟨seen, c, -, refused⟩ := bind_eq_ok.mp removing
          split at refused <;> nomatch refused
      | _ =>
          simp only [done] at removing
          nomatch removing

theorem leadsInto_same (ran : leadsInto source target s = .ok answer t) : t = s := by
  obtain ⟨first, a, made, rest⟩ := bind_eq_ok.mp ran
  obtain ⟨-, rfl⟩ := absolute_ok made
  obtain ⟨second, b, made, rest⟩ := bind_eq_ok.mp rest
  obtain ⟨-, rfl⟩ := absolute_ok made
  exact (pure_eq_ok.mp rest).2.symm

/-- What is moved in one step or not: the system is asked first. -/
theorem go_ok (ran : move.go source target place s = .ok u t) :
    holdsZero place = false ∧
      ((∃ fs, s.files.rename source place = .ok fs ∧ t = { s with files := fs }) ∨
        moveByCopy source target place s = .ok u t) := by
  obtain ⟨_, a, clean, rest₁⟩ := bind_eq_ok.mp ran
  obtain ⟨_, b, clean', rest₂⟩ := bind_eq_ok.mp rest₁
  obtain ⟨fs, c, found, moving⟩ := bind_eq_ok.mp rest₂
  obtain rfl := (checked_ok clean).1
  obtain ⟨rfl, whole⟩ := checked_ok clean'
  obtain ⟨rfl, rfl⟩ := current_ok.mp found
  refine ⟨whole, ?_⟩
  cases done : b.files.rename source place with
  | ok fs =>
      simp only [done] at moving
      exact .inl ⟨fs, rfl, (replace_ok.mp moving).symm⟩
  | error errno =>
      simp only [done] at moving
      exact .inr moving

theorem makeMissing_ok {path : Path} (ran : makeMissing path depth s = .ok u t) :
    ∃ m : Session, s.files.Extends (fun _ => False) m.files ∧
      m.files.makeDirectory path.text = .ok t.files := by
  cases depth with
  | zero =>
      obtain ⟨fs, done, rfl⟩ := change_ok ran
      exact ⟨s, .refl _, done⟩
  | succ depth =>
      obtain ⟨seen, a, looked, rest⟩ := bind_eq_ok.mp ran
      obtain ⟨rfl, -, -⟩ := look_ok looked
      split at rest
      · obtain ⟨_, m, above, last⟩ := bind_eq_ok.mp rest
        obtain ⟨fs, done, rfl⟩ := change_ok last
        have making : Obeys (extending a.files.here fun _ => False) (makeMissing path.parent depth) :=
          makeMissing_extending _ _
        refine ⟨m, (Obeys.tryCatch making (fun e s t failed => ?_) a).of_ok above rfl, done⟩
        have ended := (making s).of_error failed
        split
        · exact ended
        · exact ended
      · obtain ⟨fs, done, rfl⟩ := change_ok rest
        exact ⟨a, .refl _, done⟩

/-- A directory that is moved to where none is seen is renamed, perhaps after directories were made on
the way. -/
theorem go_directory
    (notFile : ∀ content, s.files.entry? (spot s.files.here source) ≠ some (.file content))
    (unseen : look place s ≠ .ok (some .directory) s) (ran : move.go source target place s = .ok u t) :
    s.files.entry? (spot s.files.here source) = some .directory ∧
      spot s.files.here source ≠ spot s.files.here place ∧
      ∃ fs, s.files.Grows (fun _ => False) ((Path.ofText place).Leads s.files.here) fs ∧
        fs.rename source place = .ok t.files := by
  obtain ⟨whole, ⟨fs, done, rfl⟩ | moving⟩ := go_ok ran
  · obtain ⟨entry, stands, -, -, -⟩ := rename_ok done
    have directory : entry = .directory := by
      cases entry with
      | file content => exact absurd stands (notFile content)
      | directory => rfl
    subst directory
    refine ⟨stands, fun same => unseen ?_, s.files, .refl _, done⟩
    obtain ⟨_, _, _, last⟩ := rename_last done
    exact look_of_stat whole (stat_of_last last (same ▸ stands))
  · obtain ⟨seen, a, looked, rest⟩ := bind_eq_ok.mp moving
    obtain ⟨rfl, status, -⟩ := look_ok looked
    split at rest
    · have stands := (stat_ok (status _ rfl)).2
      obtain ⟨inside, b, answered, rest⟩ := bind_eq_ok.mp rest
      obtain rfl := leadsInto_same answered
      cases inside with
      | true => nomatch rest
      | false =>
          obtain ⟨_, c, making, changing⟩ := bind_eq_ok.mp rest
          obtain ⟨fs, done, rfl⟩ := change_ok changing
          have making' : Obeys (relating b.files.here (Grows (fun _ => False)
              ((Path.ofText place).Leads b.files.here)))
              (makeMissing (.ofText place) (Path.ofText place).parts.length) :=
            makeMissing_relating (fun first begins fs fs' same done =>
              makeDirectory_grows done (same ▸ ⟨first, begins, rfl⟩)) _
          refine ⟨stands, fun same => ?_, c.files, (making' b).of_ok making rfl, done⟩
          -- the last of the directories is made at the place, where nothing was
          obtain ⟨m, grown, last⟩ := makeMissing_ok making
          have free := (makeDirectory_ok last).2.1
          rw [grown.here, Path.spot_ofText, ← same, grown.directory stands] at free
          cases free
    · obtain ⟨seen', b, looked', rest'⟩ := bind_eq_ok.mp rest
      obtain ⟨rfl, -, -⟩ := look_ok looked'
      obtain ⟨_, c, copying, -⟩ := bind_eq_ok.mp rest'
      obtain ⟨content, fs, readable, -⟩ := copy_ok copying
      exact absurd (read_ok readable).2 (notFile content)

/-- A copied file is where it was copied, and it is nowhere else. -/
theorem copyAway_ok (ran : (copy source (.text place) >>= fun _ =>
      change source fun fs => fs.removeFile source) s = .ok u t) :
    ∃ content, s.files.entry? (spot s.files.here source) = some (.file content) ∧
      t.files.here = s.files.here ∧ t.files.file? (spot s.files.here place) = some content ∧
      s.files.entry? (spot s.files.here place) ≠ some .directory ∧
      ∀ above, s.files.entry? above = some .directory → t.files.entry? above = some .directory := by
  obtain ⟨_, a, copying, removing⟩ := bind_eq_ok.mp ran
  obtain ⟨content, fs, readable, done, apart, rfl⟩ := copy_ok copying
  rw [FileName.plain] at done apart
  obtain ⟨standing, free, rfl⟩ := write_ok done
  obtain ⟨fs, gone, rfl⟩ := change_ok removing
  obtain ⟨below, -, rfl⟩ : spot s.files.here source ≠ [] ∧ _ ∧
    fs = (s.files.put (spot s.files.here place) (.file content)).without (spot s.files.here source) :=
      removeFile_ok gone
  have kept := entry?_without (s.files.put (spot s.files.here place) (.file content)) below
  refine ⟨content, (read_ok readable).2, rfl, ?_, free, fun above stands => ?_⟩
  · have there := kept (spot s.files.here place)
    rw [if_neg (Ne.symm apart), entry?_put_self _ standing.below] at there
    exact file?_eq_some.mpr there
  · have notSource : above ≠ spot s.files.here source := by
      rintro rfl
      rw [(read_ok readable).2] at stands
      nomatch stands
    have notTarget : above ≠ spot s.files.here place := by
      rintro rfl
      exact free stands
    have there := kept above
    rw [if_neg notSource, entry?_put_of_ne _ notTarget, stands] at there
    exact there

theorem copyAway_directories (ran : (copy source (.text place) >>= fun _ =>
      change source fun fs => fs.removeFile source) s = .ok u t) :
    t.files.here = s.files.here ∧
      ∀ place, t.files.entry? place = some .directory ↔ s.files.entry? place = some .directory := by
  obtain ⟨_, a, copying, removing⟩ := bind_eq_ok.mp ran
  obtain ⟨content, fs, readable, done, apart, rfl⟩ := copy_ok copying
  rw [FileName.plain] at done apart
  obtain ⟨standing, free, rfl⟩ := write_ok done
  obtain ⟨fs, gone, rfl⟩ := change_ok removing
  obtain ⟨below, -, rfl⟩ : spot s.files.here source ≠ [] ∧ _ ∧
    fs = (s.files.put (spot s.files.here place) (.file content)).without (spot s.files.here source) :=
      removeFile_ok gone
  refine ⟨rfl, fun other => ?_⟩
  have kept := entry?_without (s.files.put (spot s.files.here place) (.file content)) below other
  rw [kept]
  split
  · rename_i same
    rw [same, (read_ok readable).2]
    simp
  · rw [entry?_put _ standing.below]
    split
    · rename_i same
      rw [same]
      exact iff_of_false (by simp) free
    · rfl

theorem moveByCopy_file (file : s.files.entry? (spot s.files.here source) = some (.file content))
    (unseen : look place s ≠ .ok (some .directory) s)
    (ran : moveByCopy source target place s = .ok u t) :
    (copy source (.text place) >>= fun _ => change source fun fs => fs.removeFile source) s =
      .ok u t := by
  obtain ⟨seen, a, looked, rest₁⟩ := bind_eq_ok.mp ran
  obtain ⟨rfl, status, -⟩ := look_ok looked
  split at rest₁
  · have directory := (stat_ok (status _ rfl)).2
    rw [file] at directory
    nomatch directory
  · obtain ⟨seen', b, looked', rest₂⟩ := bind_eq_ok.mp rest₁
    obtain ⟨rfl, -, -⟩ := look_ok looked'
    have other : seen' ≠ some .directory := by
      rintro rfl
      exact unseen looked'
    simp only [if_neg other] at rest₂
    exact rest₂

/-- A file is at the place where it was moved, and it was not moved over a directory. -/
theorem go_file (file : s.files.entry? (spot s.files.here source) = some (.file content))
    (unseen : look place s ≠ .ok (some .directory) s) (ran : move.go source target place s = .ok u t) :
    t.files.here = s.files.here ∧ t.files.file? (spot s.files.here place) = some content ∧
      s.files.entry? (spot s.files.here place) ≠ some .directory ∧
      ∀ above, s.files.entry? above = some .directory →
        within above (spot s.files.here place) = true → t.files.entry? above = some .directory := by
  obtain ⟨whole, ⟨fs, done, rfl⟩ | moving⟩ := go_ok ran
  · obtain ⟨here, moved, -⟩ := rename_moves done
    have there := moved []
    rw [List.append_nil, List.append_nil, file] at there
    exact ⟨here, file?_eq_some.mpr there, rename_file done file, fun above => rename_above done file⟩
  · obtain ⟨copied, stands, here, there, free, kept⟩ := copyAway_ok (moveByCopy_file file unseen moving)
    obtain rfl : copied = content := by
      rw [stands] at file
      simpa using file
    exact ⟨here, there, free, fun above directory _ => kept above directory⟩

/-- A file is moved to where the last step of its new path can be taken. -/
theorem go_last (file : s.files.entry? (spot s.files.here source) = some (.file content))
    (unseen : look place s ≠ .ok (some .directory) s) (ran : move.go source target place s = .ok u t) :
    ∃ directory name slash, s.files.last place = .ok (.name directory name slash) := by
  obtain ⟨-, ⟨fs, done, -⟩ | moving⟩ := go_ok ran
  · exact rename_last done
  · obtain ⟨_, a, copying, -⟩ := bind_eq_ok.mp (moveByCopy_file file unseen moving)
    obtain ⟨content, fs, -, done, -, -⟩ := copy_ok copying
    obtain ⟨directory, name, found⟩ := write_last done
    exact ⟨directory, name, false, found⟩

/-- A directory that is moved to a path where no directory is seen is renamed, perhaps after directories
were made on the way. -/
theorem move_directory
    (notFile : ∀ content, s.files.entry? (spot s.files.here source) ≠ some (.file content))
    (unseen : look target s ≠ .ok (some .directory) s) (ran : move source target s = .ok u t) :
    s.files.entry? (spot s.files.here source) = some .directory ∧
      spot s.files.here source ≠ spot s.files.here target ∧
      ∃ fs, s.files.Grows (fun _ => False) ((Path.ofText target).Leads s.files.here) fs ∧
        fs.rename source target = .ok t.files := by
  obtain ⟨seen, a, looked, rest⟩ := bind_eq_ok.mp ran
  obtain ⟨rfl, -, -⟩ := look_ok looked
  have other : seen ≠ some .directory := by
    rintro rfl
    exact unseen looked
  simp only [if_neg other] at rest
  exact go_directory notFile unseen rest

theorem lastName_of_baseName {path : String} (named : Text.baseName path ≠ "") :
    lastName path = Text.baseName path := by
  have last : path.toList.reverse.dropWhile (· = '/') = path.toList.reverse := by
    cases chars : path.toList.reverse with
    | nil => rfl
    | cons c rest =>
        by_cases slash : c = '/'
        · refine absurd ?_ named
          rw [Text.baseName, chars, slash]
          rfl
        · simp [slash]
  rw [lastName, last, List.reverse_reverse, String.ofList_toList]

/-- A file is moved to a path, or under its name into the directory that is there, if at all. -/
theorem move_of_file (target : String)
    (file : s.files.entry? (spot s.files.here source) = some (.file content)) :
    (∃ place, (place = target ∨ s.files.entry? (spot s.files.here target) = some .directory ∧
        place = joinPaths target (lastName source)) ∧
      look place s ≠ .ok (some .directory) s ∧
      move source target s = move.go source target place s) ∨
    ∃ e t, move source target s = .error e t ∧ t.files = s.files := by
  obtain ⟨seen, looked⟩ := look_total target s
  by_cases into : seen = some .directory
  · subst into
    have directory := (stat_ok ((look_ok looked).2.1 _ rfl)).2
    rw [move, bind_of_ok looked, if_pos rfl]
    cases compared : same source target s with
    | error e t =>
        exact .inr ⟨e, t, bind_eq_error.mpr (.inl compared), (same_still _ _ s).of_error compared⟩
    | ok alike t =>
        obtain ⟨rfl, -⟩ := same_ok compared
        rw [bind_of_ok compared]
        cases alike with
        | true =>
            rw [if_pos rfl]
            cases renamed : change source (fun fs => fs.rename source target) t with
            | ok _ u =>
                obtain ⟨fs, done, -⟩ := change_ok renamed
                exact absurd directory (rename_file done file)
            | error e u => exact .inr ⟨e, u, rfl, congrArg Session.files (change_error renamed)⟩
        | false =>
            obtain ⟨seen', looked'⟩ := look_total (joinPaths target (lastName source)) t
            rw [if_neg Bool.false_ne_true, bind_of_ok looked']
            cases seen' with
            | some entry => exact .inr ⟨_, t, rfl, rfl⟩
            | none =>
                refine .inl ⟨_, .inr ⟨directory, rfl⟩, ?_, rfl⟩
                rw [looked']
                simp
  · refine .inl ⟨target, .inl rfl, ?_, ?_⟩
    · rw [looked]
      simpa using into
    · rw [move, bind_of_ok looked, if_neg into]

/-- A file is moved to a path, or under its name into the directory that is there. -/
theorem move_file (file : s.files.entry? (spot s.files.here source) = some (.file content))
    (ran : move source target s = .ok u t) :
    ∃ place, (place = target ∨ s.files.entry? (spot s.files.here target) = some .directory ∧
        place = joinPaths target (lastName source)) ∧
      t.files.here = s.files.here ∧ t.files.file? (spot s.files.here place) = some content ∧
      s.files.entry? (spot s.files.here place) ≠ some .directory ∧
      ∀ above, s.files.entry? above = some .directory →
        within above (spot s.files.here place) = true → t.files.entry? above = some .directory := by
  rcases move_of_file target file with ⟨place, reached, unseen, going⟩ | ⟨e, v, failed, -⟩
  · exact ⟨place, reached, go_file file unseen (going ▸ ran)⟩
  · rw [failed] at ran
    cases ran

/-- A copy that fails leaves everything as it was. -/
theorem copy_failed {target : FileName} (failed : copy source target s = .error e t) :
    t.files = s.files := by
  rcases bind_eq_error.mp failed with compared | ⟨alike, a, compared, rest⟩
  · exact (same_still _ _ s).of_error compared
  obtain ⟨rfl, -⟩ := same_ok compared
  cases alike with
  | true =>
      cases rest
      rfl
  | false =>
      rcases bind_eq_error.mp rest with asked | ⟨content, b, asked, writing⟩
      · exact (ask_still _ _ a).of_error asked
      obtain ⟨-, rfl⟩ := ask_ok asked
      rcases bind_eq_error.mp writing with zero | ⟨_, c, clean, written⟩
      · exact (checked_still _ b).of_error zero
      obtain rfl := (checked_ok clean).1
      obtain ⟨fs, d, found, settled⟩ := (bind_eq_error.mp written).resolve_left (by rintro ⟨⟩)
      obtain ⟨rfl, rfl⟩ := current_ok.mp found
      cases done : c.files.write target.plain content with
      | ok fs =>
          simp only [done] at settled
          cases settled
      | error errno =>
          cases errno with
          | isDirectory =>
              simp only [done] at settled
              rcases bind_eq_error.mp settled with looked | ⟨seen, x, looked, refused⟩
              · exact (look_still _ c).of_error looked
              · obtain ⟨rfl, -⟩ := look_ok looked
                split at refused <;> cases refused <;> rfl
          | _ =>
              simp only [done] at settled
              cases settled
              rfl

/-- What succeeds on the file system of a run succeeds in the run. -/
theorem change_done {path : String} {action : FileSystem → Except Errno FileSystem}
    (whole : holdsZero path = false) (done : action s.files = .ok fs) :
    change path action s = .ok () { s with files := fs } := by
  simp [change, ask, checked, whole, done, settle, replace, bind, EStateM.bind, pure, EStateM.pure]

/-- A file that was copied can be removed. -/
theorem copyAway_failed (notAbove : Text.baseName source ≠ "..")
    (failed : (copy source (.text place) >>= fun _ =>
      change source fun fs => fs.removeFile source) s = .error e t) : t.files = s.files := by
  rcases bind_eq_error.mp failed with copying | ⟨_, a, copying, removing⟩
  · exact copy_failed copying
  · exfalso
    obtain ⟨alike, b, compared, -⟩ := bind_eq_ok.mp copying
    obtain ⟨_, c, clean, -⟩ := bind_eq_ok.mp compared
    have whole := (checked_ok clean).2
    obtain ⟨content, fs, readable, done, apart, rfl⟩ := copy_ok copying
    rw [FileName.plain] at done apart
    have grown : s.files.Extends (fun _ => True) fs := write_extends done trivial
    obtain ⟨directory, last, there⟩ := last_of_read readable notAbove
    have last' : fs.last source = .ok (.name directory (Text.baseName source) false) :=
      last_stays grown.here (.of_directories fun _ => grown.directory) last
    have stands : fs.entry? (directory ++ [Text.baseName source]) = some (.file content) := by
      obtain ⟨-, -, rfl⟩ := write_ok done
      rw [← there, entry?_put_of_ne _ apart]
      exact (read_ok readable).2
    have removable : ∃ fs', fs.removeFile source = .ok fs' :=
      ⟨fs.without (directory ++ [Text.baseName source]), by
        simp [FileSystem.removeFile, bind, Except.bind, last', stands]⟩
    obtain ⟨fs', removed⟩ := removable
    have removed' : ({ s with files := fs } : Session).files.removeFile source = .ok fs' := removed
    rw [change_done whole removed'] at removing
    cases removing

/-- Moving a file is done in full or not at all. -/
theorem moveFile_failed (notAbove : Text.baseName source ≠ "..")
    (file : s.files.entry? (spot s.files.here source) = some (.file content))
    (failed : move source target s = .error e t) : t.files = s.files := by
  have going {place : String} (failed : move.go source target place s = .error e t) :
      t.files = s.files := by
    rcases bind_eq_error.mp failed with zero | ⟨_, a, clean, rest⟩
    · exact (checked_still _ s).of_error zero
    obtain rfl := (checked_ok clean).1
    rcases bind_eq_error.mp rest with zero | ⟨_, b, clean', rest'⟩
    · exact (checked_still _ a).of_error zero
    obtain rfl := (checked_ok clean').1
    obtain ⟨fs, c, found, moving⟩ := (bind_eq_error.mp rest').resolve_left (by rintro ⟨⟩)
    obtain ⟨rfl, rfl⟩ := current_ok.mp found
    cases done : b.files.rename source place with
    | ok fs =>
        simp only [done] at moving
        cases moving
    | error errno =>
        simp only [done] at moving
        rcases bind_eq_error.mp moving with looked | ⟨seen, d, looked, copying⟩
        · exact (look_still _ b).of_error looked
        obtain ⟨rfl, status, -⟩ := look_ok looked
        split at copying
        · have directory := (stat_ok (status _ rfl)).2
          rw [file] at directory
          nomatch directory
        · rcases bind_eq_error.mp copying with looked' | ⟨seen', x, looked', copying'⟩
          · exact (look_still _ d).of_error looked'
          · obtain ⟨rfl, -, -⟩ := look_ok looked'
            exact copyAway_failed notAbove copying'
  rcases move_of_file target file with ⟨place, -, -, moving⟩ | ⟨e', u, refused, still⟩
  · exact going (moving ▸ failed)
  · rw [refused] at failed
    cases failed
    exact still

/-- Moving a file makes no directory and removes none. -/
theorem moveFile_directories (sound : s.files.Sound)
    (file : s.files.entry? (spot s.files.here source) = some (.file content))
    (ran : move source target s = .ok u t) :
    t.files.here = s.files.here ∧
      ∀ place, t.files.entry? place = some .directory ↔ s.files.entry? place = some .directory := by
  rcases move_of_file target file with ⟨place, -, unseen, going⟩ | ⟨e, v, failed, -⟩
  · rw [going] at ran
    obtain ⟨whole, ⟨fs, done, rfl⟩ | moving⟩ := go_ok ran
    · exact ⟨(rename_moves done).1, rename_directories sound file done⟩
    · exact copyAway_directories (moveByCopy_file file unseen moving)
  · rw [failed] at ran
    cases ran

theorem discardTree_total (path : String) (s : Session) : ∃ t, discardTree path s = .ok () t := by
  unfold discardTree
  split
  · exact ⟨s, rfl⟩
  · rw [bind_of_ok (current_apply s)]
    cases s.files.removeTree path with
    | ok result => exact ⟨_, rfl⟩
    | error errno => exact ⟨s, rfl⟩

/-- Where no directory is, a file is discarded whether it is there or not. -/
theorem discardFile_total {path : String} (whole : holdsZero path = false)
    (named : s.files.last path = .ok (.name above name false))
    (aside : s.files.entry? (above ++ [name]) ≠ some .directory) :
    ∃ t, discardFile path s = .ok () t := by
  rw [discardFile, bind_of_ok (checked_of_whole whole s), bind_of_ok (current_apply s)]
  cases stands : s.files.entry? (above ++ [name]) with
  | none =>
      have gone : s.files.removeFile path = .error .noEntry := by
        simp [FileSystem.removeFile, bind, Except.bind, named, stands]
      rw [gone]
      exact ⟨s, rfl⟩
  | some entry =>
      cases entry with
      | directory => exact absurd stands aside
      | file content =>
          have removed : s.files.removeFile path = .ok (s.files.without (above ++ [name])) := by
            simp [FileSystem.removeFile, bind, Except.bind, named, stands]
          rw [removed]
          exact ⟨_, rfl⟩

theorem removeTree_in_full (name : FileName) (whole : holdsZero name.plain = false)
    (done : s.files.removeTree name.plain = .ok (fs, none)) :
    removeTree name s = .ok () { s with files := fs } := by
  rw [removeTree, bind_of_ok (checked_of_whole whole s),
    bind_of_ok (current_apply s), done]
  rfl

/-- A directory whose removal is refused at once stays as it is. -/
theorem removeTree_refused (name : FileName) (whole : holdsZero name.plain = false)
    (refused : s.files.removeTree name.plain = .error errno) :
    ∃ e, removeTree name s = .error e s := by
  rw [removeTree, bind_of_ok (checked_of_whole whole s),
    bind_of_ok (current_apply s), refused]
  cases errno with
  | notDirectory =>
      obtain ⟨seen, looked⟩ := look_total name.plain s
      dsimp only
      rw [bind_of_ok looked]
      split
      · exact ⟨_, rfl⟩
      · exact ⟨_, rfl⟩
  | _ => exact ⟨_, rfl⟩

theorem go_done {source target place : String} (whole : holdsZero source = false)
    (whole' : holdsZero place = false) (done : s.files.rename source place = .ok fs) :
    move.go source target place s = .ok () { s with files := fs } := by
  rw [move.go, bind_of_ok (checked_of_whole whole s), bind_of_ok (checked_of_whole whole' s),
    bind_of_ok (current_apply s), done]
  rfl

/-- Where nothing is seen, a move goes right there. -/
theorem move_unseen (source : String) {target : String}
    (unseen : look target s ≠ .ok (some .directory) s) :
    move source target s = move.go source target target s := by
  obtain ⟨seen, looked⟩ := look_total target s
  rw [move, bind_of_ok looked, if_neg]
  rintro rfl
  exact unseen looked

end Files

end Foundry
