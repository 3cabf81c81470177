import Foundry.Proofs.Files.Move
import Foundry.Proofs.Library.Items
import Foundry.Proofs.Library.Layout

/-! What each step of committing a library does, wherever the library is laid out and published. -/
namespace Foundry.LibraryWriter

open FileSystem Run

variable {w : LibraryWriter} {s t : Session} {here : Location}

theorem packedManifest_ok (ran : w.packedManifest s = .ok bytes t) :
    MessagePack.pack (.table w.manifest) = .ok bytes ∧ t = s := by
  unfold packedManifest at ran
  cases packed : MessagePack.pack (.table w.manifest) with
  | ok packed' =>
      simp only [packed] at ran
      obtain ⟨rfl, rfl⟩ := pure_eq_ok.mp ran
      exact ⟨rfl, rfl⟩
  | error e =>
      simp only [packed] at ran
      nomatch ran

theorem packedPath_eq_ok : w.packedPath s = .ok packed t ↔ w.packedPath? = some packed ∧ t = s := by
  unfold packedPath
  cases w.packedPath? with
  | none => exact iff_of_false nofun (by simp)
  | some path => simp only [pure_eq_ok, Option.some.injEq, eq_comm]

/-- An archive is published beside where the directory would be. -/
theorem packedPath?_eq_some (named : w.packedPath? = some packed) : w.output.name ≠ "" ∧
    packed = ⟨w.output.anchor, w.output.parts.dropLast ++ [w.output.name ++ librarySuffix]⟩ := by
  unfold packedPath? Path.withName? at named
  split at named
  · contradiction
  · rename_i nonempty
    exact ⟨nonempty, (Option.some.inj named).symm⟩

theorem name_of_packedPath? (named : w.packedPath? = some packed) :
    packed.name = w.output.name ++ librarySuffix := by
  obtain ⟨-, rfl⟩ := packedPath?_eq_some named
  simp [Path.name]

theorem packedPath_ok (ran : w.packedPath s = .ok packed t) :
    t = s ∧ packed.name = w.output.name ++ librarySuffix := by
  obtain ⟨named, same⟩ := packedPath_eq_ok.mp ran
  exact ⟨same, name_of_packedPath? named⟩

/-- What is packed is packed beside the layout. -/
def archivePath (w : LibraryWriter) : Path := w.staging.child (w.output.name ++ librarySuffix)

theorem packedPath_total (proper : IsName w.output.name) (s : Session) :
    ∃ packed, w.packedPath s = .ok packed s ∧ packed.name = w.output.name ++ librarySuffix := by
  have named : w.packedPath? = some ⟨w.output.anchor,
      w.output.parts.dropLast ++ [w.output.name ++ librarySuffix]⟩ := if_neg proper.nonempty
  have ran : w.packedPath s = .ok _ s := packedPath_eq_ok.mpr ⟨named, rfl⟩
  exact ⟨_, ran, (packedPath_ok ran).2⟩

/-- The name of an archive is a name, whatever the library is called. -/
theorem archiveName_isName (slashless : '/' ∉ w.output.name.toList) :
    IsName (w.output.name ++ librarySuffix) := by
  have inside : 'k' ∈ (w.output.name ++ librarySuffix).toList := by simp [librarySuffix]
  exact .of_mem inside (by decide) (by simp [slashless, librarySuffix])

theorem baseName_archivePath (clean : w.staging.Clean) (slashless : '/' ∉ w.output.name.toList) :
    Text.baseName w.archivePath.text = w.output.name ++ librarySuffix := by
  have parts : w.archivePath.parts = w.staging.parts ++ [w.output.name ++ librarySuffix] := by
    rw [archivePath, Path.child_name (archiveName_isName slashless)]
  exact Path.baseName_text (Path.child_clean clean _) parts

/-- The name of an archive that was written is no longer than names may be. -/
theorem archiveName_fits {fs fs' : FileSystem} {content : Bytes} (clean : w.staging.Clean)
    (slashless : '/' ∉ w.output.name.toList) (done : fs.write w.archivePath.text content = .ok fs') :
    (w.output.name ++ librarySuffix).utf8ByteSize ≤ nameLimit := by
  obtain ⟨directory, last, found⟩ := write_last done
  obtain ⟨-, -, -, -, -, -, -, fits, -⟩ := last_steps found
  have named : Text.baseName w.archivePath.text = last := ((last_name found).2.2.2 rfl).2
  rw [← baseName_archivePath clean slashless, named]
  exact fits

/-- A packed library is published beside where its directory would be. -/
theorem packedPath?_eq (clean : w.output.Clean) : w.packedPath? =
    if w.output.name = "" then none
    else some (w.output.parent.child (w.output.name ++ librarySuffix)) :=
  Path.withName?_eq (archiveName_isName (Path.name_clean clean).1) w.output

theorem packedPath?_clean (clean : w.output.Clean) (named : w.packedPath? = some packed) : packed.Clean := by
  rw [packedPath?_eq clean] at named
  split at named
  · nomatch named
  · exact Option.some.inj named ▸ Path.child_clean ((Path.parent_begins _).clean clean) _

/-- Packing empties the archive, lists what there is to pack, and writes it. -/
theorem pack_done {archive : Path} (ran : w.pack archive s = .ok u t) :
    ∃ emptied items, s.files.write archive.text [] = .ok emptied ∧ w.items emptied archive = .ok items ∧
      emptied.write archive.text (Packed.write items) = .ok t.files ∧
      Files.holdsZero archive.text = false := by
  obtain ⟨_, a, emptying, rest₁⟩ := bind_eq_ok.mp ran
  obtain ⟨fs, b, found, rest₂⟩ := bind_eq_ok.mp rest₁
  obtain ⟨items, c, settled, writing⟩ := bind_eq_ok.mp rest₂
  obtain ⟨emptied, done, rfl⟩ := Files.change_ok emptying
  obtain ⟨rfl, rfl⟩ := Files.current_ok.mp found
  obtain ⟨listed, rfl⟩ := ofExcept_eq_ok.mp settled
  rw [except_mapError_eq_ok] at listed
  obtain ⟨written, done', rfl⟩ := Files.change_ok writing
  exact ⟨emptied, items, done, listed, done', Files.change_whole emptying⟩

/-- Packing writes one file, whose items are the files of the layout. -/
theorem pack_ok {archive : Path} (sound : s.files.Sound) (ran : w.pack archive s = .ok u t) :
    ∃ items, t.files.here = s.files.here ∧
      t.files.entry? (spot s.files.here archive.text) = some (.file (Packed.write items)) ∧
      (∀ other, other ≠ spot s.files.here archive.text →
        t.files.entry? other = s.files.entry? other) ∧
      ∀ steps content, Proper steps →
        (⟨itemName w.output.name steps, some content⟩ ∈ items ↔
          w.place s.files.here ++ steps ≠ spot s.files.here archive.text ∧
            s.files.file? (w.place s.files.here ++ steps) = some content) := by
  obtain ⟨emptied, items, done, listed, done', -⟩ := pack_done ran
  have first : s.files.Extends (· = spot s.files.here archive.text) emptied := write_extends done rfl
  have here : emptied.here = s.files.here := first.here
  obtain ⟨standing, -, same⟩ := write_ok done
  have aside : emptied.entry? (spot s.files.here archive.text) = some (.file []) := by
    rw [same, entry?_put_self _ standing.below]
  obtain ⟨standing', -, same'⟩ := write_ok done'
  rw [here] at standing' same'
  refine ⟨items, ?_, ?_, fun other different => ?_, fun steps content proper => ?_⟩
  · rw [same']
    exact here
  · rw [same', entry?_put_self _ standing'.below]
  · rw [same', entry?_put_of_ne _ different, same, entry?_put_of_ne _ different]
  · have listed := mem_items_file (first.sound sound) (by rw [here, aside]; simp) listed proper content
    rw [here] at listed
    rw [listed, place]
    refine and_congr_right fun other => ?_
    rw [first.file other]

/-- Remove what is at the output, if anything is seen there. -/
def clear (output : String) : Run Unit := do
  if (← Files.lookStrictly output).isSome then Files.removeTree (.typed output)

theorem publish_unpacked (unpacked : w.unpacked = true) : w.publish = (do
    clear w.output.text
    Files.move w.root.text w.output.text
    pure w.output) := by
  rw [publish, if_pos unpacked, clear, bind_assoc]
  congr 1
  funext seen
  split
  · rfl
  · simp only [pure_bind]

/-- What was at the output is removed, so that nothing is seen there. -/
theorem clear_ok {output : String} (ran : clear output s = .ok u t) :
    t.files.here = s.files.here ∧ Files.look output t ≠ .ok (some .directory) t ∧
      ∀ place, t.files.entry? place = s.files.entry? place ∨
        t.files.entry? place = none ∧ within (spot s.files.here output) place = true := by
  obtain ⟨seen, a, looked, rest⟩ := bind_eq_ok.mp ran
  have seen' := Files.look_of_lookStrictly looked
  obtain ⟨rfl, -, -⟩ := Files.lookStrictly_ok looked
  cases seen with
  | none =>
      obtain ⟨-, rfl⟩ := pure_eq_ok.mp rest
      refine ⟨rfl, ?_, fun place => .inl rfl⟩
      rw [seen']
      simp
  | some entry =>
      obtain ⟨below, here, removed⟩ := Files.removeTree_done rest
      rw [FileName.plain] at below removed
      refine ⟨here, fun directory => ?_, fun place => ?_⟩
      · obtain ⟨-, status, -⟩ := Files.look_ok directory
        have stands := (stat_ok (status _ rfl)).2
        rw [here, removed, if_pos ⟨below, within_self _⟩] at stands
        contradiction
      · rw [removed]
        split
        · rename_i inside
          exact .inr ⟨rfl, inside.2⟩
        · exact .inl rfl

theorem clear_sound {output : String} (sound : s.files.Sound) (ran : clear output s = .ok u t) :
    t.files.Sound := by
  obtain ⟨seen, a, looked, rest⟩ := bind_eq_ok.mp ran
  obtain ⟨rfl, -, -⟩ := Files.lookStrictly_ok looked
  cases seen with
  | none =>
      obtain ⟨-, rfl⟩ := pure_eq_ok.mp rest
      exact sound
  | some entry =>
      obtain ⟨-, here, removed⟩ := Files.removeTree_done rest
      exact sound.pruned here removed

/-- A directory is published by renaming it, after what was at its new place was removed and directories
were made on the way there. -/
theorem publishTree_moves (stands : s.files.entry? (w.place s.files.here) = some .directory)
    (unpacked : w.unpacked = true) (ran : w.publish s = .ok path t) :
    path = w.output ∧ Files.holdsZero path.text = false ∧ ∃ cleared fs : FileSystem,
      cleared.here = s.files.here ∧ (s.files.Sound → cleared.Sound) ∧
      (∀ place, cleared.entry? place = s.files.entry? place ∨
        cleared.entry? place = none ∧ within (spot s.files.here w.output.text) place = true) ∧
      cleared.Grows (fun _ => False) ((Path.ofText w.output.text).Leads s.files.here) fs ∧
      fs.rename w.root.text w.output.text = .ok t.files ∧
      w.place s.files.here ≠ spot s.files.here w.output.text := by
  rw [publish_unpacked unpacked] at ran
  obtain ⟨_, m, clearing, rest⟩ := bind_eq_ok.mp ran
  obtain ⟨here, unseen, kept⟩ := clear_ok clearing
  obtain ⟨_, n, moving, given⟩ := bind_eq_ok.mp rest
  obtain ⟨rfl, rfl⟩ := pure_eq_ok.mp given
  have notFile : ∀ content, m.files.entry? (spot m.files.here w.root.text) ≠ some (.file content) := by
    intro content file
    rw [here] at file
    rcases kept (w.place s.files.here) with same | ⟨gone, -⟩
    · exact absurd (file.symm.trans (same.trans stands)) (by simp)
    · exact absurd (file.symm.trans gone) (by simp)
  obtain ⟨-, apart, fs, grown, done⟩ := Files.move_directory notFile unseen moving
  rw [Files.move_unseen _ unseen] at moving
  rw [here] at apart grown
  exact ⟨rfl, (Files.go_ok moving).1, m.files, fs, here, fun sound => clear_sound sound clearing, kept,
    grown, done, apart⟩

end Foundry.LibraryWriter
