import Foundry.Proofs.FileSystem.Change

/-! Places that no file takes. What a directory holds can be removed or moved away, and other things can
be copied or moved elsewhere; no file comes to stand in place of the directory by that. -/
namespace Foundry.FileSystem

variable {fs fs' : FileSystem} {top : Location} {A : Location → Prop}

theorem Sound.withoutTree (sound : fs.Sound) (top : Location) : (fs.withoutTree top).Sound :=
  sound.pruned rfl (entry?_withoutTree fs top)

/-- A directory does not lie in itself, but for the root. -/
theorem within_dropLast_self {place : Location} (below : place ≠ []) :
    within place place.dropLast = false := by
  rw [Bool.eq_false_iff]
  intro inside
  have length := (within_iff.mp inside).length_le
  have nonempty := List.length_pos_iff.mpr below
  rw [List.length_dropLast] at length
  omega

/-- A directory is left without anything in it. -/
theorem Sound.emptied (sound : fs.Sound) (stands : fs.entry? top = some .directory) :
    ((fs.withoutTree top).put top .directory).Sound := by
  by_cases root : top = []
  · subst root
    have only {place : Location}
        (stands : (FileSystem.entry? ((fs.withoutTree []).put [] .directory) place).isSome) : place = [] := by
      by_contra below
      rw [entry?_put_of_ne _ below, entry?_withoutTree, if_pos ⟨below, by simp [within_iff]⟩] at stands
      nomatch stands
    refine ⟨fun place stands => ?_, fun place stands => ?_, sound.here⟩
    · simp [only stands, Proper]
    · simp [only stands]
  · have parent : fs.entry? top.dropLast = some .directory := sound.parent top (by simp [stands])
    refine (sound.withoutTree top).put (sound.proper top (by simp [stands])) ⟨root, ?_⟩ fun _ => rfl
    rw [entry?_withoutTree, within_dropLast_self root, if_neg (by simp), parent]

/-- What stands after a tree was moved has names on its way. -/
theorem Sound.proper_moveTree {source target : Location} (sound : fs.Sound) (movable : source ≠ [])
    (below : target ≠ []) (proper : Proper target) (place : Location)
    (stands : (FileSystem.entry? (fs.moveTree source target) place).isSome) : Proper place := by
  rw [entry?_moveTree fs movable below] at stands
  by_cases inside : within target place = true
  · obtain ⟨rest, rfl⟩ := within_iff.mp inside
    rw [if_pos inside, List.drop_left] at stands
    have moved : Proper (source ++ rest) := sound.proper _ stands
    intro step member
    rcases List.mem_append.mp member with before | after
    · exact proper step before
    · exact moved step (List.mem_append_right _ after)
  · rw [if_neg inside] at stands
    split at stands
    · nomatch stands
    · exact sound.proper place stands

/-- What stands after a tree was moved stands in a directory: below the new place, in what was moved
with it; elsewhere, where it stood. -/
theorem Sound.parent_moveTree {source target : Location} (sound : fs.Sound) (movable : source ≠ [])
    (standing : fs.Standing target) (apart : within source target = false) (place : Location)
    (stands : (FileSystem.entry? (fs.moveTree source target) place).isSome) :
    FileSystem.entry? (fs.moveTree source target) place.dropLast = some .directory := by
  have entries := entry?_moveTree fs movable standing.below
  have kept {other : Location} (outside : within target other = false)
      (aside : ¬ (other ≠ [] ∧ within source other = true)) :
      FileSystem.entry? (fs.moveTree source target) other = fs.entry? other := by
    rw [entries, outside, if_neg Bool.false_ne_true, if_neg aside]
  by_cases inside : within target place = true
  · obtain ⟨rest, rfl⟩ := within_iff.mp inside
    rw [entries, if_pos inside, List.drop_left] at stands
    rcases List.eq_nil_or_concat rest with rfl | ⟨front, last, rfl⟩
    · rw [List.append_nil]
      have aside : ¬ within source target.dropLast = true := by
        intro above
        have inside' := within_trans above (within_iff.mpr (List.dropLast_prefix _))
        rw [apart] at inside'
        exact Bool.false_ne_true inside'
      rw [kept (within_dropLast_self standing.below) fun both => aside both.2]
      exact standing.inDirectory
    · have parent := sound.parent _ stands
      rw [List.concat_eq_append, ← List.append_assoc, List.dropLast_concat] at parent ⊢
      rw [entries, if_pos (within_append _ _), List.drop_left]
      exact parent
  · rw [Bool.not_eq_true] at inside
    have outside : within target place.dropLast = false := by
      rw [Bool.eq_false_iff] at inside ⊢
      exact fun below => inside (within_dropLast below)
    rw [entries, inside, if_neg Bool.false_ne_true] at stands
    split at stands
    · nomatch stands
    · rename_i aside
      rw [kept outside, sound.parent place stands]
      rintro ⟨below, above⟩
      refine aside ⟨?_, within_dropLast above⟩
      rintro rfl
      exact below rfl

theorem Sound.rename (sound : fs.Sound) (done : fs.rename source target = .ok fs') : fs'.Sound := by
  have proper : Proper (spot fs.here target) := sound.here.spot target
  obtain ⟨entry, -, movable, standing, ⟨-, rfl⟩ | ⟨apart, -, -, rfl⟩⟩ := rename_ok done
  · exact sound
  · exact ⟨sound.proper_moveTree movable standing.below proper,
      sound.parent_moveTree movable standing apart, sound.here⟩

/-- A sound file system with no file at a place. -/
structure Fileless (fs : FileSystem) (top : Location) : Prop where
  sound : fs.Sound
  free : ∀ content, fs.entry? top ≠ some (.file content)

/-- Outside of `A` only directories are made, and no file takes the place `top`. -/
structure Spares (top : Location) (A : Location → Prop) (before after : FileSystem) : Prop where
  changes : before.Changes A (fun _ => True) after
  fileless : before.Fileless top → after.Fileless top

namespace Spares

theorem refl (fs : FileSystem) : Spares top A fs fs := ⟨.refl fs, id⟩

theorem trans (first : Spares top A fs fs') (second : Spares top A fs' fs'') :
    Spares top A fs fs'' :=
  ⟨first.changes.trans second.changes, second.fileless ∘ first.fileless⟩

end Spares

theorem makeDirectory_spares (done : fs.makeDirectory path = .ok fs') : Spares top A fs fs' := by
  refine ⟨makeDirectory_changes done (.inr trivial), fun fileless => ⟨?_, fun content file => ?_⟩⟩
  · have grown : Extends A fs fs' := makeDirectory_extends done
    exact grown.sound fileless.sound
  · obtain ⟨standing, -, rfl⟩ := makeDirectory_ok done
    rw [entry?_put _ standing.below] at file
    split at file
    · nomatch file
    · exact fileless.free content file

theorem removeTree_spares (done : fs.removeTree path = .ok (fs', refused))
    (inside : ∀ place, within (spot fs.here path) place = true → A place) : Spares top A fs fs' := by
  refine ⟨removeTree_changes done inside, fun fileless => ?_⟩
  obtain ⟨stands, -, rfl⟩ := removeTree_ok done
  have left (content : Bytes) :
      FileSystem.entry? (fs.withoutTree (spot fs.here path)) top ≠ some (.file content) := by
    rw [entry?_withoutTree]
    split
    · nofun
    · exact fileless.free content
  split
  · exact ⟨fileless.sound.withoutTree _, left⟩
  · refine ⟨fileless.sound.emptied stands, fun content file => ?_⟩
    by_cases same : top = spot fs.here path
    · by_cases root : top = []
      · simp [root] at file
      · rw [same, entry?_put_self _ (same ▸ root)] at file
        nomatch file
    · rw [entry?_put_of_ne _ same] at file
      exact left content file

theorem removeFile_spares (done : fs.removeFile path = .ok fs') (inside : A (spot fs.here path)) :
    Spares top A fs fs' := by
  refine ⟨removeFile_changes done inside, fun fileless => ?_⟩
  obtain ⟨below, ⟨content, file⟩, rfl⟩ := removeFile_ok done
  have entries := entry?_without fs below
  have notDirectory : fs.entry? (spot fs.here path) ≠ some .directory := by simp [file]
  have pruned (place : Location) : FileSystem.entry? (fs.without (spot fs.here path)) place =
      if place ≠ [] ∧ within (spot fs.here path) place = true then none else fs.entry? place := by
    rw [entries]
    by_cases inside : within (spot fs.here path) place = true
    · obtain ⟨rest, rfl⟩ := within_iff.mp inside
      cases rest with
      | nil => simp [below]
      | cons step rest =>
          rw [fileless.sound.free_below notDirectory (List.cons_ne_nil step rest)]
          simp
    · have other : place ≠ spot fs.here path := by
        rintro rfl
        exact inside (within_self _)
      rw [if_neg other, if_neg fun both => inside both.2]
  refine ⟨fileless.sound.pruned rfl pruned, fun content' file' => ?_⟩
  · rw [entries] at file'
    split at file'
    · nomatch file'
    · exact fileless.free content' file'

/-- Writing a file elsewhere. -/
theorem write_spares (done : fs.write path content = .ok fs') (inside : A (spot fs.here path))
    (apart : fs.Fileless top → spot fs.here path ≠ top) : Spares top A fs fs' := by
  refine ⟨write_changes done inside, fun fileless => ⟨?_, fun content' file => ?_⟩⟩
  · have grown : Extends (fun _ => True) fs fs' := write_extends done trivial
    exact grown.sound fileless.sound
  · obtain ⟨-, -, rfl⟩ := write_ok done
    rw [entry?_put_of_ne _ (Ne.symm (apart fileless))] at file
    exact fileless.free content' file

/-- A file from below a place is not copied to that place, where a directory is. -/
theorem copy_spares (below : within top (spot fs.here source) = true)
    (readable : fs.read source = .ok content) (done : fs.write path content = .ok fs')
    (inside : A (spot fs.here path)) : Spares top A fs fs' := by
  refine write_spares done inside fun fileless same => ?_
  obtain ⟨-, file⟩ := read_ok readable
  obtain ⟨-, free, -⟩ := write_ok done
  obtain ⟨rest, there⟩ := within_iff.mp below
  rw [← there] at file
  cases rest with
  | nil => exact fileless.free content (by simpa using file)
  | cons step rest =>
      have directory := fileless.sound.above (List.cons_ne_nil step rest)
        (Option.isSome_of_eq_some file)
      exact free (same ▸ directory)

/-- What is moved away from below a place does not come to that place. -/
theorem rename_spares (below : within top (spot fs.here source) = true)
    (done : fs.rename source target = .ok fs')
    (old : ∀ place, within (spot fs.here source) place = true → A place)
    (new : ∀ place, within (spot fs.here target) place = true → A place) : Spares top A fs fs' := by
  refine ⟨rename_changes done old new, fun fileless => ⟨fileless.sound.rename done, fun content file => ?_⟩⟩
  obtain ⟨-, -, movable, standing, ⟨-, rfl⟩ | ⟨-, notAbove, -, rfl⟩⟩ := rename_ok done
  · exact fileless.free content file
  · have outside : ¬ within (spot fs.here target) top = true := by
      intro inside
      rw [within_trans inside below] at notAbove
      nomatch notAbove
    rw [entry?_moveTree _ movable standing.below, if_neg outside] at file
    split at file
    · nomatch file
    · exact fileless.free content file

end Foundry.FileSystem
