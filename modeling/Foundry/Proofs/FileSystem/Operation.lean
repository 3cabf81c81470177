import Foundry.FileSystem.Operation
import Foundry.Proofs.FileSystem.Walk

/-! What an operation does that succeeds: where it works, what it found there, and the file system
that it leaves. -/
namespace Foundry.FileSystem

variable {fs fs' : FileSystem}

/-- A location below the root whose directory is there. -/
structure Standing (fs : FileSystem) (place : Location) : Prop where
  below : place ≠ []
  inDirectory : fs.entry? place.dropLast = some .directory

theorem last_standing (found : fs.last path = .ok (.name directory name slash)) :
    spot fs.here path = directory ++ [name] ∧ fs.Standing (spot fs.here path) := by
  obtain ⟨same, stands, -, -⟩ := last_name found
  refine ⟨same, ?_⟩
  rw [same]
  exact ⟨by simp, by simpa using stands⟩

theorem read_ok (done : fs.read path = .ok content) :
    fs.locate path = .ok (spot fs.here path) ∧
      fs.entry? (spot fs.here path) = some (.file content) := by
  obtain ⟨entry, found, done⟩ := except_bind_eq_ok.mp done
  obtain ⟨located, stands⟩ := stat_ok found
  split at done
  · exact ⟨located, Except.ok.inj done ▸ stands⟩
  · contradiction

theorem write_ok (done : fs.write path content = .ok fs') :
    fs.Standing (spot fs.here path) ∧ fs.entry? (spot fs.here path) ≠ some .directory ∧
      fs' = fs.put (spot fs.here path) (.file content) := by
  obtain ⟨step, found, done⟩ := except_bind_eq_ok.mp done
  split at done
  · obtain ⟨same, standing⟩ := last_standing found
    rw [← same] at done
    split at done
    · contradiction
    · rename_i free
      exact ⟨standing, fun taken => free taken, (Except.ok.inj done).symm⟩
  · contradiction

theorem write_last (done : fs.write path content = .ok fs') :
    ∃ directory name, fs.last path = .ok (.name directory name false) := by
  obtain ⟨step, found, done⟩ := except_bind_eq_ok.mp done
  split at done
  · exact ⟨_, _, found⟩
  · contradiction

/-- A file is written under the base name of its path. -/
theorem write_name (done : fs.write path content = .ok fs') :
    IsName (Text.baseName path) ∧
      ∃ directory, spot fs.here path = directory ++ [Text.baseName path] := by
  obtain ⟨directory, name, found⟩ := write_last done
  obtain ⟨same, -, proper, last⟩ := last_name found
  rw [(last rfl).2]
  exact ⟨proper, _, same⟩

/-- What was written can be looked at. -/
theorem stat_of_write (done : fs.write path content = .ok fs')
    (stands : fs.entry? (spot fs.here path) = some entry) : fs.stat path = .ok entry := by
  obtain ⟨directory, name, found⟩ := write_last done
  obtain ⟨same, -, -, located⟩ := last_name found
  rw [same] at stands
  exact stat_of_locate (located rfl).1 stands

theorem create_ok (done : fs.create path = .ok fs') :
    fs.Standing (spot fs.here path) ∧ fs.entry? (spot fs.here path) = none ∧
      fs' = fs.put (spot fs.here path) (.file []) := by
  obtain ⟨step, found, done⟩ := except_bind_eq_ok.mp done
  split at done
  · obtain ⟨same, standing⟩ := last_standing found
    rw [← same] at done
    split at done
    · contradiction
    · rename_i free
      exact ⟨standing, free, (Except.ok.inj done).symm⟩
  · contradiction
  · contradiction

theorem makeDirectory_ok (done : fs.makeDirectory path = .ok fs') :
    fs.Standing (spot fs.here path) ∧ fs.entry? (spot fs.here path) = none ∧
      fs' = fs.put (spot fs.here path) .directory := by
  obtain ⟨step, found, done⟩ := except_bind_eq_ok.mp done
  split at done
  · obtain ⟨same, standing⟩ := last_standing found
    rw [← same] at done
    split at done
    · contradiction
    · rename_i free
      exact ⟨standing, free, (Except.ok.inj done).symm⟩
  · contradiction

/-- The path of a directory that was just made, if nothing follows its last name. -/
theorem last_of_makeDirectory (done : fs.makeDirectory path = .ok fs')
    (open' : Text.baseName path ≠ "") : ∃ above name, fs.last path = .ok (.name above name false) := by
  obtain ⟨step, found, done⟩ := except_bind_eq_ok.mp done
  cases step with
  | name above name slash =>
      obtain ⟨_, _, _, _, _, _, _, _, closed, _⟩ := last_steps found
      rw [Text.getLast?_split, Option.some_inj, iff_false_right open', Bool.not_eq_true] at closed
      exact ⟨above, name, closed ▸ found⟩
  | _ => contradiction

theorem removeFile_ok (done : fs.removeFile path = .ok fs') :
    spot fs.here path ≠ [] ∧ (∃ content, fs.entry? (spot fs.here path) = some (.file content)) ∧
      fs' = fs.without (spot fs.here path) := by
  obtain ⟨step, found, done⟩ := except_bind_eq_ok.mp done
  split at done
  · obtain ⟨same, standing⟩ := last_standing found
    rw [← same] at done
    split at done
    · contradiction
    · contradiction
    · rename_i content stands
      split at done
      · contradiction
      · exact ⟨standing.below, ⟨content, stands⟩, (Except.ok.inj done).symm⟩
  · contradiction

/-- A directory that can be removed is named by the last step of its path, and nothing that was in it
is on the way. -/
theorem keptDirectory_none (named : fs.keptDirectory path place = .ok none) :
    ∃ step, fs.last path = .ok step ∧ (∃ directory name slash, step = .name directory name slash) ∧
      passesBelow place (startOf fs.here path) (Text.split '/' path) = false := by
  obtain ⟨⟨start, steps⟩, route, named⟩ := except_bind_eq_ok.mp named
  obtain ⟨rfl, rfl⟩ := route_ok route
  dsimp only at named
  split at named
  · nomatch named
  · rename_i straight
    obtain ⟨step, found, same⟩ := except_bind_eq_ok.mp named
    cases step with
    | name directory name slash =>
        exact ⟨_, found, ⟨directory, name, slash, rfl⟩, by simpa using straight⟩
    | _ => nomatch same

theorem removeTree_ok (done : fs.removeTree path = .ok (fs', refused)) :
    fs.entry? (spot fs.here path) = some .directory ∧
      (refused = none → spot fs.here path ≠ []) ∧
      fs' = if refused = none then fs.withoutTree (spot fs.here path)
        else (fs.withoutTree (spot fs.here path)).put (spot fs.here path) .directory := by
  obtain ⟨place, located, done⟩ := except_bind_eq_ok.mp done
  obtain rfl := locate_ok located
  split at done
  · contradiction
  · contradiction
  · rename_i stands
    refine ⟨stands, ?_⟩
    obtain ⟨kept, named, done⟩ := except_bind_eq_ok.mp done
    split at done
    · obtain ⟨rfl, rfl⟩ := Prod.mk.inj (Except.ok.inj done)
      refine ⟨fun _ => ?_, rfl⟩
      obtain ⟨_, found, ⟨_, _, _, rfl⟩, -⟩ := keptDirectory_none named
      exact (last_standing found).2.below
    · obtain ⟨rfl, rfl⟩ := Prod.mk.inj (Except.ok.inj done)
      exact ⟨by simp, rfl⟩

/-- Renaming moves a tree to a place that is neither above nor below it, or does nothing. -/
theorem rename_ok (done : fs.rename source target = .ok fs') :
    ∃ entry, fs.entry? (spot fs.here source) = some entry ∧ spot fs.here source ≠ [] ∧
      fs.Standing (spot fs.here target) ∧
      (spot fs.here source = spot fs.here target ∧ fs' = fs ∨
        within (spot fs.here source) (spot fs.here target) = false ∧
        within (spot fs.here target) (spot fs.here source) = false ∧
        fs.replaces entry (spot fs.here target) = .ok () ∧
        fs' = fs.moveTree (spot fs.here source) (spot fs.here target)) := by
  obtain ⟨step, found, done⟩ := except_bind_eq_ok.mp done
  obtain ⟨step', found', done⟩ := except_bind_eq_ok.mp done
  split at done
  · obtain ⟨old, movable⟩ := last_standing found
    obtain ⟨new, standing⟩ := last_standing found'
    simp only [← old, ← new] at done
    split at done
    · contradiction
    · rename_i entry stands
      refine ⟨entry, stands, movable.below, standing, ?_⟩
      split at done
      · contradiction
      · split at done
        · rename_i same
          exact .inl ⟨same, (Except.ok.inj done).symm⟩
        · split at done
          · contradiction
          · split at done
            · contradiction
            · rename_i notInside notAbove
              obtain ⟨⟨⟩, replaced, done⟩ := except_bind_eq_ok.mp done
              exact .inr ⟨by simpa using notInside, by simpa using notAbove, replaced,
                (Except.ok.inj done).symm⟩
  · contradiction

/-- The new place is named by the last step of its path. -/
theorem rename_last (done : fs.rename source target = .ok fs') :
    ∃ directory name slash, fs.last target = .ok (.name directory name slash) := by
  obtain ⟨step, found, done⟩ := except_bind_eq_ok.mp done
  obtain ⟨step', found', done⟩ := except_bind_eq_ok.mp done
  split at done
  · exact ⟨_, _, _, found'⟩
  · contradiction

/-- What is there can be renamed to a place where nothing is, if none of the two lies in the other. -/
theorem rename_of_free (found : fs.last source = .ok (.name directory name false))
    (found' : fs.last target = .ok (.name directory' name' false))
    (stands : fs.entry? (spot fs.here source) = some entry)
    (free : fs.entry? (spot fs.here target) = none)
    (notInside : within (spot fs.here source) (spot fs.here target) = false)
    (notAbove : within (spot fs.here target) (spot fs.here source) = false) :
    ∃ fs', fs.rename source target = .ok fs' := by
  have old := (last_name found).1
  have new := (last_name found').1
  have different : spot fs.here source ≠ spot fs.here target := by
    intro same
    rw [same, free] at stands
    cases stands
  rw [old, new] at different notInside notAbove
  rw [old] at stands
  rw [new] at free
  refine ⟨fs.moveTree (directory ++ [name]) (directory' ++ [name']), ?_⟩
  simp [rename, bind, Except.bind, found, found', stands, different, notInside, notAbove, replaces, free]

/-- All that was at the old place and below it is at the new one, which is not above the old one. -/
theorem rename_moves (done : fs.rename source target = .ok fs') :
    fs'.here = fs.here ∧
      (∀ rest, fs'.entry? (spot fs.here target ++ rest) = fs.entry? (spot fs.here source ++ rest)) ∧
      (spot fs.here source = spot fs.here target ∨
        within (spot fs.here target) (spot fs.here source) = false) := by
  obtain ⟨entry, -, movable, standing, same | ⟨-, notAbove, -, rfl⟩⟩ := rename_ok done
  · obtain ⟨same, rfl⟩ := same
    exact ⟨rfl, fun rest => by rw [same], .inl same⟩
  · refine ⟨rfl, fun rest => ?_, .inr notAbove⟩
    rw [entry?_moveTree _ movable standing.below, if_pos (within_append _ _), List.drop_left]

/-- Nothing is left at another place, which does not lie above or below the new one. -/
theorem rename_leaves (done : fs.rename source target = .ok fs')
    (apart : spot fs.here source ≠ spot fs.here target) :
    within (spot fs.here source) (spot fs.here target) = false ∧
      within (spot fs.here target) (spot fs.here source) = false ∧
      ∀ rest, fs'.entry? (spot fs.here source ++ rest) = none := by
  obtain ⟨entry, -, movable, standing, ⟨same, -⟩ | ⟨notInside, notAbove, -, rfl⟩⟩ := rename_ok done
  · exact absurd same apart
  · refine ⟨notInside, notAbove, fun rest => ?_⟩
    have below : spot fs.here source ++ rest ≠ [] := by simp [movable]
    have outside := within_append_false notAbove notInside rest
    rw [entry?_moveTree _ movable standing.below, outside, if_neg Bool.false_ne_true,
      if_pos ⟨below, within_append _ _⟩]

theorem follow_blanks {blanks : List String} (stands : fs.entry? place = some .directory)
    (blank : ∀ step ∈ blanks, step = "") : fs.follow place blanks = .ok place := by
  induction blanks with
  | nil => rfl
  | cons step rest ih =>
      obtain rfl := blank step (by simp)
      simp [follow, stands, ih fun step member => blank step (by simp [member])]

/-- The directory that the last step of a path names is seen. -/
theorem stat_of_last (found : fs.last path = .ok (.name directory name slash))
    (stands : fs.entry? (spot fs.here path) = some .directory) : fs.stat path = .ok .directory := by
  obtain ⟨before, blanks, whole, blank, followed, above, proper, short, -, route⟩ := last_steps found
  obtain ⟨there, -, -, -⟩ := last_name found
  rw [there] at stands
  have next : fs.follow directory [name] = .ok (directory ++ [name]) := by
    simp [follow, above, proper.nonempty, proper.notSelf, proper.notAbove, Nat.not_lt_of_le short]
  have located : fs.locate path = .ok (directory ++ [name]) := by
    simp only [locate, bind, Except.bind, route, whole, follow_append, followed, next,
      follow_blanks stands blank]
  exact stat_of_locate located stands

/-- A file that can be read is named by the last step of its path. -/
theorem last_of_read (readable : fs.read path = .ok content) (notAbove : Text.baseName path ≠ "..") :
    ∃ directory, fs.last path = .ok (.name directory (Text.baseName path) false) ∧
      spot fs.here path = directory ++ [Text.baseName path] := by
  obtain ⟨located, stands⟩ := read_ok readable
  obtain ⟨⟨start, steps⟩, route, followed⟩ := except_bind_eq_ok.mp located
  obtain ⟨rfl, rfl⟩ := route_ok route
  obtain ⟨before, whole⟩ : ∃ before, Text.split '/' path = before ++ [Text.baseName path] :=
    List.getLast?_eq_some_iff.mp (Text.getLast?_split path)
  simp only [whole, follow_append] at followed
  obtain ⟨directory, above, followed⟩ := except_bind_eq_ok.mp followed
  have inDirectory := follow_cons followed
  simp only [follow, inDirectory, notAbove, if_false] at followed
  split at followed
  · obtain rfl := Except.ok.inj followed
    simp [inDirectory] at stands
  · rename_i real
    split at followed
    · contradiction
    · rename_i short
      obtain same := Except.ok.inj followed
      refine ⟨directory, ?_, same.symm⟩
      simp only [not_or] at real
      simp [last, route, bind, Except.bind, whole, above, inDirectory, real, notAbove, short]

/-- Where a file can be read it can be written too. -/
theorem write_of_read (readable : fs.read path = .ok old) (notAbove : Text.baseName path ≠ "..")
    (content : Bytes) : ∃ fs', fs.write path content = .ok fs' := by
  obtain ⟨directory, last, there⟩ := last_of_read readable notAbove
  have stands := (read_ok readable).2
  rw [there] at stands
  refine ⟨fs.put (directory ++ [Text.baseName path]) (.file content), ?_⟩
  simp [write, bind, Except.bind, last, stands]

end Foundry.FileSystem
