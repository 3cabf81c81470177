import Foundry.Proofs.FileSystem.Fileless
import Foundry.Proofs.Files.Move

/-! What becomes of a directory: it stays as long as nothing is removed or moved from above it, and once
no file can take its place, nothing is left of it when it is discarded. -/
namespace Foundry

open FileSystem Run

namespace FileSystem

variable {fs fs' fs'' : FileSystem} {top : Location}

/-- A path of which no step goes up does not pass below its own place. -/
theorem straight_of_descends (found : fs.last path = .ok (.name directory name false))
    (descends : ".." ∉ Text.split '/' path) :
    passesBelow (spot fs.here path) (startOf fs.here path) (Text.split '/' path) = false := by
  obtain ⟨-, -, proper, -⟩ := last_name found
  obtain ⟨before, steps, -⟩ := last_open found
  refine passesBelow_of_way (fun first rest whole nonempty => ?_) rfl
  obtain ⟨middle, last, rfl⟩ := (List.eq_nil_or_concat rest).resolve_left nonempty
  rw [List.concat_eq_append, ← List.append_assoc] at whole
  have same := (List.append_inj' (steps.symm.trans whole) rfl).2
  rw [Bool.eq_false_iff]
  intro inside
  have onWay : walk (startOf fs.here path) first <+:
      walk (walk (startOf fs.here path) first) middle := by
    refine walk_ascends (fun member => descends ?_) _
    rw [whole]
    simp [member]
  have length := (within_iff.mp inside).length_le
  rw [spot, whole, walk_append, walk_append, ← List.cons.inj same |>.1, proper.walk,
    List.length_append, List.length_singleton] at length
  exact absurd onWay.length_le (by omega)

/-- Where a directory was at a place, there is one still. -/
structure Upholds (top : Location) (before after : FileSystem) : Prop where
  here : after.here = before.here
  stands : before.Sound → before.entry? top = some .directory →
    after.Sound ∧ after.entry? top = some .directory

namespace Upholds

theorem refl (fs : FileSystem) : Upholds top fs fs := ⟨rfl, fun sound stands => ⟨sound, stands⟩⟩

theorem trans (first : Upholds top fs fs') (second : Upholds top fs' fs'') : Upholds top fs fs'' where
  here := second.here.trans first.here
  stands sound stands :=
    have ⟨sound', stands'⟩ := first.stands sound stands
    second.stands sound' stands'

end Upholds

instance (top : Location) : Relates (Upholds top) := ⟨.refl, .trans, Upholds.here⟩

theorem Extends.upholds (grown : Extends Z fs fs') : Upholds top fs fs' :=
  ⟨grown.here, fun sound stands => ⟨grown.sound sound, grown.directory stands⟩⟩

/-- What leaves no file in place of a directory upholds it, if it does not reach it. -/
theorem Spares.upholds (spared : Spares top A fs fs') (outside : ¬ A top) : Upholds top fs fs' := by
  refine ⟨spared.changes.here, fun sound stands => ⟨?_, spared.changes.directory outside stands⟩⟩
  exact (spared.fileless ⟨sound, fun content file => by simp [stands] at file⟩).sound

theorem write_upholds (done : fs.write path content = .ok fs') : Upholds top fs fs' :=
  (write_extends (Z := fun _ => True) done trivial).upholds

theorem makeDirectory_upholds (done : fs.makeDirectory path = .ok fs') : Upholds top fs fs' :=
  (makeDirectory_extends (Z := fun _ => True) done).upholds

theorem removeTree_upholds (outside : within (spot fs.here path) top = false)
    (done : fs.removeTree path = .ok (fs', refused)) : Upholds top fs fs' :=
  (removeTree_spares (A := fun place => within (spot fs.here path) place = true) done
    fun _ => id).upholds (by simp [outside])

theorem removeFile_upholds (done : fs.removeFile path = .ok fs') : Upholds top fs fs' := by
  refine ⟨(removeFile_changes (A := fun _ => True) (D := fun _ => True) done trivial).here,
    fun sound stands => ?_⟩
  obtain ⟨-, ⟨content, file⟩, -⟩ := removeFile_ok done
  have spared : Spares top (· = spot fs.here path) fs fs' := removeFile_spares done rfl
  refine (spared.upholds fun same => ?_).stands sound stands
  rw [same, file] at stands
  nomatch stands

theorem rename_upholds (outside : within (spot fs.here source) top = false)
    (done : fs.rename source target = .ok fs') : Upholds top fs fs' :=
  ⟨(rename_moves done).1, fun sound stands =>
    ⟨sound.rename done, rename_keeps sound done stands outside⟩⟩

end FileSystem

namespace Files

/-- A directory is discarded with everything in it, if no file has taken its place since its path led
to it. -/
theorem discardTree_fileless {fs : FileSystem} {t : Session} {path : String}
    (whole : holdsZero path = false) (descends : ".." ∉ Text.split '/' path)
    (named : ∃ above name, fs.last path = .ok (.name above name false)) (here : t.files.here = fs.here)
    (fileless : t.files.Fileless (spot t.files.here path)) :
    ∃ fs', discardTree path t = .ok () { t with files := fs' } ∧ fs'.here = t.files.here ∧
      ∀ place, fs'.entry? place =
        if within (spot t.files.here path) place = true then none else t.files.entry? place := by
  cases stands : t.files.entry? (spot t.files.here path) with
  | none =>
      have notDirectory : t.files.entry? (spot t.files.here path) ≠ some .directory := by
        rw [stands]
        nofun
      refine ⟨t.files, ?_, rfl, fun place => ?_⟩
      · cases done : t.files.removeTree path with
        | ok result => exact absurd (removeTree_ok done).1 notDirectory
        | error errno => simp [discardTree, bind, EStateM.bind, whole, done, pure, EStateM.pure]
      · split
        · rename_i inside
          obtain ⟨rest, rfl⟩ := within_iff.mp inside
          cases rest with
          | nil => simpa using stands
          | cons step rest =>
              exact fileless.sound.free_below notDirectory (List.cons_ne_nil step rest)
        · rfl
  | some entry =>
      cases entry with
      | file content => exact absurd stands (fileless.free content)
      | directory =>
          obtain ⟨above, name, found⟩ := named
          have found' : t.files.last path = .ok (.name above name false) := by
            refine last_stays here (.of_above descends fun place onWay _ => ?_) found
            change place <+: spot fs.here path at onWay
            rw [← here] at onWay
            obtain ⟨rest, whole⟩ := onWay
            rw [← whole] at stands
            cases rest with
            | nil => simpa using stands
            | cons step rest =>
                exact fileless.sound.above (List.cons_ne_nil step rest) (Option.isSome_of_eq_some stands)
          have removed := removeTree_of_straight found' stands (straight_of_descends found' descends)
          have below : spot t.files.here path ≠ [] := by
            rw [(last_name found').1]
            simp
          refine ⟨t.files.withoutTree (spot t.files.here path), ?_, rfl, entry?_withoutTree_below _ below⟩
          simp [discardTree, replace, bind, EStateM.bind, whole, removed]

end Files

end Foundry
