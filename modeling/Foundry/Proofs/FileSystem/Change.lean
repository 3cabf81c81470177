import Foundry.Proofs.FileSystem.Extension
import Foundry.Proofs.FileSystem.PathSpot

/-! Where an operation may change what a location holds. Every other location holds afterwards what
it held before, unless a directory was made there. -/
namespace Foundry

/-- The first path is the beginning of the second one, or all of it. -/
def Path.Begins (first path : Path) : Prop :=
  first.anchor = path.anchor ∧ first.parts <+: path.parts

/-- A location that a path leads through or to. -/
def Path.Leads (here : Location) (path : Path) (place : Location) : Prop :=
  ∃ first : Path, first.Begins path ∧ place = FileSystem.spot here first.text

namespace FileSystem

/-- Outside of `A`, the second file system holds what the first one holds, but for directories that
were made in places of `D` where nothing was. -/
structure Changes (A D : Location → Prop) (before after : FileSystem) : Prop where
  here : after.here = before.here
  places : ∀ place, ¬ A place → after.entry? place = before.entry? place ∨
    D place ∧ before.entry? place = none ∧ after.entry? place = some .directory

/-- A file system that only grew: files were written in places of `Z`, and directories were made in
places of `D`. -/
structure Grows (Z D : Location → Prop) (before after : FileSystem) : Prop
    extends Extends Z before after where
  made : ∀ place, after.entry? place = some .directory →
    before.entry? place = some .directory ∨ D place

variable {A A' D D' Z Z' : Location → Prop} {fs fs' fs'' : FileSystem}

namespace Changes

theorem refl (fs : FileSystem) : Changes A D fs fs := ⟨rfl, fun _ _ => .inl rfl⟩

theorem trans (first : Changes A D fs fs') (second : Changes A D fs' fs'') : Changes A D fs fs'' where
  here := second.here.trans first.here
  places place outside := by
    rcases second.places place outside with same | ⟨inside, free, directory⟩
    · rw [same]
      exact first.places place outside
    · rcases first.places place outside with same | ⟨-, -, taken⟩
      · exact .inr ⟨inside, same ▸ free, directory⟩
      · rw [taken] at free
        contradiction

theorem mono (wider : ∀ place, A place → A' place) (wider' : ∀ place, D place → D' place)
    (changed : Changes A D fs fs') : Changes A' D' fs fs' where
  here := changed.here
  places place outside :=
    (changed.places place fun inside => outside (wider place inside)).imp_right fun made =>
      ⟨wider' place made.1, made.2⟩

/-- Where directories could be made only in places that are taken, none were made. -/
theorem exact (changed : Changes A D fs fs')
    (taken : ∀ place, D place → A place ∨ fs.entry? place = some .directory) (outside : ¬ A place) :
    fs'.entry? place = fs.entry? place := by
  rcases changed.places place outside with same | ⟨made, free, -⟩
  · exact same
  · have stands := (taken place made).resolve_left outside
    rw [free] at stands
    contradiction

/-- Directories outside stay what they are. -/
theorem directory (changed : Changes A D fs fs') (outside : ¬ A place)
    (stands : fs.entry? place = some .directory) : fs'.entry? place = some .directory := by
  rcases changed.places place outside with same | ⟨-, -, directory⟩
  · rw [same, stands]
  · exact directory

/-- Outside there are the same files. -/
theorem file (changed : Changes A D fs fs') (outside : ¬ A place) : fs'.file? place = fs.file? place := by
  rcases changed.places place outside with same | ⟨-, free, directory⟩
  · exact file?_congr same
  · simp [file?, free, directory]

end Changes

namespace Grows

theorem refl (fs : FileSystem) : Grows Z D fs fs := ⟨.refl fs, fun _ => .inl⟩

theorem trans (first : Grows Z D fs fs') (second : Grows Z D fs' fs'') : Grows Z D fs fs'' where
  toExtends := first.toExtends.trans second.toExtends
  made place directory := (second.made place directory).elim (first.made place) .inr

theorem changes (grown : Grows Z D fs fs') : Changes Z D fs fs' where
  here := grown.here
  places place outside := by
    have becomes := grown.becomes place
    have made := grown.made place
    generalize fs.entry? place = before at becomes made
    generalize fs'.entry? place = after at becomes made
    cases becomes with
    | kept => exact .inl rfl
    | made => exact .inr ⟨(made rfl).resolve_left (by simp), rfl, rfl⟩
    | written _ _ allowed => exact absurd allowed outside

end Grows

theorem changes_put (inside : A place) (entry : Entry) : Changes A D fs (fs.put place entry) := by
  refine ⟨rfl, fun other outside => .inl (entry?_put_of_ne _ ?_ entry)⟩
  rintro rfl
  exact outside inside

theorem write_changes (done : fs.write path content = .ok fs') (inside : A (spot fs.here path)) :
    Changes A D fs fs' := by
  obtain ⟨-, -, rfl⟩ := write_ok done
  exact changes_put inside _

theorem removeFile_changes (done : fs.removeFile path = .ok fs') (inside : A (spot fs.here path)) :
    Changes A D fs fs' := by
  obtain ⟨below, -, rfl⟩ := removeFile_ok done
  refine ⟨rfl, fun other outside => .inl ?_⟩
  rw [entry?_without _ below, if_neg]
  rintro rfl
  exact outside inside

theorem removeTree_changes (done : fs.removeTree path = .ok (fs', refused))
    (inside : ∀ place, within (spot fs.here path) place = true → A place) : Changes A D fs fs' := by
  obtain ⟨-, -, rfl⟩ := removeTree_ok done
  have emptied : Changes A D fs (fs.withoutTree (spot fs.here path)) := by
    refine ⟨rfl, fun other outside => .inl ?_⟩
    rw [entry?_withoutTree, if_neg fun both => outside (inside _ both.2)]
  split
  · exact emptied
  · exact emptied.trans (changes_put (inside _ (within_self _)) _)

/-- Renaming changes what is at the two places and below them. -/
theorem rename_changes (done : fs.rename source target = .ok fs')
    (old : ∀ place, within (spot fs.here source) place = true → A place)
    (new : ∀ place, within (spot fs.here target) place = true → A place) : Changes A D fs fs' := by
  obtain ⟨-, -, movable, standing, ⟨-, rfl⟩ | ⟨-, -, -, rfl⟩⟩ := rename_ok done
  · exact .refl _
  · refine ⟨rfl, fun other outside => .inl ?_⟩
    rw [entry?_moveTree _ movable standing.below, if_neg fun inside => outside (new _ inside),
      if_neg fun both => outside (old _ both.2)]

theorem makeDirectory_changes (done : fs.makeDirectory path = .ok fs')
    (inside : A (spot fs.here path) ∨ D (spot fs.here path)) : Changes A D fs fs' := by
  obtain ⟨standing, free, rfl⟩ := makeDirectory_ok done
  rcases inside with inside | inside
  · exact changes_put inside _
  · refine ⟨rfl, fun other _ => ?_⟩
    by_cases same : other = spot fs.here path
    · subst same
      exact .inr ⟨inside, free, entry?_put_self _ standing.below _⟩
    · exact .inl (entry?_put_of_ne _ same _)

theorem makeDirectory_grows (done : fs.makeDirectory path = .ok fs') (inside : D (spot fs.here path)) :
    Grows Z D fs fs' := by
  refine ⟨makeDirectory_extends done, fun place directory => ?_⟩
  obtain ⟨-, -, rfl⟩ := makeDirectory_ok done
  by_cases same : place = spot fs.here path
  · exact .inr (same ▸ inside)
  · rw [entry?_put_of_ne _ same] at directory
    exact .inl directory

theorem grows_of_file (standing : fs.Standing place) (grown : Extends Z fs (fs.put place (.file content))) :
    Grows Z D fs (fs.put place (.file content)) := by
  refine ⟨grown, fun other directory => .inl ?_⟩
  rw [entry?_put _ standing.below] at directory
  split at directory
  · nomatch Option.some.inj directory
  · exact directory

theorem write_grows (done : fs.write path content = .ok fs') (inside : Z (spot fs.here path)) :
    Grows Z D fs fs' := by
  have grown : Extends Z fs fs' := write_extends done inside
  obtain ⟨standing, -, rfl⟩ := write_ok done
  exact grows_of_file standing grown

theorem create_grows (done : fs.create path = .ok fs') (inside : Z (spot fs.here path)) :
    Grows Z D fs fs' := by
  have grown : Extends Z fs fs' := create_extends done inside
  obtain ⟨standing, -, rfl⟩ := create_ok done
  exact grows_of_file standing grown

end FileSystem

namespace Path

theorem Begins.refl (path : Path) : path.Begins path := ⟨rfl, List.prefix_refl _⟩

theorem parent_begins (path : Path) : path.parent.Begins path := ⟨rfl, List.dropLast_prefix _⟩

theorem Begins.trans {first second third : Path} (above : first.Begins second)
    (below : second.Begins third) : first.Begins third :=
  ⟨above.1.trans below.1, above.2.trans below.2⟩

theorem Begins.clean {first path : Path} (begins : first.Begins path) (clean : path.Clean) :
    first.Clean :=
  ⟨fun member => clean.nonempty (begins.2.subset member),
    fun member => clean.notSelf (begins.2.subset member),
    fun part member => clean.clean part (begins.2.subset member)⟩

/-- A path that goes on by a name leads to one place more. -/
theorem leads_child {here : Location} {path : Path} {name : String} {P : Location → Prop}
    (proper : FileSystem.IsName name) (above : ∀ place, path.Leads here place → P place)
    (there : P (FileSystem.spot here (path.child name).text)) :
    ∀ place, (path.child name).Leads here place → P place := by
  rintro _ ⟨first, ⟨anchor, parts⟩, rfl⟩
  rw [child_name proper] at anchor parts
  rcases List.prefix_concat_iff.mp parts with whole | before
  · have same : first = path.child name := by
      rw [child_name proper, ← anchor, ← whole]
    exact same ▸ there
  · exact above _ ⟨first, ⟨anchor, before⟩, rfl⟩

end Path

/-- A path whose steps can be followed up to its last name leads through directories. -/
theorem FileSystem.leads_of_follow {fs : FileSystem} {path last : String} {before : List String}
    (steps : Text.split '/' path = before ++ [last])
    (followed : fs.follow (startOf fs.here path) before = .ok reached)
    (stands : fs.entry? reached = some .directory)
    (leads : (Path.ofText path).Leads fs.here place) :
    place = spot fs.here path ∨ fs.entry? place = some .directory := by
  obtain ⟨first, begins, rfl⟩ := leads
  obtain ⟨raw, onWay, same⟩ := List.prefix_filter_iff.mp begins.2
  have there : spot fs.here first.text = walk (startOf fs.here path) raw := by
    rw [Path.spot_text _ (begins.clean (Path.ofText_clean path)), Path.start, begins.1, same,
      walk_filter]
    congr 1
    simp only [Path.ofText, startOf, Path.anchor_ofText]
    cases Text.startsWith path "/" <;> simp
  rw [steps] at onWay
  rcases List.prefix_concat_iff.mp onWay with whole | ⟨rest, whole⟩
  · rw [there, whole, ← steps]
    exact .inl rfl
  · right
    rw [there]
    rw [← whole, follow_append] at followed
    obtain ⟨between, first, later⟩ := except_bind_eq_ok.mp followed
    rw [← follow_ok first]
    cases rest with
    | nil => exact Except.ok.inj later ▸ stands
    | cons _ _ => exact follow_cons later

namespace FileSystem

variable {fs : FileSystem}

/-- Every location that a path leads through before its own is a directory. -/
def HasWay (fs : FileSystem) (path : String) : Prop :=
  ∀ place, (Path.ofText path).Leads fs.here place →
    place = spot fs.here path ∨ fs.entry? place = some .directory

theorem hasWay_of_last {path : String} (found : fs.last path = .ok (.name above name false)) :
    fs.HasWay path := by
  obtain ⟨before, steps, followed⟩ := last_open found
  exact fun place => leads_of_follow steps followed (last_name found).2.1

/-- All of the way is there to a name in a directory that is there. -/
theorem hasWay_joinPaths {above name : String} (stands : fs.stat above = .ok .directory)
    (open' : Text.baseName above ≠ "") (proper : IsName name) : fs.HasWay (joinPaths above name) := by
  obtain ⟨located, directory⟩ := stat_ok stands
  obtain ⟨steps, start⟩ := split_joinPaths_open fs.here open' proper.relative
  rw [Text.split_of_not_mem proper.clean] at steps
  have followed := follow_of_locate located
  rw [← start] at followed
  exact fun place => leads_of_follow steps followed directory

end FileSystem

end Foundry
