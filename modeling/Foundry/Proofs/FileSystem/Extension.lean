import Foundry.Proofs.FileSystem.Operation

/-! File systems in which every entry stands in a directory, and file systems that only grow: nothing
is removed, directories stay what they are, and files are written in places that are said
beforehand. -/
namespace Foundry.FileSystem

/-- Every entry stands in a directory, and every step on the way to it is a name. -/
structure Sound (fs : FileSystem) : Prop where
  proper : ∀ place, (fs.entry? place).isSome → Proper place
  parent : ∀ place, (fs.entry? place).isSome → fs.entry? place.dropLast = some .directory
  here : Proper fs.here

/-- What becomes of what a location holds, where a file may be written if `allowed`. -/
inductive Becomes (allowed : Prop) : Option Entry → Option Entry → Prop where
  | kept (entry) : Becomes allowed entry entry
  | made : Becomes allowed none (some .directory)
  | written (before) (content) : allowed → before ≠ some .directory →
      Becomes allowed before (some (.file content))

/-- A file system after directories were made where nothing was, and files were written in places
of `Z`. -/
structure Extends (Z : Location → Prop) (before after : FileSystem) : Prop where
  here : after.here = before.here
  becomes : ∀ place, Becomes (Z place) (before.entry? place) (after.entry? place)
  sound : before.Sound → after.Sound

/-- The content of the file that a location holds. -/
def file? (fs : FileSystem) (place : Location) : Option Bytes :=
  match fs.entry? place with
  | some (.file content) => some content
  | _ => none

variable {Z Z' : Location → Prop} {fs fs' : FileSystem}

theorem file?_eq_some : fs.file? place = some content ↔ fs.entry? place = some (.file content) := by
  unfold file?
  split
  · rename_i here
    simp [here]
  · rename_i other
    constructor
    · intro impossible
      contradiction
    · intro here
      exact absurd here (other content)

theorem file?_congr (same : fs'.entry? place = fs.entry? place') :
    fs'.file? place = fs.file? place' := by
  simp [file?, same]

namespace Sound

theorem of_entries (stand : ∀ entry ∈ fs.entries, Proper entry.1 ∧
    fs.entry? entry.1.dropLast = some .directory) (here : Proper fs.here) : fs.Sound := by
  have each (place : Location) (stands : (fs.entry? place).isSome) :
      Proper place ∧ fs.entry? place.dropLast = some .directory := by
    by_cases root : place = []
    · subst root
      exact ⟨by simp [Proper], by simp⟩
    · rw [fs.entry?_below root, List.lookup_isSome_iff] at stands
      obtain ⟨entry, member, same⟩ := stands
      rw [beq_iff_eq.mp same]
      exact stand entry member
  exact ⟨fun place stands => (each place stands).1, fun place stands => (each place stands).2, here⟩

/-- Every location on the way to an entry is a directory. -/
theorem above (sound : fs.Sound) {place rest : Location} (below : rest ≠ [])
    (stands : (fs.entry? (place ++ rest)).isSome) : fs.entry? place = some .directory := by
  induction rest generalizing place with
  | nil => contradiction
  | cons step rest ih =>
      have child : (fs.entry? (place ++ [step])).isSome := by
        cases rest with
        | nil => exact stands
        | cons next more =>
            have further : (fs.entry? (place ++ [step] ++ next :: more)).isSome := by simpa using stands
            have directory := ih (List.cons_ne_nil next more) further
            simp [directory]
      simpa using sound.parent _ child

/-- Nothing stands below what is not a directory. -/
theorem free_below (sound : fs.Sound) (free : fs.entry? place ≠ some .directory) (below : rest ≠ []) :
    fs.entry? (place ++ rest) = none := by
  rw [← Option.not_isSome_iff_eq_none]
  exact fun stands => free (sound.above below stands)

theorem proper_of_file (sound : fs.Sound) {place steps : Location}
    (file : fs.file? (place ++ steps) = some content) : Proper steps := fun name member =>
  sound.proper _ (Option.isSome_of_eq_some (file?_eq_some.mp file)) name
    (List.mem_append_right _ member)

/-- Removing everything below a place and the place itself. -/
theorem pruned (sound : fs.Sound) (here : fs'.here = fs.here)
    (entries : ∀ place, fs'.entry? place =
      if place ≠ [] ∧ within top place = true then none else fs.entry? place) : fs'.Sound := by
  have kept {place : Location} (stands : (fs'.entry? place).isSome) :
      (fs.entry? place).isSome ∧ ¬ (place ≠ [] ∧ within top place = true) := by
    rw [entries] at stands
    split at stands
    · contradiction
    · exact ⟨stands, ‹_›⟩
  refine ⟨fun place stands => sound.proper place (kept stands).1, fun place stands => ?_, here ▸ sound.here⟩
  obtain ⟨stands', outside⟩ := kept stands
  rw [entries, if_neg, sound.parent place stands']
  rintro ⟨below, inside⟩
  refine outside ⟨?_, within_dropLast inside⟩
  rintro rfl
  exact below rfl

/-- Putting an entry into a directory, but no file in place of a directory. -/
theorem put (sound : fs.Sound) (proper : Proper place) (standing : fs.Standing place)
    (free : fs.entry? place = some .directory → entry = .directory) : (fs.put place entry).Sound := by
  have parent : place.dropLast ≠ place := by
    intro same
    have shorter := congrArg List.length same
    rw [List.length_dropLast] at shorter
    have := List.length_pos_iff.mpr standing.below
    omega
  refine ⟨fun other stands => ?_, fun other stands => ?_, sound.here⟩
  · by_cases same : other = place
    · exact same ▸ proper
    · rw [entry?_put_of_ne _ same] at stands
      exact sound.proper other stands
  · by_cases same : other = place
    · rw [same, entry?_put_of_ne _ parent]
      exact standing.inDirectory
    · rw [entry?_put_of_ne _ same] at stands
      have inDirectory := sound.parent other stands
      by_cases child : other.dropLast = place
      · rw [child, entry?_put_self _ standing.below, free (child ▸ inDirectory)]
      · rw [entry?_put_of_ne _ child, inDirectory]

end Sound

/-- Nothing is in the directory. -/
def Vacant (fs : FileSystem) (top : Location) : Prop :=
  fs.entry? top = some .directory ∧ ∀ name, fs.entry? (top ++ [name]) = none

theorem Vacant.below (vacant : fs.Vacant top) (sound : fs.Sound) (first : String)
    (rest : Location) : fs.entry? (top ++ first :: rest) = none := by
  cases rest with
  | nil => exact vacant.2 first
  | cons second rest =>
      have free : fs.entry? (top ++ [first]) ≠ some .directory := by simp [vacant.2 first]
      have below : second :: rest ≠ [] := by simp
      simpa using sound.free_below free below

namespace Becomes

theorem trans (first : Becomes p a b) (second : Becomes p b c) : Becomes p a c := by
  cases first with
  | kept => exact second
  | made =>
      cases second with
      | kept => exact .made
      | written _ content _ notDirectory => exact absurd rfl notDirectory
  | written _ content allowed notDirectory =>
      cases second with
      | kept => exact .written _ content allowed notDirectory
      | written _ content' => exact .written _ content' allowed notDirectory

theorem mono (wider : p → q) (becomes : Becomes p a b) : Becomes q a b := by
  cases becomes with
  | kept => exact .kept _
  | made => exact .made
  | written _ content allowed free => exact .written _ content (wider allowed) free

theorem directory (becomes : Becomes p (some .directory) b) : b = some .directory := by
  cases becomes with
  | kept => rfl
  | written _ _ _ notDirectory => exact absurd rfl notDirectory

theorem file (becomes : Becomes p a b) (forbidden : ¬ p) (content : Bytes) :
    b = some (.file content) ↔ a = some (.file content) := by
  cases becomes with
  | kept => rfl
  | made => simp
  | written _ _ allowed => exact absurd allowed forbidden

theorem isSome (becomes : Becomes p a b) (stands : a.isSome = true) : b.isSome = true := by
  cases becomes with
  | kept => exact stands
  | made => rfl
  | written => rfl

end Becomes

namespace Extends

theorem refl (fs : FileSystem) : Extends Z fs fs := ⟨rfl, fun _ => .kept _, id⟩

theorem trans (first : Extends Z a b) (second : Extends Z b c) : Extends Z a c where
  here := second.here.trans first.here
  becomes place := (first.becomes place).trans (second.becomes place)
  sound := second.sound ∘ first.sound

theorem mono (wider : ∀ place, Z place → Z' place) (grown : Extends Z fs fs') : Extends Z' fs fs' where
  here := grown.here
  becomes place := (grown.becomes place).mono (wider place)
  sound := grown.sound

theorem directory (grown : Extends Z fs fs') (stands : fs.entry? place = some .directory) :
    fs'.entry? place = some .directory :=
  (stands ▸ grown.becomes place).directory

theorem file (grown : Extends Z fs fs') (outside : ¬ Z place) : fs'.file? place = fs.file? place := by
  rw [Option.ext_iff]
  intro content
  rw [file?_eq_some, file?_eq_some, (grown.becomes place).file outside]

theorem isSome (grown : Extends Z fs fs') (stands : (fs.entry? place).isSome = true) :
    (fs'.entry? place).isSome = true :=
  (grown.becomes place).isSome stands

theorem free (grown : Extends Z fs fs') (free : fs'.entry? place = none) :
    fs.entry? place = none := by
  rw [← Option.not_isSome_iff_eq_none]
  intro stands
  have there := grown.isSome stands
  simp [free] at there

end Extends

theorem extends_put (standing : fs.Standing (spot fs.here path))
    (becomes : Becomes (Z (spot fs.here path)) (fs.entry? (spot fs.here path)) (some entry)) :
    Extends Z fs (fs.put (spot fs.here path) entry) := by
  refine ⟨rfl, fun other => ?_, fun sound => ?_⟩
  · rw [entry?_put _ standing.below]
    split
    · rename_i same
      exact same ▸ becomes
    · exact .kept _
  · refine sound.put (sound.here.spot path) standing fun stands => ?_
    rw [stands] at becomes
    exact Option.some.inj becomes.directory

theorem write_extends (done : fs.write path content = .ok fs') (inside : Z (spot fs.here path)) :
    Extends Z fs fs' := by
  obtain ⟨standing, free, rfl⟩ := write_ok done
  exact extends_put standing (.written _ _ inside free)

theorem create_extends (done : fs.create path = .ok fs') (inside : Z (spot fs.here path)) :
    Extends Z fs fs' := by
  obtain ⟨standing, free, rfl⟩ := create_ok done
  exact extends_put standing (.written _ _ inside (by simp [free]))

theorem makeDirectory_extends (done : fs.makeDirectory path = .ok fs') : Extends Z fs fs' := by
  obtain ⟨standing, free, rfl⟩ := makeDirectory_ok done
  exact extends_put standing (free ▸ .made)

end Foundry.FileSystem
