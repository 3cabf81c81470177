import Foundry.Files
import Foundry.Number.Power
import Foundry.Proofs.FileSystem.Extension

/-! File systems as a system keeps them. -/
namespace Foundry

theorem Files.not_mem_of_holdsZero {path : String} (whole : holdsZero path = false) :
    '\x00' ∉ path.toList := by
  simpa [holdsZero] using whole

namespace FileSystem

variable {fs fs' : FileSystem}

/-- A sound file system that lists each location once, where no name holds the character that ends
paths and no file is larger than files can be. -/
structure Regular (fs : FileSystem) : Prop extends Sound fs where
  distinct : (fs.entries.map (·.1)).Nodup
  whole : ∀ place, (fs.entry? place).isSome → ∀ name ∈ place, '\x00' ∉ name.toList
  small : ∀ place content, fs.entry? place = some (.file content) → content.length < twoTo 63

theorem Regular.of_entries (sound : fs.Sound) (distinct : (fs.entries.map (·.1)).Nodup)
    (whole : ∀ entry ∈ fs.entries, ∀ name ∈ entry.1, '\x00' ∉ name.toList)
    (small : ∀ entry ∈ fs.entries, ∀ content, entry.2 = .file content → content.length < twoTo 63) :
    fs.Regular := by
  have listed {place : Location} {entry : Entry} (below : place ≠ [])
      (stands : fs.entry? place = some entry) : (place, entry) ∈ fs.entries := by
    rw [fs.entry?_below below, List.lookup_eq_some_iff] at stands
    obtain ⟨before, after, same, -⟩ := stands
    simp [same]
  refine ⟨sound, distinct, fun place stands name member => ?_, fun place content stands => ?_⟩
  · obtain ⟨entry, stands⟩ := Option.isSome_iff_exists.mp stands
    exact whole _ (listed (List.ne_nil_of_mem member) stands) name member
  · have below : place ≠ [] := by
      rintro rfl
      rw [entry?_root] at stands
      nomatch stands
    exact small _ (listed below stands) content rfl

/-- Writing a file of a size that files can have, by a path that the system can be asked about. -/
theorem Regular.write {path : String} {content : Bytes} (regular : fs.Regular)
    (whole : Files.holdsZero path = false) (small : content.length < twoTo 63)
    (done : fs.write path content = .ok fs') : fs'.Regular := by
  have grown : Extends (fun _ => True) fs fs' := write_extends done trivial
  obtain ⟨directory, name, found⟩ := write_last done
  obtain ⟨before, blanks, steps, -, -, stands, -, -, -, -⟩ := last_steps found
  obtain ⟨same, -, -, -⟩ := last_name found
  obtain ⟨standing, -, rfl⟩ := write_ok done
  refine ⟨grown.sound regular.toSound, ?_, fun place stands' step member => ?_,
    fun place other stands' => ?_⟩
  · simp only [put, without, List.map_cons, List.nodup_cons]
    constructor
    · simp
    · exact regular.distinct.sublist (List.filter_sublist.map _)
  · rw [entry?_put _ standing.below] at stands'
    split at stands'
    · rename_i here
      rw [here, same, List.mem_append, List.mem_singleton] at member
      rcases member with inside | rfl
      · exact regular.whole directory (by simp [stands]) step inside
      · have piece : step ∈ Text.split '/' path := by simp [steps]
        exact fun zero => Files.not_mem_of_holdsZero whole
          ((Text.sublist_of_mem_split piece).subset zero)
    · exact regular.whole place stands' step member
  · rw [entry?_put _ standing.below] at stands'
    split at stands'
    · cases stands'
      exact small
    · exact regular.small place other stands'

end FileSystem

end Foundry
