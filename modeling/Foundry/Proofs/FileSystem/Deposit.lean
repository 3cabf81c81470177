import Foundry.Proofs.FileSystem.Extension
import Mathlib.Data.List.Nodup
import Mathlib.Data.List.Perm.Subperm

/-! Directories into which files are put under names, one after another. What was put last under a
name is what the directory holds, so all files that were put are there exactly if their names
differ. -/
namespace Foundry.FileSystem

/-- The content that was put last under a name. -/
def lastOf (puts : List (String × Bytes)) (name : String) : Option Bytes := puts.reverse.lookup name

theorem lastOf_append (puts : List (String × Bytes)) (name : String) (content : Bytes)
    (other : String) :
    lastOf (puts ++ [(name, content)]) other = if other = name then some content else lastOf puts other := by
  simp only [lastOf, List.reverse_append, List.reverse_singleton, List.singleton_append,
    List.lookup_cons]
  by_cases same : other = name
  · simp [same]
  · have different : (other == name) = false := by simpa using same
    simp only [different, if_neg same]

theorem lookup_isSome {puts : List (String × Bytes)} :
    (puts.lookup name).isSome ↔ name ∈ puts.map (·.1) := by
  induction puts with
  | nil => simp
  | cons put rest ih =>
      rw [List.lookup_cons, List.map_cons, List.mem_cons]
      by_cases same : name = put.1
      · simp [same]
      · have different : (name == put.1) = false := by simpa using same
        simp only [different, ih, same, false_or]

theorem lastOf_isSome {puts : List (String × Bytes)} :
    (lastOf puts name).isSome ↔ name ∈ puts.map (·.1) := by
  rw [lastOf, lookup_isSome, List.map_reverse, List.mem_reverse]

theorem lookup_eq_some {puts : List (String × Bytes)} (distinct : (puts.map (·.1)).Nodup) :
    puts.lookup name = some content ↔ (name, content) ∈ puts := by
  induction puts with
  | nil => simp
  | cons put rest ih =>
      rw [List.map_cons, List.nodup_cons] at distinct
      rw [List.lookup_cons, List.mem_cons]
      by_cases same : name = put.1
      · have absent : (put.1, content) ∉ rest := fun member =>
          distinct.1 (List.mem_map.mpr ⟨_, member, rfl⟩)
        simp [same, absent, Prod.ext_iff, eq_comm]
      · have different : (name == put.1) = false := by simpa using same
        simp only [different, ih distinct.2]
        simp [Prod.ext_iff, same]

/-- Where all names differ, nothing is put over something else. -/
theorem lastOf_of_nodup {puts : List (String × Bytes)} (distinct : (puts.map (·.1)).Nodup)
    (name : String) : lastOf puts name = puts.lookup name := by
  have distinct' : (puts.reverse.map (·.1)).Nodup := by
    rw [List.map_reverse]
    exact List.nodup_reverse.mpr distinct
  rw [Option.ext_iff]
  intro content
  rw [lastOf, lookup_eq_some distinct', lookup_eq_some distinct, List.mem_reverse]

/-- There is one file for each content, under these names in order, and no other. -/
structure OneFileEach (held : String → Option Bytes) (names : List String) (contents : List Bytes) :
    Prop where
  distinct : names.Nodup
  length : names.length = contents.length
  held : ∀ name, held name = (names.zip contents).lookup name

variable {held : String → Option Bytes} {puts : List (String × Bytes)}

theorem zip_unzip (puts : List (String × Bytes)) : (puts.map (·.1)).zip (puts.map (·.2)) = puts := by
  induction puts with
  | nil => rfl
  | cons put rest ih => simp [ih]

theorem oneFileEach_of_nodup (last : ∀ name, held name = lastOf puts name)
    (distinct : (puts.map (·.1)).Nodup) : OneFileEach held (puts.map (·.1)) (puts.map (·.2)) :=
  ⟨distinct, by simp, fun name => by rw [zip_unzip, last, lastOf_of_nodup distinct]⟩

/-- All that was put is there, under whatever names, exactly if it was put under different names. -/
theorem exists_oneFileEach_iff (last : ∀ name, held name = lastOf puts name) :
    (∃ names, OneFileEach held names (puts.map (·.2))) ↔ (puts.map (·.1)).Nodup := by
  constructor
  · rintro ⟨names, each⟩
    have same : ∀ name ∈ names, name ∈ puts.map (·.1) := by
      intro name member
      have first : (names.zip (puts.map (·.2))).map (·.1) = names := List.map_fst_zip (Nat.le_of_eq each.length)
      rw [← lastOf_isSome, ← last, each.held, lookup_isSome, first]
      exact member
    have perm := (each.distinct.subperm same).perm_of_length_le (by simp [each.length])
    exact perm.nodup_iff.mp each.distinct
  · exact fun distinct => ⟨_, oneFileEach_of_nodup last distinct⟩

/-- What was put is there under its names, though something else was put there afterwards, exactly
if the names differ and that was there already. -/
theorem oneFileEach_stray_iff (last : ∀ name, held name = lastOf (puts ++ strays) name)
    (few : strays.length ≤ 1) :
    OneFileEach held (puts.map (·.1)) (puts.map (·.2)) ↔
      (puts.map (·.1)).Nodup ∧ ∀ stray ∈ strays, stray ∈ puts := by
  match strays, few with
  | [], _ =>
      simp only [List.append_nil] at last
      simp only [List.not_mem_nil, false_implies, implies_true, and_true]
      exact ⟨fun each => each.distinct, oneFileEach_of_nodup last⟩
  | [(name, content)], _ =>
      simp only [List.forall_mem_singleton]
      constructor
      · intro each
        refine ⟨each.distinct, ?_⟩
        have there := each.held name
        rw [last, lastOf_append, if_pos rfl, zip_unzip] at there
        exact (lookup_eq_some each.distinct).mp there.symm
      · rintro ⟨distinct, member⟩
        refine ⟨distinct, by simp, fun other => ?_⟩
        rw [zip_unzip, last, lastOf_append]
        split
        · rename_i same
          rw [same, (lookup_eq_some distinct).mpr member]
        · exact lastOf_of_nodup distinct other

/-- A directory whose files are what was put into it. -/
structure Holds (fs : FileSystem) (place : Location) (puts : List (String × Bytes)) : Prop where
  directory : fs.entry? place = some .directory
  files : ∀ name, fs.file? (place ++ [name]) = lastOf puts name

namespace Holds
variable {fs fs' : FileSystem} {place : Location}

theorem extend {Z : Location → Prop} (holds : fs.Holds place puts) (grown : fs.Extends Z fs')
    (outside : ∀ name, ¬ Z (place ++ [name])) : fs'.Holds place puts :=
  ⟨grown.directory holds.directory, fun name => (grown.file (outside name)).trans (holds.files name)⟩

theorem file?_put {target : Location} (below : target ≠ []) (content : Bytes) (other : Location) :
    (fs.put target (.file content)).file? other =
      if other = target then some content else fs.file? other := by
  by_cases same : other = target
  · simp [file?, entry?_put _ below, same]
  · simp [file?, entry?_put _ below, same]

theorem put_inside (holds : fs.Holds place puts) (name : String) (content : Bytes) :
    (fs.put (place ++ [name]) (.file content)).Holds place (puts ++ [(name, content)]) := by
  constructor
  · rw [entry?_put_of_ne _ (by simp), holds.directory]
  · intro other
    rw [file?_put (by simp), lastOf_append, holds.files]
    simp

theorem put_outside {target : Location} (holds : fs.Holds place puts) (below : target ≠ [])
    (free : fs.entry? target ≠ some .directory) (outside : ∀ name, target ≠ place ++ [name])
    (content : Bytes) : (fs.put target (.file content)).Holds place puts := by
  constructor
  · have other : place ≠ target := by
      rintro rfl
      exact free holds.directory
    rw [entry?_put_of_ne _ other, holds.directory]
  · intro other
    rw [file?_put below, if_neg (outside other).symm, holds.files]

/-- Writing a file somewhere puts it into the directory, or does not concern it. -/
theorem put {target : Location} (holds : fs.Holds place puts) (below : target ≠ [])
    (free : fs.entry? target ≠ some .directory) (content : Bytes) :
    ∃ more, (fs.put target (.file content)).Holds place (puts ++ more) ∧ more.length ≤ 1 ∧
      ∀ stray, stray ∈ more ↔ target = place ++ [stray.1] ∧ stray.2 = content := by
  by_cases inside : ∃ name, target = place ++ [name]
  · obtain ⟨name, rfl⟩ := inside
    refine ⟨[(name, content)], holds.put_inside name content, by simp, fun stray => ?_⟩
    simp [Prod.ext_iff, eq_comm]
  · have outside : ∀ name, target ≠ place ++ [name] := fun name same => inside ⟨name, same⟩
    refine ⟨[], by simpa using holds.put_outside below free outside content, by simp, fun stray => ?_⟩
    simp [outside]

end Holds

end Foundry.FileSystem
