import Foundry.FileSystem.Operation
import Mathlib.Data.List.Nodup

/-! What a location holds after a file system has changed, and the file systems in which every entry
stands in a directory. -/
namespace Foundry

theorem lookup_filter_key (entries : List (Location × Entry)) (keep : Location → Bool)
    (place : Location) :
    (entries.filter fun entry => keep entry.1).lookup place =
      if keep place then entries.lookup place else none := by
  induction entries with
  | nil => simp
  | cons entry rest ih =>
      obtain ⟨other, content⟩ := entry
      by_cases kept : keep other
      · rw [List.filter_cons_of_pos (by simpa using kept), List.lookup_cons, List.lookup_cons, ih]
        by_cases same : place = other
        · subst same
          simp [kept]
        · have different : (place == other) = false := by simpa using same
          simp only [different]
      · rw [List.filter_cons_of_neg (by simpa using kept), ih, List.lookup_cons]
        by_cases same : place = other
        · subst same
          simp [kept]
        · have different : (place == other) = false := by simpa using same
          simp only [different]

namespace FileSystem

theorem within_iff : within top place = true ↔ top <+: place := List.isPrefixOf_iff_prefix

@[simp] theorem within_self (place : Location) : within place place = true :=
  within_iff.mpr (List.prefix_refl _)

@[simp] theorem within_append (top rest : Location) : within top (top ++ rest) = true :=
  within_iff.mpr (List.prefix_append _ _)

theorem within_trans (first : within a b = true) (second : within b c = true) :
    within a c = true :=
  within_iff.mpr ((within_iff.mp first).trans (within_iff.mp second))

theorem within_dropLast (inside : within top place.dropLast = true) : within top place = true :=
  within_iff.mpr ((within_iff.mp inside).trans (List.dropLast_prefix _))

theorem within_false {inner place : Location} (inside : within top inner = true)
    (outside : within top place = false) : within inner place = false := by
  rw [Bool.eq_false_iff] at outside ⊢
  exact fun below => outside (within_trans inside below)

theorem within_or_within (first : within a c = true) (second : within b c = true) :
    within a b = true ∨ within b a = true := by
  rw [within_iff] at first second
  simpa only [within_iff] using List.prefix_or_prefix_of_prefix first second

/-- Two places of which none lies below the other have nothing below them in common. -/
theorem within_append_false {a b : Location} (first : within a b = false) (second : within b a = false)
    (rest : Location) : within a (b ++ rest) = false := by
  rw [Bool.eq_false_iff]
  intro inside
  rcases within_or_within inside (within_append b rest) with below | below
  · simp [first] at below
  · simp [second] at below

variable (fs : FileSystem)

@[simp] theorem entry?_root : fs.entry? [] = some .directory := by
  simp [ entry?]

theorem entry?_below {place : Location} (below : place ≠ []) :
    fs.entry? place = fs.entries.lookup place := by
  simp [ entry?, below]

theorem perm_insertName (name : String) (names : List String) :
    (insertName name names).Perm (name :: names) := by
  induction names with
  | nil => exact .refl _
  | cons other rest ih =>
      simp only [insertName]
      split
      · exact .refl _
      · exact (ih.cons other).trans (.swap name other rest)

theorem sorted_insertName (name : String) {names : List String} (sorted : names.Pairwise (· ≤ ·)) :
    (insertName name names).Pairwise (· ≤ ·) := by
  induction names with
  | nil => simp [insertName]
  | cons other rest ih =>
      obtain ⟨first, later⟩ := List.pairwise_cons.mp sorted
      simp only [insertName]
      split
      · rename_i before
        refine List.pairwise_cons.mpr ⟨fun next member => ?_, sorted⟩
        rcases List.mem_cons.mp member with rfl | member
        · exact before
        · exact String.le_trans before (first next member)
      · rename_i behind
        refine List.pairwise_cons.mpr ⟨fun next member => ?_, ih later⟩
        rcases List.mem_cons.mp ((perm_insertName name rest).mem_iff.mp member) with rfl | member
        · exact (String.le_total next other).resolve_left behind
        · exact first next member

theorem perm_sortNames (names : List String) : (sortNames names).Perm names := by
  induction names with
  | nil => exact .refl _
  | cons name rest ih => exact (perm_insertName name _).trans (ih.cons name)

/-- Sorted names are in the order of their characters. -/
theorem sorted_sortNames (names : List String) : (sortNames names).Pairwise (· ≤ ·) := by
  induction names with
  | nil => exact .nil
  | cons name rest ih => exact sorted_insertName name ih

/-- The names in a directory are those under which something stands there. -/
theorem mem_names {fs : FileSystem} {child : String} {place : Location} :
    child ∈ fs.names place ↔ (fs.entry? (place ++ [child])).isSome := by
  rw [names, (perm_sortNames _).mem_iff, List.mem_filterMap, fs.entry?_below (by simp), List.lookup_isSome_iff]
  constructor
  · rintro ⟨⟨other, entry⟩, member, named⟩
    refine ⟨_, member, ?_⟩
    simp only at named
    split at named
    · rename_i above
      obtain ⟨front, rfl⟩ := List.getLast?_eq_some_iff.mp named
      rw [List.dropLast_concat] at above
      simp [above]
    · contradiction
  · rintro ⟨⟨other, entry⟩, member, same⟩
    obtain rfl : place ++ [child] = other := by simpa using same
    exact ⟨_, member, by simp⟩

/-- Where each location is in the list of entries once, so is each name among those of a directory. -/
theorem nodup_names {fs : FileSystem} (distinct : (fs.entries.map (·.1)).Nodup) : (fs.names place).Nodup := by
  have keys : fs.names place = sortNames ((fs.entries.map (·.1)).filterMap fun other =>
      if other.dropLast = place then other.getLast? else none) := by
    rw [List.filterMap_map]
    rfl
  rw [keys, (perm_sortNames _).nodup_iff]
  refine distinct.filterMap fun first second child there there' => ?_
  simp only [Option.mem_def, Option.ite_none_right_eq_some] at there there'
  obtain ⟨front, rfl⟩ := List.getLast?_eq_some_iff.mp there.2
  obtain ⟨front', rfl⟩ := List.getLast?_eq_some_iff.mp there'.2
  rw [List.dropLast_concat] at there there'
  rw [there.1, there'.1]

theorem ordered_names {fs : FileSystem} (distinct : (fs.entries.map (·.1)).Nodup)
    (place : Location) : (fs.names place).Pairwise (· < ·) := by
  have different : (fs.names place).Nodup := nodup_names distinct
  have sorted : (fs.names place).Pairwise (· ≤ ·) := sorted_sortNames _
  exact (sorted.and different).imp fun ⟨before, other⟩ =>
    String.not_le.mp fun behind => other (String.le_antisymm before behind)

/-- No location with an entry is longer than the longest one. -/
theorem length_le_depth {fs : FileSystem} {place : Location} (stands : (fs.entry? place).isSome) :
    place.length ≤ (fs.entries.map fun (other, _) => other.length).foldl max 0 := by
  by_cases root : place = []
  · simp [root]
  · rw [fs.entry?_below root, List.lookup_isSome_iff] at stands
    obtain ⟨⟨other, entry⟩, member, same⟩ := stands
    obtain rfl : place = other := by simpa using same
    have length : place.length ∈ fs.entries.map fun (other, _) => other.length :=
      List.mem_map.mpr ⟨_, member, rfl⟩
    rw [List.foldl_max]
    exact Nat.le_trans (List.le_max?_getD_of_mem length) (Nat.le_max_right _ _)

theorem entry?_without {place : Location} (below : place ≠ []) (other : Location) :
    entry? (fs.without place) other = if other = place then none else fs.entry? other := by
  by_cases root : other = []
  · subst root
    simp [below.symm]
  · have filtered := lookup_filter_key fs.entries (fun p => decide (p ≠ place)) other
    rw [entry?_below _ root, entry?_below _ root, without, filtered]
    by_cases same : other = place <;> simp [same]

theorem entry?_put_of_ne {place other : Location} (different : other ≠ place) (entry : Entry) :
    entry? (fs.put place entry) other = fs.entry? other := by
  by_cases root : other = []
  · subst root
    simp
  · have elsewhere : (other == place) = false := by simpa using different
    have filtered := lookup_filter_key fs.entries (fun p => decide (p ≠ place)) other
    rw [entry?_below _ root, entry?_below _ root, put, List.lookup_cons, elsewhere, without, filtered]
    simp [different]

theorem entry?_put_self {place : Location} (below : place ≠ []) (entry : Entry) :
    entry? (fs.put place entry) place = some entry := by
  simp [ entry?_below _ below, put]

theorem entry?_put {place : Location} (below : place ≠ []) (entry : Entry) (other : Location) :
    entry? (fs.put place entry) other = if other = place then some entry else fs.entry? other := by
  split
  · rename_i same
    rw [same, entry?_put_self _ below]
  · rename_i different
    exact entry?_put_of_ne _ different entry

theorem entry?_withoutTree (top other : Location) :
    entry? (fs.withoutTree top) other =
      if other ≠ [] ∧ within top other = true then none else fs.entry? other := by
  by_cases root : other = []
  · subst root
    simp
  · have filtered := lookup_filter_key fs.entries (fun p => !within top p) other
    rw [entry?_below _ root, entry?_below _ root, withoutTree, filtered]
    cases inside : within top other <;> simp [root]

/-- Nothing is left of a tree that is removed, and nothing else is touched. -/
theorem entry?_withoutTree_below (fs : FileSystem) {top : Location} (below : top ≠ []) (place : Location) :
    FileSystem.entry? (fs.withoutTree top) place =
      if within top place = true then none else fs.entry? place := by
  rw [entry?_withoutTree]
  by_cases inside : within top place = true
  · rw [if_pos inside, if_pos]
    refine ⟨?_, inside⟩
    rintro rfl
    exact below (List.prefix_nil.mp (within_iff.mp inside))
  · rw [if_neg inside, if_neg fun both => inside both.2]

/-- The entries of a moved tree, under their new places. -/
theorem lookup_moved (entries : List (Location × Entry)) (source target rest : Location) :
    ((entries.filter fun (place, _) => within source place).map fun (place, entry) =>
      (target ++ place.drop source.length, entry)).lookup (target ++ rest) =
        entries.lookup (source ++ rest) := by
  induction entries with
  | nil => rfl
  | cons entry others ih =>
      obtain ⟨place, content⟩ := entry
      by_cases inside : within source place
      · obtain ⟨tail, rfl⟩ := within_iff.mp inside
        simp only [List.filter_cons, inside, if_true, List.map_cons, List.lookup_cons, ih,
          List.drop_left]
        have same : (target ++ rest == target ++ tail) = (source ++ rest == source ++ tail) := by
          rw [Bool.eq_iff_iff, beq_iff_eq, beq_iff_eq, List.append_right_inj, List.append_right_inj]
        rw [same]
      · simp only [List.filter_cons, inside, Bool.false_eq_true, if_false, ih, List.lookup_cons]
        have different : (source ++ rest == place) = false := by
          rw [beq_eq_false_iff_ne]
          rintro rfl
          simp at inside
        simp only [different]

theorem lookup_moved_outside (entries : List (Location × Entry)) (source target other : Location)
    (outside : ¬ within target other = true) :
    ((entries.filter fun (place, _) => within source place).map fun (place, entry) =>
      (target ++ place.drop source.length, entry)).lookup other = none := by
  rw [List.lookup_eq_none_iff]
  intro moved member
  obtain ⟨⟨place, content⟩, _, rfl⟩ := List.mem_map.mp member
  rw [bne_iff_ne]
  rintro rfl
  exact outside (within_append _ _)

/-- A moved tree is at its new place, nothing is left at the old one, and all else is as before. -/
theorem entry?_moveTree {source target : Location} (movable : source ≠ []) (below : target ≠ [])
    (other : Location) :
    entry? (fs.moveTree source target) other =
      if within target other = true then fs.entry? (source ++ other.drop target.length)
      else if other ≠ [] ∧ within source other = true then none
      else fs.entry? other := by
  by_cases root : other = []
  · subst root
    have outside : within target [] = false := by
      cases target with
      | nil => contradiction
      | cons _ _ => rfl
    simp [outside]
  · rw [entry?_below _ root, moveTree, tree, List.lookup_append]
    by_cases inside : within target other = true
    · obtain ⟨rest, rfl⟩ := within_iff.mp inside
      have gone := entry?_withoutTree (fs.withoutTree source) target (target ++ rest)
      rw [entry?_below _ root] at gone
      rw [lookup_moved, gone, ← fs.entry?_below (by simp [movable])]
      simp [root]
    · have kept := entry?_withoutTree (fs.withoutTree source) target other
      rw [entry?_below _ root, entry?_withoutTree] at kept
      rw [lookup_moved_outside _ _ _ _ inside, kept]
      simp [inside, root]

end FileSystem

end Foundry
