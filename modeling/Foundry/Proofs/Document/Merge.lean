import Foundry.Document.Merge

/-! Tables as they are looked up: what setting a key changes, and what stands at a key of one table
that is laid over another. -/
namespace Foundry

namespace Table

theorem get?_cons (entry : String × Value) (rest : Table) (key : String) :
    get? (entry :: rest) key = if key = entry.1 then some entry.2 else rest.get? key := by
  obtain ⟨first, value⟩ := entry
  by_cases same : key = first
  · simp [get?, same]
  · have different : (key == first) = false := by simpa using same
    simp only [get?, List.lookup_cons, different, same, if_false]

theorem get?_eq_none_iff {table : Table} {key : String} : table.get? key = none ↔ key ∉ table.keys := by
  induction table with
  | nil => simp [get?, keys]
  | cons entry rest ih =>
      by_cases same : key = entry.1
      · simp [get?_cons, keys, same]
      · simpa [get?_cons, keys, same] using ih

theorem mem_of_get? {table : Table} {key : String} {value : Value} (found : table.get? key = some value) :
    (key, value) ∈ table := by
  induction table with
  | nil => cases found
  | cons entry rest ih =>
      rw [get?_cons] at found
      split at found
      · rename_i same
        cases found
        simp [same]
      · exact List.mem_cons_of_mem _ (ih found)

theorem get?_set (table : Table) (key : String) (value : Value) (other : String) :
    (table.set key value).get? other = if other = key then some value else table.get? other := by
  induction table with
  | nil => simp [set, get?_cons]
  | cons entry rest ih =>
      by_cases same : entry.1 = key
      · by_cases asked : other = key <;> simp [set, same, get?_cons, asked]
      · by_cases asked : other = entry.1
        · have different : other ≠ key := asked ▸ same
          simp [set, same, get?_cons, asked]
        · simp [set, same, get?_cons, asked, ih]

/-- A key that is set already keeps its place, a new one goes to the end. -/
theorem keys_set (table : Table) (key : String) (value : Value) :
    (table.set key value).keys = if key ∈ table.keys then table.keys else table.keys ++ [key] := by
  induction table with
  | nil => simp [set, keys]
  | cons entry rest ih =>
      by_cases same : entry.1 = key
      · simp [set, same, keys]
      · have step : (set (entry :: rest) key value).keys = entry.1 :: (set rest key value).keys := by
          simp [set, same, keys]
        rw [step, ih]
        by_cases member : key ∈ keys rest
        · have inside : key ∈ keys (entry :: rest) := List.mem_cons_of_mem _ member
          simp only [member, inside, if_true]
          rfl
        · have outside : key ∉ keys (entry :: rest) := by
            simp [keys, Ne.symm same] at member ⊢
            exact member
          simp only [member, outside, if_false]
          rfl

theorem mem_set {table : Table} {key : String} {value : Value} {entry : String × Value}
    (member : entry ∈ table.set key value) : entry = (key, value) ∨ entry ∈ table := by
  induction table with
  | nil => exact .inl (by simpa [set] using member)
  | cons first rest ih =>
      rw [set] at member
      split at member
      · exact (List.mem_cons.mp member).imp_right (List.mem_cons_of_mem _)
      · rcases List.mem_cons.mp member with rfl | member
        · exact .inr List.mem_cons_self
        · exact (ih member).imp_right (List.mem_cons_of_mem _)

theorem nodup_keys_set {table : Table} (distinct : table.keys.Nodup) (key : String) (value : Value) :
    (table.set key value).keys.Nodup := by
  rw [keys_set]
  split
  · exact distinct
  · rename_i new
    exact List.nodup_append.mpr ⟨distinct, by simp, by
      rintro other member _ inside rfl
      exact new (List.mem_singleton.mp inside ▸ member)⟩

end Table

namespace Value

theorem mergeOver_other {value : Value} (other : value.table? = none) (under : Option Value) :
    mergeOver under value = value := by
  cases value <;> simp_all [mergeOver, table?]

theorem mergeOver_tables (base entries : Table) :
    mergeOver (some (.table base)) (.table entries) = .table (base.merge entries) := by
  simp [mergeOver, Table.merge]

/-- A table replaces whatever is no table. -/
theorem mergeOver_replaces {under : Option Value} (other : under.bind table? = none) (value : Value) :
    mergeOver under value = value := by
  cases value with
  | table entries =>
      cases under with
      | none => simp [mergeOver]
      | some under => cases under <;> simp_all [mergeOver, table?]
  | _ => simp [mergeOver]

end Value

/-- A key of the later table counts, where it is set. -/
theorem Table.get?_merge {overlay : Table} (distinct : overlay.keys.Nodup) (base : Table) (key : String) :
    (base.merge overlay).get? key =
      match overlay.get? key with
      | none => base.get? key
      | some value => some (value.mergeOver (base.get? key)) := by
  unfold merge
  induction overlay generalizing base with
  | nil => simp [mergeEntries, get?]
  | cons entry rest ih =>
      obtain ⟨first, value⟩ := entry
      obtain ⟨new, later⟩ := List.nodup_cons.mp distinct
      rw [mergeEntries, ih later, get?_cons, get?_set]
      by_cases same : key = first
      · subst same
        simp [get?_eq_none_iff.mpr new]
      · simp [same]

end Foundry
