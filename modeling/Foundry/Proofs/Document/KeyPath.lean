import Foundry.Proofs.Document.Merge

/-! Tables along paths of keys. A table that is laid over another one decides what stands at the paths
at which it holds something; at all others it leaves what was there. -/
namespace Foundry

namespace Value

/-- What stands at a path of keys in a value. -/
def at? (value : Value) : List String → Option Value
  | [] => some value
  | key :: rest => (value.table?.bind (·.get? key)).bind fun below => below.at? rest

/-- In no table that a path leads to is a key set twice. -/
inductive Keyed : Value → Prop where
  | table {entries : Table} : entries.keys.Nodup → (∀ entry ∈ entries, Keyed entry.2) →
      Keyed (.table entries)
  | other {value : Value} : value.table? = none → Keyed value

/-- A value by itself: what a table holds stands at paths of its own. -/
def outline : Value → Value
  | .table _ => .table []
  | other => other

/-- At all paths at which something stands in the other value, the same stands in this one, or there
is a table at both. -/
def Includes (value other : Value) : Prop :=
  ∀ path found, other.at? path = some found → (value.at? path).map outline = some found.outline

theorem at?_append (value : Value) (front rest : List String) :
    value.at? (front ++ rest) = (value.at? front).bind (·.at? rest) := by
  induction front generalizing value with
  | nil => rfl
  | cons key front ih =>
      rw [List.cons_append, at?, at?, Option.bind_assoc (value.table?.bind _)]
      exact congrArg _ (funext fun below => ih below)

theorem eq_table {value : Value} (isTable : value.table? = some entries) : value = .table entries := by
  cases value <;> simp_all [table?]

theorem outline_of_other {value : Value} (other : value.table? = none) : value.outline = value := by
  cases value <;> first | rfl | cases other

/-- What is no table is told by its outline. -/
theorem eq_of_outline {value other : Value} (same : value.outline = other.outline)
    (plain : other.table? = none) : value = other := by
  rw [outline_of_other plain] at same
  cases value with
  | table entries =>
      rw [← same] at plain
      cases plain
  | _ => exact same

theorem table_of_outline {value : Value} (same : value.outline = (Value.table entries).outline) :
    ∃ entries', value = .table entries' := by
  cases value with
  | table entries' => exact ⟨entries', rfl⟩
  | _ => cases same

theorem outline_mergeOver (under : Option Value) (value : Value) :
    (value.mergeOver under).outline = value.outline := by
  cases value with
  | table entries =>
      cases found : under.bind table? with
      | none => rw [mergeOver_replaces found]
      | some base =>
          obtain ⟨_, rfl, isTable⟩ := Option.bind_eq_some_iff.mp found
          rw [eq_table isTable, mergeOver_tables]
          rfl
  | _ => rw [mergeOver_other rfl]

theorem keyed_table {entries : Table} :
    (Value.table entries).Keyed ↔ entries.keys.Nodup ∧ ∀ entry ∈ entries, entry.2.Keyed := by
  constructor
  · rintro (⟨distinct, each⟩ | ⟨⟨⟩⟩)
    exact ⟨distinct, each⟩
  · rintro ⟨distinct, each⟩
    exact .table distinct each

theorem Keyed.at? {value found : Value} (keyed : value.Keyed) (stands : value.at? path = some found) :
    found.Keyed := by
  induction path generalizing value with
  | nil => exact Option.some.inj stands ▸ keyed
  | cons key rest ih =>
      obtain ⟨below, got, further⟩ := Option.bind_eq_some_iff.mp stands
      obtain ⟨entries, isTable, set⟩ := Option.bind_eq_some_iff.mp got
      obtain rfl := eq_table isTable
      exact ih ((keyed_table.mp keyed).2 _ (Table.mem_of_get? set)) further

end Value

namespace Table

open Value

variable {base overlay : Table} {key : String} {path : List String}

/-- What stands at a path of keys in a table. -/
def at? (table : Table) (path : List String) : Option Value := (Value.table table).at? path

/-- In the table and the tables below it no key is set twice. -/
def Keyed (table : Table) : Prop := (Value.table table).Keyed

/-- All that stands on the way to a path are tables. -/
def Opens (table : Table) (path : List String) : Prop :=
  ∀ front value, front <+: path → front ≠ path → table.at? front = some value →
    value.table?.isSome = true

/-- The tables are equal, but for the order of keys in them and in the tables below them. -/
def Matches (table other : Table) : Prop :=
  ∀ path, (table.at? path).map outline = (other.at? path).map outline

theorem at?_nil (table : Table) : table.at? [] = some (.table table) := rfl

theorem at?_cons (table : Table) (key : String) (rest : List String) :
    table.at? (key :: rest) = (table.get? key).bind (·.at? rest) := rfl

theorem get?_of_mem {table : Table} (distinct : table.keys.Nodup) (member : (key, value) ∈ table) :
    table.get? key = some value := by
  induction table with
  | nil => cases member
  | cons entry rest ih =>
      obtain ⟨new, later⟩ := List.nodup_cons.mp distinct
      rw [get?_cons]
      rcases List.mem_cons.mp member with rfl | member
      · exact if_pos rfl
      · have other : key ≠ entry.1 := fun same =>
          new (List.mem_map.mpr ⟨(key, value), member, same⟩)
        rw [if_neg other, ih later member]

/-- A path at which something stands leads through tables only. -/
theorem opens_of_at? {table : Table} (stands : table.at? path = some value) : table.Opens path := by
  rintro front onTheWay ⟨rest, rfl⟩ proper there
  rw [at?, at?_append, Option.bind_eq_some_iff] at stands
  obtain ⟨_, same, further⟩ := stands
  obtain rfl := Option.some.inj (there.symm.trans same)
  cases rest with
  | nil => exact absurd (List.append_nil front).symm proper
  | cons key rest =>
      obtain ⟨_, got, -⟩ := Option.bind_eq_some_iff.mp further
      obtain ⟨entries, isTable, -⟩ := Option.bind_eq_some_iff.mp got
      simp [isTable]

theorem set_of_get? {table : Table} (set : table.get? key = some value) : table.set key value = table := by
  induction table with
  | nil => cases set
  | cons entry rest ih =>
      obtain ⟨first, held⟩ := entry
      rw [get?_cons] at set
      rw [Table.set]
      by_cases same : key = first
      · simp_all
      · rw [if_neg same] at set
        rw [if_neg (Ne.symm same), ih set]

/-- Keys that are set already keep their places, the new ones follow in the order of the overlay. -/
theorem keys_merge (distinct : overlay.keys.Nodup) (base : Table) :
    (base.merge overlay).keys = base.keys ++ overlay.keys.filter (· ∉ base.keys) := by
  unfold merge
  induction overlay generalizing base with
  | nil => simp [mergeEntries, keys]
  | cons entry rest ih =>
      obtain ⟨first, value⟩ := entry
      obtain ⟨new, later⟩ := List.nodup_cons.mp distinct
      have split : keys ((first, value) :: rest) = first :: keys rest := rfl
      rw [mergeEntries, ih later, keys_set, split]
      by_cases member : first ∈ base.keys
      · simp [member]
      · have apart : (keys rest).filter (· ∉ base.keys ++ [first]) =
            (keys rest).filter (· ∉ base.keys) := by
          refine List.filter_congr fun other inside => ?_
          have different : other ≠ first := fun same => new (same ▸ inside)
          simp [different]
        simp only [member, if_false, apart, List.append_assoc]
        rw [List.filter_cons_of_pos (by simpa using member)]
        rfl

/-- An overlay that finds its values merged already changes nothing. -/
theorem merge_of_held
    (held : ∀ entry ∈ overlay, base.get? entry.1 = some (entry.2.mergeOver (base.get? entry.1))) :
    base.merge overlay = base := by
  unfold merge
  induction overlay with
  | nil => rfl
  | cons entry rest ih =>
      obtain ⟨first, value⟩ := entry
      rw [mergeEntries, set_of_get? (held _ List.mem_cons_self)]
      exact ih fun other member => held other (List.mem_cons_of_mem _ member)

/-- Below a table that replaces no table only its own entries stand. -/
theorem at?_replaces {lower : Option Value} (under : lower.bind table? = none) (entries : Table)
    (path : List String) :
    (Value.table entries).at? path =
      match (Value.table entries).at? path with
      | none => lower.bind (·.at? path)
      | some value => some (value.mergeOver (lower.bind (·.at? path))) := by
  cases path with
  | nil =>
      have whole : lower.bind (·.at? []) = lower := Option.bind_fun_some _
      rw [whole]
      simp only [Value.at?, mergeOver_replaces under]
  | cons next more =>
      have nothing : lower.bind (·.at? (next :: more)) = none := by
        cases lower with
        | none => rfl
        | some value =>
            rw [Option.bind_some] at under
            simp [Value.at?, under]
      rw [nothing]
      cases (Value.table entries).at? (next :: more) with
      | none => rfl
      | some value => simp [mergeOver_replaces]

/-- What stands at a path of merged tables: what the overlay holds there, laid over what was there
before, if the way to it in the overlay is open. By induction on the path. -/
theorem at?_merge (keyed : overlay.Keyed) (base : Table) (opens : overlay.Opens path) :
    (base.merge overlay).at? path =
      match overlay.at? path with
      | none => base.at? path
      | some value => some (value.mergeOver (base.at? path)) := by
  induction path generalizing base overlay with
  | nil => simp only [at?_nil, mergeOver_tables]
  | cons key rest ih =>
      rw [at?_cons, at?_cons, at?_cons, get?_merge (keyed_table.mp keyed).1]
      cases found : overlay.get? key with
      | none => rfl
      | some value =>
          have here : overlay.at? [key] = some value := by rw [at?_cons, found]; rfl
          have below : value.Keyed := Value.Keyed.at? keyed here
          cases isTable : value.table? with
          | none =>
              -- nothing stands below a value that is no table, so the path ends with it
              cases rest with
              | nil => simp only [Option.bind_some, Value.at?, mergeOver_other isTable]
              | cons next more =>
                  have blocked := opens [key] value ⟨next :: more, rfl⟩ (by simp) here
                  simp [isTable] at blocked
          | some entries =>
              obtain rfl := eq_table isTable
              have opens' : Opens entries rest := fun front value before proper there =>
                opens (key :: front) value (List.cons_prefix_cons.mpr ⟨rfl, before⟩) (by simpa using proper)
                  (by rw [at?_cons, found]; exact there)
              cases under : (base.get? key).bind table? with
              | some lower =>
                  obtain ⟨_, set, isTable'⟩ := Option.bind_eq_some_iff.mp under
                  obtain rfl := eq_table isTable'
                  simp only [set, mergeOver_tables, Option.bind_some]
                  exact ih below lower opens'
              | none =>
                  rw [Option.bind_some, Option.bind_some, mergeOver_replaces under]
                  exact at?_replaces under entries rest

end Table

/-- By induction on the later value: where all its entries are found, none of them changes anything. -/
theorem Value.Keyed.mergeOver_of_includes {value : Value} (keyed : value.Keyed) {under : Value}
    (includes : under.Includes value) : value.mergeOver (some under) = under := by
  induction keyed generalizing under with
  | other plain =>
      rw [mergeOver_other plain]
      exact (eq_of_outline (Option.some.inj (includes [] _ rfl)) plain).symm
  | table distinct each ih =>
      rename_i entries
      obtain ⟨base, rfl⟩ := table_of_outline (Option.some.inj (includes [] _ rfl))
      rw [mergeOver_tables]
      refine congrArg Value.table (Table.merge_of_held fun entry member => ?_)
      have set : Table.get? entries entry.1 = some entry.2 := Table.get?_of_mem distinct member
      have further : ∀ path found, entry.2.at? path = some found →
          ((Table.get? base entry.1).bind (·.at? path)).map outline = some found.outline :=
        fun path found there => includes (entry.1 :: path) found (by rw [Value.at?]; simpa [table?, set])
      cases there : Table.get? base entry.1 with
      | none => simpa [there] using further [] _ rfl
      | some below =>
          rw [ih entry member fun path found stands => by simpa [there] using further path found stands]

namespace Table

open Value

variable {base overlay : Table}

/-- Laying a table over another one changes nothing exactly if all of it is there. -/
theorem merge_eq_self_iff (keyed : overlay.Keyed) :
    base.merge overlay = base ↔ (Value.table base).Includes (.table overlay) := by
  constructor
  · intro same path found stands
    have merged := at?_merge keyed base (opens_of_at? stands)
    rw [same] at merged
    show (base.at? path).map outline = _
    rw [merged, show overlay.at? path = some found from stands]
    simp [outline_mergeOver]
  · intro includes
    have merged := Value.Keyed.mergeOver_of_includes keyed includes
    rw [mergeOver_tables] at merged
    injection merged

/-- Of two tables the later one counts: what it holds, other than tables, stands in the merged table,
and where it leaves the way open and holds nothing, the earlier one is left as it was. Where both have
a table, the keys of the earlier one come first, and then the new ones. Laid over a second time, or over
an equal table, a table changes nothing. -/
theorem merge_right_biased (keyed : overlay.Keyed) (base : Table) :
    (∀ path value, overlay.at? path = some value → value.table? = none →
      (base.merge overlay).at? path = some value) ∧
    (∀ path, overlay.at? path = none → overlay.Opens path →
      (base.merge overlay).at? path = base.at? path) ∧
    (∀ path (lower upper : Table), base.at? path = some (.table lower) → overlay.at? path = some (.table upper) →
      ∃ merged : Table, (base.merge overlay).at? path = some (.table merged) ∧
        merged.keys = lower.keys ++ upper.keys.filter (· ∉ lower.keys)) ∧
    (base.merge overlay).merge overlay = base.merge overlay ∧
    (base.Matches overlay → base.merge overlay = base) := by
  refine ⟨fun path value stands plain => ?_, fun path nothing opens => ?_,
    fun path lower upper below above => ?_, ?_, fun same => ?_⟩
  · rw [at?_merge keyed base (opens_of_at? stands), stands]
    simp [mergeOver_other plain]
  · rw [at?_merge keyed base opens, nothing]
  · refine ⟨lower.merge upper, ?_, ?_⟩
    · rw [at?_merge keyed base (opens_of_at? above), above, below]
      exact congrArg some (mergeOver_tables lower upper)
    · exact keys_merge (keyed_table.mp (Value.Keyed.at? keyed above)).1 lower
  · rw [merge_eq_self_iff keyed]
    intro path found stands
    show ((base.merge overlay).at? path).map outline = _
    rw [at?_merge keyed base (opens_of_at? stands), show overlay.at? path = some found from stands]
    simp [outline_mergeOver]
  · rw [merge_eq_self_iff keyed]
    intro path found stands
    show (base.at? path).map outline = _
    rw [same path, show overlay.at? path = some found from stands]
    rfl

/-- A table, and one that has another value at one of its paths, a table below it that is new, and a
table in place of another value. -/
def earlier : Table :=
  [("a", .table [("x", .int 1), ("y", .table [("z", .int 2)])]), ("c", .int 5)]

def later : Table :=
  [("a", .table [("y", .int 7), ("w", .table [])]), ("c", .table [("d", .int 1)]), ("e", .array [])]

theorem later_over_earlier : later.Keyed ∧
    (earlier.merge later).at? ["a", "y"] = some (.int 7) ∧
    (earlier.merge later).at? ["a", "x"] = some (.int 1) ∧
    (∃ merged : Table, (earlier.merge later).at? ["a"] = some (.table merged) ∧
      merged.keys = ["x", "y", "w"]) ∧
    (earlier.merge later).merge later = earlier.merge later := by
  have number (n : Int) : (Value.int n).Keyed := .other rfl
  have list (items : List Value) : (Value.array items).Keyed := .other rfl
  have keyed : later.Keyed := by
    simp [Keyed, later, keyed_table, number, list, keys]
  obtain ⟨replaced, kept, ordered, again, -⟩ := merge_right_biased keyed earlier
  have opens : later.Opens ["a", "x"] := by
    intro front value before proper stands
    obtain rfl | rfl : front = [] ∨ front = ["a"] := by
      simp only [List.prefix_cons_iff, List.prefix_nil] at before
      grind
    · cases stands
      rfl
    · cases stands
      rfl
  exact ⟨keyed, replaced _ _ rfl rfl, kept _ rfl opens, ordered ["a"] _ _ rfl rfl, again⟩

end Table

end Foundry
