import Foundry.Document.Toml.Reader
import Foundry.Proofs.Document.Merge
import Foundry.Proofs.Run

/-! What a TOML document can hold: no value is missing, and no table has a key twice. -/
namespace Foundry

/-- A value as it can be written in a TOML document. -/
inductive Value.WellFormed : Value → Prop where
  | bool (b) : WellFormed (.bool b)
  | int (n) : WellFormed (.int n)
  | float (x) : WellFormed (.float x)
  | text (s) : WellFormed (.text s)
  | moment (m) : WellFormed (.moment m)
  | array {items} : (∀ item ∈ items, WellFormed item) → WellFormed (.array items)
  | table {entries} : (Table.keys entries).Nodup → (∀ entry ∈ entries, WellFormed entry.2) →
      WellFormed (.table entries)

namespace Table

/-- A table as it can be written in a TOML document. -/
structure WellFormed (table : Table) : Prop where
  distinct : table.keys.Nodup
  entries : ∀ entry ∈ table, entry.2.WellFormed

theorem wellFormed_nil : WellFormed [] := ⟨List.nodup_nil, by simp⟩

theorem wellFormed_iff {table : Table} : (Value.table table).WellFormed ↔ WellFormed table :=
  ⟨fun | .table distinct entries => ⟨distinct, entries⟩, fun ⟨distinct, entries⟩ => .table distinct entries⟩

variable {table : Table}

theorem WellFormed.get? (formed : WellFormed table) (found : table.get? key = some value) :
    value.WellFormed :=
  formed.entries _ (mem_of_get? found)

theorem WellFormed.set (formed : WellFormed table) (key : String) {value : Value}
    (kept : value.WellFormed) : WellFormed (table.set key value) := by
  refine ⟨nodup_keys_set formed.distinct key value, fun entry member => ?_⟩
  rcases mem_set member with rfl | member
  · exact kept
  · exact formed.entries entry member

/-- An entry at the end, under a key that is not set yet. -/
theorem WellFormed.append (formed : WellFormed table) {key : String} {value : Value}
    (new : key ∉ table.keys) (kept : value.WellFormed) : WellFormed (table ++ [(key, value)]) := by
  refine ⟨?_, fun entry member => ?_⟩
  · rw [keys, List.map_append]
    exact List.nodup_append.mpr ⟨formed.distinct, by simp, by
      rintro other member _ inside rfl
      obtain rfl : other = key := by simpa using inside
      exact new member⟩
  · rcases List.mem_append.mp member with member | member
    · exact formed.entries entry member
    · rw [List.mem_singleton.mp member]
      exact kept

/-- An action that keeps tables well formed, where it is not refused. -/
abbrev Keeps (action : Table → Option Table) : Prop :=
  ∀ table result, WellFormed table → action table = some result → WellFormed result

theorem insertNew_keeps (name : String) {value : Value} (kept : value.WellFormed) :
    Keeps (insertNew name value) := by
  intro table result formed done
  simp only [insertNew] at done
  split at done
  · contradiction
  · rename_i new
    cases done
    exact formed.append (get?_eq_none_iff.mp (by simpa [has] using new)) kept

theorem array_concat_wellFormed {items : List Value} (formed : (Value.array items).WellFormed)
    {item : Value} (kept : item.WellFormed) : (Value.array (items ++ [item])).WellFormed := by
  obtain ⟨each⟩ : ∃ _ : ∀ item ∈ items, item.WellFormed, True := by
    cases formed with
    | array each => exact ⟨each, trivial⟩
  refine .array fun other member => ?_
  rcases List.mem_append.mp member with member | member
  · exact each other member
  · rw [List.mem_singleton.mp member]
    exact kept

theorem appendItem_keeps (name : String) : Keeps (appendItem name) := by
  have empty : (Value.table []).WellFormed := wellFormed_iff.mpr wellFormed_nil
  intro table result formed done
  simp only [appendItem] at done
  split at done
  · rename_i unset
    cases done
    exact formed.append (get?_eq_none_iff.mp unset) (.array (by simpa using empty))
  · rename_i items found
    cases done
    exact formed.set name (array_concat_wellFormed (formed.get? found) empty)
  · contradiction

/-- By induction on the path: the tables on the way are set again with one entry changed. -/
theorem updateAt_keeps (inLists : Bool) {action : Table → Option Table} (kept : Keeps action)
    (path : List String) : Keeps (updateAt inLists action path) := by
  induction path with
  | nil => exact kept
  | cons key rest ih =>
      intro table result formed done
      rw [updateAt] at done
      split at done
      · obtain ⟨inner, below, rfl⟩ := Option.map_eq_some_iff.mp done
        exact formed.set key (wellFormed_iff.mpr (ih _ _ wellFormed_nil below))
      · rename_i under found
        obtain ⟨inner, below, rfl⟩ := Option.map_eq_some_iff.mp done
        exact formed.set key (wellFormed_iff.mpr (ih _ _ (wellFormed_iff.mp (formed.get? found)) below))
      · rename_i items found
        split at done
        · rename_i last
          obtain ⟨inner, below, rfl⟩ := Option.map_eq_some_iff.mp done
          have each := formed.get? found
          cases each with
          | array each =>
              obtain ⟨front, rfl⟩ := List.getLast?_eq_some_iff.mp last
              have lastFormed := each _ (List.mem_append_right _ (List.mem_singleton_self _))
              rw [List.dropLast_concat]
              refine formed.set key (array_concat_wellFormed (.array fun item member => ?_) ?_)
              · exact each item (List.mem_append_left _ member)
              · exact wellFormed_iff.mpr (ih _ _ (wellFormed_iff.mp lastFormed) below)
        · contradiction
      · contradiction

end Table

namespace Toml

open Table

theorem addInline_wellFormed {table : Table} (formed : WellFormed table) {value : Value}
    (kept : value.WellFormed) (added : addInline fixed table key value = .ok result) :
    WellFormed result := by
  simp only [addInline] at added
  split at added
  · cases added
  · split at added
    · rename_i done
      cases added
      exact updateAt_keeps _ (insertNew_keeps _ kept) _ _ _ formed done
    · cases added

/-! ### Values -/

theorem readMoment_wellFormed (read : readMoment chars = some (.ok (value, rest))) :
    value.WellFormed := by
  unfold readMoment at read
  split at read
  · split at read
    · cases Option.some.inj read
    · split at read <;> cases Option.some.inj read <;> exact .moment _
  · obtain ⟨found, -, same⟩ := Option.map_eq_some_iff.mp read
    cases same
    exact .moment _

theorem readPrefixed_wellFormed (read : readPrefixed chars = some (value, rest)) :
    value.WellFormed := by
  unfold readPrefixed at read
  split at read
  · rename_i mark _
    generalize (if mark = 'x' then 16 else if mark = 'o' then 8 else if mark = 'b' then 2 else 0) = base
      at read
    simp only at read
    split at read
    · cases read
    · split at read
      · cases read
      · cases read
        exact .int _
  · cases read

theorem readDecimal_wellFormed (read : readDecimal chars = some (.ok (value, rest))) :
    value.WellFormed := by
  simp only [readDecimal] at read
  obtain ⟨⟨whole, rest'⟩, -, same⟩ := Option.map_eq_some_iff.mp read
  simp only at same
  split at same
  · split at same
    · cases same
    · cases same
      exact .int _
  · cases same
    exact .float _

theorem readSpecial_wellFormed (read : readSpecial chars = some (value, rest)) :
    value.WellFormed := by
  simp only [readSpecial] at read
  split at read
  · cases read
    exact .float _
  · cases read
    exact .float _
  · cases read

theorem readScalar_wellFormed (read : readScalar chars = .ok (value, rest)) : value.WellFormed := by
  unfold readScalar at read
  split at read
  · obtain ⟨_, _, same⟩ := except_bind_eq_ok.mp read
    cases same
    exact .text _
  · obtain ⟨_, _, same⟩ := except_bind_eq_ok.mp read
    cases same
    exact .text _
  · cases read
    exact .bool _
  · cases read
    exact .bool _
  · split at read
    · rename_i found
      exact readMoment_wellFormed (read ▸ found)
    · split at read
      · rename_i found
        cases read
        exact readPrefixed_wellFormed found
      · split at read
        · rename_i found
          exact readDecimal_wellFormed (read ▸ found)
        · split at read
          · rename_i found
            cases read
            exact readSpecial_wellFormed found
          · cases read

/-- With so many steps left, what the readers of values, items and entries give is well formed. -/
structure ReadsWell (fuel : Nat) : Prop where
  ofValue {chars value rest} : readValue fuel chars = .ok (value, rest) → value.WellFormed
  ofItems {done chars value rest} : (∀ item ∈ done, item.WellFormed) →
    readItems fuel done chars = .ok (value, rest) → value.WellFormed
  ofEntries {fixed table chars value rest} : WellFormed table →
    readEntries fuel fixed table chars = .ok (value, rest) → value.WellFormed

namespace ReadsWell

theorem readValue_succ (below : ReadsWell fuel)
    (read : readValue (fuel + 1) chars = .ok (value, rest)) : value.WellFormed := by
  rw [readValue.eq_def] at read
  simp only at read
  split at read
  · obtain ⟨after, _, read⟩ := except_bind_eq_ok.mp read
    split at read
    · cases read
      exact .array (by simp)
    · exact below.ofItems (by simp) read
  · split at read
    · cases read
      exact wellFormed_iff.mpr wellFormed_nil
    · exact below.ofEntries wellFormed_nil read
  · exact readScalar_wellFormed read

theorem readItems_succ (below : ReadsWell fuel) (each : ∀ item ∈ done, item.WellFormed)
    (read : readItems (fuel + 1) done chars = .ok (value, rest)) : value.WellFormed := by
  rw [readItems] at read
  split at read
  · cases read
  · rename_i item after found
    have kept : item.WellFormed := below.ofValue found
    have grown : ∀ other ∈ item :: done, other.WellFormed := by simpa [kept] using each
    have whole : (Value.array (item :: done).reverse).WellFormed :=
      .array fun other member => grown other (List.mem_reverse.mp member)
    split at read
    · cases read
    · cases read
      exact whole
    · split at read
      · cases read
      · cases read
        exact whole
      · exact below.ofItems grown read
    · cases read

theorem readEntries_succ (below : ReadsWell fuel) (formed : WellFormed table)
    (read : readEntries (fuel + 1) fixed table chars = .ok (value, rest)) : value.WellFormed := by
  rw [readEntries] at read
  split at read
  · cases read
  · split at read
    · cases read
    · rename_i found
      split at read
      · cases read
      · rename_i added
        have kept := addInline_wellFormed formed (below.ofValue found) added
        split at read
        · cases read
          exact wellFormed_iff.mpr kept
        · exact below.ofEntries kept read
        · cases read
  · cases read

end ReadsWell

/-- The three readers call one another with fewer steps left, so they are taken together. -/
theorem readsWell (fuel : Nat) : ReadsWell fuel := by
  induction fuel with
  | zero =>
      refine ⟨fun read => ?_, fun _ read => ?_, fun _ read => ?_⟩
      · rw [readValue] at read
        cases read
      · rw [readItems] at read
        cases read
      · rw [readEntries] at read
        cases read
  | succ fuel below => exact ⟨below.readValue_succ, below.readItems_succ, below.readEntries_succ⟩

/-! ### Statements and documents -/

/-- The values in a statement are well formed. -/
def Statement.WellFormed : Statement → Prop
  | .entry _ value => value.WellFormed
  | .header _ | .arrayHeader _ => True

theorem readStatement_wellFormed (read : readStatement chars = .ok (some statement, rest)) :
    statement.WellFormed := by
  unfold readStatement at read
  split at read
  · cases read
  · cases read
  · cases read
  · obtain ⟨_, _, read⟩ := except_bind_eq_ok.mp read
    split at read
    · cases read
      trivial
    · cases read
  · obtain ⟨_, _, read⟩ := except_bind_eq_ok.mp read
    split at read
    · cases read
      trivial
    · cases read
  · obtain ⟨⟨entry, after⟩, entered, same⟩ := except_bind_eq_ok.mp read
    cases same
    obtain ⟨⟨key, next⟩, _, entered⟩ := except_bind_eq_ok.mp entered
    split at entered
    · obtain ⟨⟨value, end'⟩, found, same⟩ := except_bind_eq_ok.mp entered
      cases same
      exact (readsWell _).ofValue found
    · cases entered

theorem Assembly.withData_ok {a b : Assembly} {result : Option Table}
    (set : a.withData result = .ok b) : result = some b.data := by
  cases result with
  | none => cases set
  | some result =>
      cases set
      rfl

theorem Assembly.add_wellFormed {a b : Assembly} {statement : Statement} (formed : WellFormed a.data)
    (kept : statement.WellFormed) (added : a.add statement = .ok b) : WellFormed b.data := by
  cases statement with
  | entry key value =>
      simp only [add, addEntry] at added
      split at added
      · cases added
      · split at added
        · cases added
        · exact updateAt_keeps _ (insertNew_keeps _ kept) _ _ _ formed (withData_ok added)
  | header key =>
      simp only [add, addHeader] at added
      split at added
      · cases added
      · exact updateAt_keeps _ (fun _ _ same done => Option.some.inj done ▸ same) _ _ _ formed
          (withData_ok added)
  | arrayHeader key =>
      simp only [add, addArrayHeader] at added
      split at added
      · cases added
      · exact updateAt_keeps _ (appendItem_keeps _) _ _ _ formed (withData_ok added)

theorem readLines_wellFormed {a : Assembly} (formed : WellFormed a.data)
    (read : readLines a fuel chars = .ok table) : WellFormed table := by
  induction fuel generalizing a chars with
  | zero => cases read
  | succ fuel ih =>
      rw [readLines] at read
      split at read
      · cases read
      · rename_i statement rest found
        split at read
        · cases read
        · rename_i b added
          have kept : WellFormed b.data := by
            cases statement with
            | none =>
                cases added
                exact formed
            | some statement => exact Assembly.add_wellFormed formed (readStatement_wellFormed found) added
          split at read
          · cases read
          · cases read
            exact kept
          · exact ih kept read
          · cases read

/-- What is read of a document has no key twice and no value missing. -/
theorem read_wellFormed (done : read text = .ok table) : WellFormed table :=
  readLines_wellFormed wellFormed_nil done

end Toml

end Foundry
