import Foundry.Document.Value

/-! Laying one document over another: where both have a table the tables are merged, everything
else is replaced by the later value. -/
namespace Foundry

mutual

/-- What stands at a key after `over` is laid over what was there. -/
def Value.mergeOver (under : Option Value) : Value → Value
  | .table entries =>
    match under with
    | some (.table base) => .table (Table.mergeEntries base entries)
    | _ => .table entries
  | other => other

/-- Lay the entries of a table over `base`, one after another. -/
def Table.mergeEntries (base : Table) : List (String × Value) → Table
  | [] => base
  | (key, value) :: rest =>
    Table.mergeEntries (base.set key (Value.mergeOver (base.get? key) value)) rest

end

namespace Table

/-- `base` with `overlay` laid over it. -/
def merge (base overlay : Table) : Table := mergeEntries base overlay

end Table

end Foundry
