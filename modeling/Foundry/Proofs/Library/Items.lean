import Foundry.Library.Writer
import Foundry.Proofs.FileSystem.Extension
import Foundry.Proofs.FileSystem.PathSpot

/-! The items of an archive: one for each entry at a place and below it, named by the steps to it. -/
namespace Foundry

open FileSystem

/-- The content of an entry, if it is a file. -/
def Entry.content? : Entry → Option Bytes
  | .directory => none
  | .file content => some content

namespace LibraryWriter

variable {fs : FileSystem} {apart : Location}

/-- The name of what stands at some steps below the top of an archive. -/
def itemName (top : String) (steps : Location) : String := steps.foldl joinPaths top

theorem spot_itemName (top : String) {steps : Location} (proper : Proper steps) :
    spot [] (itemName top steps) = spot [] top ++ steps := by
  induction steps generalizing top with
  | nil => simp [itemName]
  | cons step rest ih =>
      have first := proper step (by simp)
      have rest' : Proper rest := fun name member => proper name (by simp [member])
      rw [itemName, List.foldl_cons]
      have there := ih (joinPaths top step) rest'
      rw [spot_joinPaths_name [] top first] at there
      simpa [itemName] using there

/-- Different steps make different names. -/
theorem itemName_inj {top : String} {first second : Location} (proper : Proper first)
    (proper' : Proper second) : itemName top first = itemName top second ↔ first = second := by
  constructor
  · intro same
    have spots := congrArg (spot []) same
    rw [spot_itemName top proper, spot_itemName top proper'] at spots
    exact List.append_cancel_left spots
  · rintro rfl
    rfl

/-- The item of an entry that stands at a place, or fewer than `depth` steps below it. -/
def IsItemOf (fs : FileSystem) (apart place : Location) (top : String) (depth : Nat)
    (item : Tar.Item) : Prop :=
  ∃ steps entry, steps.length < depth ∧ place ++ steps ≠ apart ∧
    fs.entry? (place ++ steps) = some entry ∧ item = ⟨itemName top steps, entry.content?⟩

section Items
variable {item : Tar.Item} (sound : fs.Sound)
include sound

/-- Below a place there is something only if it is a directory. -/
theorem isItemOf_leaf (other : fs.entry? place ≠ some .directory) :
    IsItemOf fs apart place top (depth + 1) item ↔
      ∃ entry, place ≠ apart ∧ fs.entry? place = some entry ∧ item = ⟨top, entry.content?⟩ := by
  constructor
  · rintro ⟨steps, entry, -, different, stands, rfl⟩
    cases steps with
    | nil => exact ⟨entry, by simpa using different, by simpa using stands, rfl⟩
    | cons step rest =>
        rw [sound.free_below other (List.cons_ne_nil step rest)] at stands
        contradiction
  · rintro ⟨entry, different, stands, rfl⟩
    exact ⟨[], entry, by simp, by simpa using different, by simpa using stands, rfl⟩

/-- The items of a directory are its own and those of what it holds. -/
theorem isItemOf_directory (different : place ≠ apart) (here : fs.entry? place = some .directory) :
    IsItemOf fs apart place top (depth + 1) item ↔ item = ⟨top, none⟩ ∨
      ∃ child ∈ fs.names place, IsItemOf fs apart (place ++ [child]) (joinPaths top child) depth item := by
  constructor
  · rintro ⟨steps, entry, short, other, stands, rfl⟩
    cases steps with
    | nil =>
        rw [List.append_nil, here] at stands
        exact .inl (Option.some.inj stands ▸ rfl)
    | cons child rest =>
        rw [List.append_cons] at other stands
        have seen : (fs.entry? (place ++ [child])).isSome := by
          cases rest with
          | nil => simpa using congrArg Option.isSome stands
          | cons next more =>
              have inside := sound.above (List.cons_ne_nil next more) (Option.isSome_of_eq_some stands)
              simp [inside]
        exact .inr ⟨child, mem_names.mpr seen, rest, entry, by simpa using short, other, stands, rfl⟩
  · rintro (rfl | ⟨child, -, steps, entry, short, other, stands, rfl⟩)
    · exact ⟨[], .directory, by simp, by simpa using different, by simpa using here, rfl⟩
    · exact ⟨child :: steps, entry, by simpa using short, by simpa using other, by simpa using stands,
        rfl⟩

/-- The items are what stands at the place and below it, as deep as the items go. -/
theorem mem_itemsOf (aside : fs.entry? apart ≠ some .directory) :
    item ∈ itemsOf fs apart place top depth ↔ IsItemOf fs apart place top depth item := by
  induction depth generalizing place top with
  | zero => simp [itemsOf, IsItemOf]
  | succ depth ih =>
      rw [itemsOf]
      split
      · rename_i same
        rw [isItemOf_leaf sound (same ▸ aside)]
        simp [same]
      · rename_i different
        cases here : fs.entry? place with
        | none =>
            rw [isItemOf_leaf sound (by simp [here])]
            simp [here]
        | some entry =>
            cases entry with
            | file found =>
                rw [isItemOf_leaf sound (by simp [here])]
                simp [here, different, Entry.content?]
            | directory =>
                rw [isItemOf_directory sound different here]
                simp only [List.mem_cons, List.mem_flatMap, ih]

end Items

/-- Where each location is in the list of entries once, no two items have the same name. -/
theorem nodup_itemsOf (sound : fs.Sound) (aside : fs.entry? apart ≠ some .directory)
    (distinct : (fs.entries.map (·.1)).Nodup) :
    ((itemsOf fs apart place top depth).map (·.name)).Nodup := by
  induction depth generalizing place top with
  | zero => simp [itemsOf]
  | succ depth ih =>
      have named {child label : String} (there : label ∈ (itemsOf fs apart (place ++ [child])
          (joinPaths top child) depth).map (·.name)) :
          ∃ steps, Proper (child :: steps) ∧ label = itemName top (child :: steps) := by
        obtain ⟨item, member, rfl⟩ := List.mem_map.mp there
        obtain ⟨steps, entry, -, -, stands, rfl⟩ := (mem_itemsOf sound aside).mp member
        refine ⟨steps, fun name inside => ?_, rfl⟩
        refine sound.proper _ (Option.isSome_of_eq_some stands) name ?_
        simpa [or_assoc] using Or.inr inside
      rw [itemsOf]
      split
      · simp
      · cases fs.entry? place with
        | none => simp
        | some entry =>
            cases entry with
            | file content => simp
            | directory =>
                simp only [List.map_cons, List.map_flatMap, List.nodup_cons, List.nodup_flatMap]
                refine ⟨?_, fun child _ => ih, (nodup_names distinct).imp fun different => ?_⟩
                · rw [List.mem_flatMap]
                  rintro ⟨child, -, there⟩
                  obtain ⟨steps, proper, same⟩ := named there
                  have none : Proper [] := fun _ => False.elim ∘ List.not_mem_nil
                  exact absurd ((itemName_inj none proper).mp same) (by simp)
                · intro label first second
                  obtain ⟨steps, proper, rfl⟩ := named first
                  obtain ⟨steps', proper', same⟩ := named second
                  have both := (itemName_inj proper proper').mp same
                  exact different (List.cons.inj both).1

/-- The items of a packed library are what stands at its root and below it, each with a path that is
not too long. -/
theorem items_ok {w : LibraryWriter} {archive : Path} {packed : List Tar.Item}
    (done : w.items fs archive = .ok packed) :
    ∃ depth, packed = itemsOf fs (spot fs.here archive.text) (spot fs.here w.root.text)
        w.output.name (depth + 1) ∧
      (∀ place, (fs.entry? place).isSome → place.length ≤ depth) ∧
      (fs.entry? (spot fs.here w.root.text)).isSome ∧
      ∀ item ∈ packed, (w.itemPath item).utf8ByteSize < pathLimit := by
  obtain ⟨place, located, done⟩ := except_bind_eq_ok.mp done
  obtain ⟨apart, located', done⟩ := except_bind_eq_ok.mp done
  rw [locate_ok (except_mapError_eq_ok.mp located), locate_ok (except_mapError_eq_ok.mp located')]
    at done
  split at done
  · nomatch done
  · rename_i entry stands
    dsimp only at done
    split at done
    · nomatch done
    · rename_i short
      obtain rfl := Except.ok.inj done
      refine ⟨_, rfl, fun place => length_le_depth, by rw [stands]; rfl, fun item member => ?_⟩
      simpa using List.find?_eq_none.mp short item member

/-- A packed library has an item for each entry of the layout but the archive itself. -/
theorem mem_items {w : LibraryWriter} {archive : Path} {packed : List Tar.Item} (sound : fs.Sound)
    (aside : fs.entry? (spot fs.here archive.text) ≠ some .directory)
    (done : w.items fs archive = .ok packed) {item : Tar.Item} :
    item ∈ packed ↔ ∃ steps entry, spot fs.here w.root.text ++ steps ≠ spot fs.here archive.text ∧
      fs.entry? (spot fs.here w.root.text ++ steps) = some entry ∧
      item = ⟨itemName w.output.name steps, entry.content?⟩ := by
  obtain ⟨depth, same, deep, -, -⟩ := items_ok done
  rw [same, mem_itemsOf sound aside]
  constructor
  · rintro ⟨steps, entry, -, different, stands, rfl⟩
    exact ⟨steps, entry, different, stands, rfl⟩
  · rintro ⟨steps, entry, different, stands, rfl⟩
    have short := deep _ (Option.isSome_of_eq_some stands)
    rw [List.length_append] at short
    have within := Nat.le_trans (Nat.le_add_left _ _) short
    exact ⟨steps, entry, Nat.lt_succ_of_le within, different, stands, rfl⟩

/-- Among them are the files, by the steps to them. -/
theorem mem_items_file {w : LibraryWriter} {archive : Path} {packed : List Tar.Item} (sound : fs.Sound)
    (aside : fs.entry? (spot fs.here archive.text) ≠ some .directory)
    (done : w.items fs archive = .ok packed) {steps : Location} (proper : Proper steps)
    (content : Bytes) :
    (⟨itemName w.output.name steps, some content⟩ : Tar.Item) ∈ packed ↔
      spot fs.here w.root.text ++ steps ≠ spot fs.here archive.text ∧
        fs.file? (spot fs.here w.root.text ++ steps) = some content := by
  rw [mem_items sound aside done, file?_eq_some]
  constructor
  · rintro ⟨steps', entry, different, stands, same⟩
    obtain ⟨named, file⟩ := Tar.Item.mk.inj same
    cases entry with
    | directory => nomatch file
    | file content' =>
        obtain rfl : content = content' := Option.some.inj file
        have proper' := sound.proper_of_file (file?_eq_some.mpr stands)
        obtain rfl := (itemName_inj proper proper').mp named
        exact ⟨different, stands⟩
  · rintro ⟨different, stands⟩
    exact ⟨steps, .file content, different, stands, rfl⟩

/-- The items of a packed library have different names. -/
theorem nodup_items {w : LibraryWriter} {archive : Path} {packed : List Tar.Item} (sound : fs.Sound)
    (aside : fs.entry? (spot fs.here archive.text) ≠ some .directory)
    (distinct : (fs.entries.map (·.1)).Nodup) (done : w.items fs archive = .ok packed) :
    (packed.map (·.name)).Nodup := by
  obtain ⟨depth, same, -, -, -⟩ := items_ok done
  rw [same]
  exact nodup_itemsOf sound aside distinct

end LibraryWriter

end Foundry
