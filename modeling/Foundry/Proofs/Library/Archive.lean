import Foundry.Library.Manifest
import Foundry.Proofs.Archive.Tar
import Foundry.Proofs.FileSystem.Regular
import Foundry.Proofs.Library.Items

/-! The archive of a packed library: it can hold all items of the library, and the manifest is found
among them. -/
namespace Foundry

open FileSystem

namespace LibraryWriter

/-! ### Names of items -/

theorem itemName_concat (top : String) (front : Location) (last : String) :
    itemName top (front ++ [last]) = joinPaths (itemName top front) last := by
  simp [itemName]

theorem joinPaths_eq_append (first : String) {name : String} (proper : IsName name) :
    ∃ mark, (mark = "" ∨ mark = "/") ∧ joinPaths first name = first ++ mark ++ name := by
  unfold joinPaths
  rw [proper.relative]
  by_cases closed : (first = "" || Text.endsWith first "/") = true
  · exact ⟨"", .inl rfl, by simp [closed]⟩
  · exact ⟨"/", .inr rfl, by simp [closed]⟩

theorem itemName_append (top : String) {steps : Location} (proper : Proper steps) :
    ∃ tail, itemName top steps = top ++ tail := by
  induction steps generalizing top with
  | nil => exact ⟨"", by simp [itemName]⟩
  | cons step rest ih =>
      obtain ⟨mark, -, joined⟩ := joinPaths_eq_append top (proper step (by simp))
      obtain ⟨tail, more⟩ := ih (joinPaths top step) fun name member => proper name (by simp [member])
      refine ⟨mark ++ step ++ tail, ?_⟩
      rw [itemName, List.foldl_cons, ← itemName, more, joined]
      simp [String.append_assoc]

theorem not_mem_itemName {c : Char} (other : c ≠ '/') {top : String} {steps : Location}
    (proper : Proper steps) (none : c ∉ top.toList) (none' : ∀ step ∈ steps, c ∉ step.toList) :
    c ∉ (itemName top steps).toList := by
  induction steps generalizing top with
  | nil => exact none
  | cons step rest ih =>
      obtain ⟨mark, slash, joined⟩ := joinPaths_eq_append top (proper step (by simp))
      refine @ih (joinPaths top step) (fun name member => proper name (by simp [member])) ?_
        fun name member => none' name (by simp [member])
      rw [joined]
      simp only [String.toList_append, List.mem_append, not_or]
      refine ⟨⟨none, ?_⟩, none' step (by simp)⟩
      rcases slash with rfl | rfl <;> simp [other]

/-- No item is named as if it were a directory. -/
theorem getLast?_itemName {top : String} {steps : Location} (slashless : '/' ∉ top.toList)
    (proper : Proper steps) : (itemName top steps).toList.getLast? ≠ some '/' := by
  have ends {name : String} (clean : '/' ∉ name.toList) : name.toList.getLast? ≠ some '/' :=
    fun slash => clean (List.mem_of_getLast? slash)
  rcases List.eq_nil_or_concat steps with rfl | ⟨front, last, rfl⟩
  · exact ends slashless
  · have name := proper last (by simp)
    have some : last.toList ≠ [] := fun none => name.nonempty (String.toList_eq_nil_iff.mp none)
    obtain ⟨mark, -, joined⟩ := joinPaths_eq_append (itemName top front) name
    rw [List.concat_eq_append, itemName_concat, joined, String.toList_append,
      List.getLast?_append_of_ne_nil _ some]
    exact ends name.clean

/-- An archive can hold the items of a library. -/
theorem storable_items {fs : FileSystem} {w : LibraryWriter} {archive : Path} {packed : List Tar.Item}
    (regular : fs.Regular) (aside : fs.entry? (spot fs.here archive.text) ≠ some .directory)
    (slashless : '/' ∉ w.output.name.toList) (whole : '\x00' ∉ w.output.name.toList)
    (short : w.output.name.utf8ByteSize < pathLimit) (done : w.items fs archive = .ok packed) :
    ∀ item ∈ packed, item.Storable := by
  intro item member
  obtain ⟨-, -, -, -, small⟩ := items_ok done
  have sized := small item member
  obtain ⟨steps, entry, -, stands, rfl⟩ := (mem_items regular.toSound aside done).mp member
  have there := Option.isSome_of_eq_some stands
  have inside {name : String} (step : name ∈ steps) : name ∈ spot fs.here w.root.text ++ steps :=
    List.mem_append_right _ step
  have proper : Proper steps := fun name step => regular.proper _ there name (inside step)
  refine ⟨?_, getLast?_itemName slashless proper, ?_, ?_⟩
  · exact not_mem_itemName (by decide) proper whole fun name step =>
      regular.whole _ there name (inside step)
  · obtain ⟨tail, same⟩ := itemName_append w.output.name proper
    have dropped : Text.drop (w.output.name ++ tail) w.output.name.length = tail :=
      Text.drop_append w.output.name tail
    have limit : pathLimit = 4096 := rfl
    simp only [itemPath, same, dropped, String.utf8ByteSize_append] at sized ⊢
    have bound : twoTo 32 = 4294967296 := by decide
    omega
  · cases entry with
    | directory =>
        have positive : 0 < twoTo 63 := by decide
        exact positive
    | file content => exact regular.small _ _ stands

end LibraryWriter

namespace Manifest

open LibraryWriter

/-! ### Finding the manifest -/

theorem pieces_cons (b : UInt8) (name : Bytes) : pieces (b :: name) =
    if b = Tar.slash then [] :: pieces name
    else match pieces name with
      | [] => [[b]]
      | piece :: more => (b :: piece) :: more := rfl

theorem pieces_append (first rest : Bytes) :
    pieces (first ++ Tar.slash :: rest) = pieces first ++ pieces rest := by
  induction first with
  | nil => simp [pieces]
  | cons b first ih =>
      rw [List.cons_append, pieces_cons, pieces_cons, ih]
      split
      · rfl
      · cases split : pieces first with
        | nil =>
            have some : pieces first ≠ [] := by
              cases first with
              | nil => simp [pieces]
              | cons c more =>
                  rw [pieces_cons]
                  split
                  · simp
                  · cases pieces more <;> simp
            contradiction
        | cons piece more => rfl

theorem pieces_of_not_mem {name : Bytes} (slashless : Tar.slash ∉ name) : pieces name = [name] := by
  induction name with
  | nil => rfl
  | cons b name ih =>
      simp only [List.mem_cons, not_or] at slashless
      rw [pieces_cons, if_neg (Ne.symm slashless.1), ih slashless.2]

theorem pieces_encode {name : String} (slashless : '/' ∉ name.toList) :
    pieces (Utf8.encode name) = [Utf8.encode name] :=
  pieces_of_not_mem fun slash => slashless (Tar.slash_mem_encode.mp slash)

/-- The pieces of the name of an item are those of the library's name and the steps to the item. -/
theorem pieces_itemName {top : String} (open' : Text.baseName top ≠ "") {steps : Location}
    (proper : Proper steps) : pieces (Utf8.encode (itemName top steps)) =
      pieces (Utf8.encode top) ++ steps.map Utf8.encode := by
  induction steps generalizing top with
  | nil => simp [itemName]
  | cons step rest ih =>
      have first := proper step (by simp)
      have rest' : Proper rest := fun name member => proper name (by simp [member])
      have joined := joinPaths_open open' first.relative
      have open'' : Text.baseName (joinPaths top step) ≠ "" := by
        rw [baseName_joinPaths, Text.baseName_of_not_mem first.clean]
        exact first.nonempty
      have marked : Utf8.encode (top ++ "/" ++ step) =
          Utf8.encode top ++ Tar.slash :: Utf8.encode step := by
        rw [Utf8.encode_append, Utf8.encode_append, List.append_assoc]
        rfl
      rw [itemName, List.foldl_cons, ← itemName, ih open'' rest', joined, marked, pieces_append,
        pieces_encode first.clean]
      simp

/-- Whether a name is that of the manifest in a library. -/
def Names (name : String) : Prop :=
  ∃ first, pieces (Utf8.encode name) = [first, Utf8.encode manifestName]

theorem isManifest_iff {data : Bytes} {member : Tar.Member} {item : Tar.Item}
    (represents : Tar.Represents data member item) : isManifest member = true ↔ Names item.name := by
  have name : member.header.name = Utf8.encode item.name := by
    rw [represents.header]
    rfl
  rw [isManifest, name, Names]
  split
  · rename_i first second same
    simp [same]
  · rename_i other
    simp only [Bool.false_eq_true, false_iff]
    rintro ⟨first, same⟩
    exact other _ _ same

theorem names_itemName {top : String} (proper : IsName top ∨ top = "..") {steps : Location}
    (proper' : Proper steps) : Names (itemName top steps) ↔ steps = [manifestName] := by
  obtain ⟨some, slashless⟩ : top ≠ "" ∧ '/' ∉ top.toList := by
    rcases proper with proper | rfl
    · exact ⟨proper.nonempty, proper.clean⟩
    · decide
  rw [← Text.baseName_of_not_mem slashless] at some
  rw [Names, pieces_itemName some proper', pieces_encode slashless]
  constructor
  · rintro ⟨first, same⟩
    have names : steps.map Utf8.encode = [manifestName].map Utf8.encode := (List.cons.inj same).2
    exact (List.map_inj_right fun _ _ => Utf8.encode_inj.mp).mp names
  · rintro rfl
    exact ⟨_, rfl⟩

/-- The manifest is found where each item with its name has the same content. -/
theorem find?_manifest {data bytes : Bytes} {found : List Tar.Member} {items : List Tar.Item}
    (represented : List.Forall₂ (Tar.Represents data) found items)
    (there : ∃ item ∈ items, Names item.name)
    (only : ∀ item ∈ items, Names item.name → item.content = some bytes) :
    ∃ member, found.find? isManifest = some member ∧ member.header.kind = .file ∧
      Tar.content ⟨data, .complete⟩ member = .ok bytes := by
  induction represented with
  | nil =>
      obtain ⟨item, member, -⟩ := there
      exact absurd member List.not_mem_nil
  | cons represents rest ih =>
      rename_i member item found items
      by_cases named : Names item.name
      · have here := only item (by simp) named
        refine ⟨member, ?_, ?_, ?_⟩
        · rw [List.find?_cons_of_pos ((isManifest_iff represents).mpr named)]
        · rw [represents.header, Tar.Item.header, Tar.Item.kind, here]
          rfl
        · rw [represents.content, here]
          rfl
      · obtain ⟨found', same, kept⟩ := ih
          (by simpa [named] using there) fun item member => only item (by simp [member])
        refine ⟨found', ?_, kept⟩
        rw [List.find?_cons_of_neg ((isManifest_iff represents).not.mpr named), same]

/-- From an archive the manifest is read that is among its items. -/
theorem inArchive_write {bytes : Bytes} {items : List Tar.Item} (storable : ∀ item ∈ items, item.Storable)
    (there : ∃ item ∈ items, Names item.name)
    (only : ∀ item ∈ items, Names item.name → item.content = some bytes) :
    inArchive (Packed.write items) = .ok (some bytes) := by
  obtain ⟨found, read, represented⟩ := Tar.members_write storable
  obtain ⟨member, first, kind, content⟩ := find?_manifest represented there only
  have opened : (Tar.members (Gzip.read (Packed.write items))).mapError failure = .ok found := by
    rw [Packed.write, Gzip.read_write, read]
    rfl
  rw [inArchive]
  simp only [bind, Except.bind, opened, first]
  rw [contentOf]
  simp only [kind, Packed.write, Gzip.read_write, content]
  rfl

end Manifest

end Foundry
