import Foundry.Archive.Packed
import Foundry.Proofs.Archive.Gzip
import Foundry.Proofs.Archive.TarRecords

/-! Archives are read as the items that were written. -/
namespace Foundry

namespace Tar

/-- An item whose name and size an archive can hold: a name that ends in no slash, and no larger
content than files have. -/
structure Item.Storable (item : Item) : Prop where
  whole : '\x00' ∉ item.name.toList
  bare : item.name.toList.getLast? ≠ some '/'
  short : item.name.utf8ByteSize < twoTo 32
  small : (item.content.getD []).length < twoTo 63

namespace Item

/-- What an item is in an archive. -/
def kind (item : Item) : Kind := if item.content.isNone then .directory else .file

/-- The name as it is written, that of a directory with a slash behind it. -/
def label (item : Item) : String := if item.content.isNone then item.name ++ "/" else item.name

/-- The header as which an item is read. -/
def header (item : Item) : Header :=
  ⟨Utf8.encode item.name, item.kind, (item.content.getD []).length, []⟩

end Item

variable {item : Item} {data rest : Bytes} {place fuel : Nat}

theorem length_blocks (content : Bytes) : (blocks content).length = padded content.length := by
  have more : content.length ≤ padded content.length := by
    unfold padded blockSize
    omega
  rw [blocks, List.length_append, List.length_replicate]
  omega

theorem length_writeHeader {header : Header} (fits : header.size < sizeLimit) :
    (writeHeader header).length = blockSize := by
  have sized := length_checksumField fits
  rw [writeHeader, headerWith_eq, List.length_append, List.length_append, sized, length_leading fits,
    length_trailing]
  rfl

theorem writeItem_eq (item : Item) : writeItem item =
    memberHeader item.label item.kind (item.content.getD []).length ++ blocks (item.content.getD []) := by
  unfold writeItem Item.label Item.kind
  cases item.content with
  | none => simp [blocks, padded, blockSize]
  | some content => simp

/-! ### Names -/

theorem slash_mem_encode {text : String} : slash ∈ Utf8.encode text ↔ '/' ∈ text.toList :=
  Utf8.mem_encode (d := '/') (by decide)

theorem zero_mem_encode {text : String} : 0 ∈ Utf8.encode text ↔ '\x00' ∈ text.toList :=
  Utf8.mem_encode (d := '\x00') (by decide)

theorem dropSlashes_encode {name : String} (bare : name.toList.getLast? ≠ some '/') :
    dropSlashes (Utf8.encode name) = Utf8.encode name := by
  have stays : (Utf8.encode name).reverse.dropWhile (· = slash) = (Utf8.encode name).reverse := by
    rcases List.eq_nil_or_concat name.toList with none | ⟨front, c, chars⟩
    · simp [Utf8.encode, none]
    · have other : c ≠ '/' := by
        rintro rfl
        exact bare (by simp [chars])
      obtain ⟨b, bytes, last⟩ := List.exists_cons_of_ne_nil
        (List.reverse_ne_nil_iff.mpr (@String.utf8EncodeChar_ne_nil c))
      have plain : b ≠ slash := by
        rintro rfl
        refine other ((Utf8.mem_encodeChar (d := '/') (by decide)).mp ?_)
        exact List.mem_reverse.mp (last ▸ List.mem_cons_self)
      have whole : (Utf8.encode name).reverse = b :: (bytes ++ (front.flatMap String.utf8EncodeChar).reverse) := by
        simp [Utf8.encode, chars, last]
      rw [whole, List.dropWhile_cons, if_neg (by simpa using plain)]
  rw [dropSlashes, stays, List.reverse_reverse]

theorem dropSlashes_label (bare : item.name.toList.getLast? ≠ some '/') :
    dropSlashes (Utf8.encode item.label) = Utf8.encode item.name := by
  unfold Item.label
  split
  · have closed : Utf8.encode (item.name ++ "/") = Utf8.encode item.name ++ [slash] := by
      rw [Utf8.encode_append]
      rfl
    have once : dropSlashes (Utf8.encode item.name ++ [slash]) = dropSlashes (Utf8.encode item.name) := by
      simp [dropSlashes]
    rw [closed, once, dropSlashes_encode bare]
  · exact dropSlashes_encode bare

/-! ### Blocks -/

theorem readAt_complete (data : Bytes) (place size : Nat) :
    readAt ⟨data, .complete⟩ place size = .ok ((data.drop place).take size) := by
  simp [readAt]

/-- A header block is read as a header. -/
theorem readBlock_writeHeader {header read : Header} (fits : header.size < sizeLimit)
    (reads : readHeader (writeHeader header) = some read)
    (there : data.drop place = writeHeader header ++ rest) :
    readBlock ⟨data, .complete⟩ place = .ok (.header read) := by
  have long := length_writeHeader fits
  have block : readAt ⟨data, .complete⟩ place blockSize = .ok (writeHeader header) := by
    rw [readAt_complete, there, ← long, List.take_left]
  have some : ¬ (writeHeader header).all (· = 0) = true := by
    intro zeros
    rw [List.all_eq_true] at zeros
    have type : typeByte header.kind ∈ writeHeader header := by
      rw [writeHeader, headerWith_eq]
      exact List.mem_append_right _ (List.mem_append_right _ List.mem_cons_self)
    have zero := zeros _ type
    unfold typeByte at zero
    split at zero <;> simp at zero
  have blank : (writeHeader header).isEmpty = false := by
    rw [List.isEmpty_eq_false_iff]
    rintro none
    rw [none] at long
    contradiction
  rw [readBlock, block]
  simp only [bind, Except.bind, blank, long, some, reads, Bool.false_eq_true, if_false, Nat.lt_irrefl]
  rfl

/-- A block of zeros ends an archive. -/
theorem readBlock_zeros {more : Bytes} (there : data.drop place = List.replicate blockSize 0 ++ more) :
    readBlock ⟨data, .complete⟩ place = .ok .zeros := by
  have block : readAt ⟨data, .complete⟩ place blockSize = .ok (List.replicate blockSize 0) := by
    rw [readAt_complete, there]
    exact congrArg _ (List.take_left' List.length_replicate)
  have long : (List.replicate blockSize (0 : UInt8)).length = blockSize := List.length_replicate
  have zeros : (List.replicate blockSize (0 : UInt8)).all (· = 0) = true := by simp
  have blank : (List.replicate blockSize (0 : UInt8)).isEmpty = false := rfl
  rw [readBlock, block]
  generalize List.replicate blockSize (0 : UInt8) = bytes at long zeros blank
  simp only [bind, Except.bind, blank, long, zeros, Bool.false_eq_true, if_false, if_true, Nat.lt_irrefl]
  rfl

theorem tidy_other (header : Header) : (tidy header).kind = header.kind ∧
    (tidy header).size = header.size ∧ (tidy header).linkName = header.linkName := by
  unfold tidy
  split <;> exact ⟨rfl, rfl, rfl⟩

/-- A file or a directory whose header stands alone. -/
theorem readMember_plain {stream : DataStream} {header : Header}
    (kind : header.kind = .file ∨ header.kind = .directory) :
    readMember stream [] header place (fuel + 1) = .ok (some
      { finish header (place + blockSize) [] with member := ⟨tidy header, place + blockSize⟩ }) := by
  rw [readMember]
  rcases kind with kind | kind <;> simp [kind, applyFields]

/-! ### Members -/

namespace Item

/-- Whether the name of an item stands in its header. -/
def NameFits (item : Item) : Prop :=
  item.label.length ≤ nameSize ∧ item.label.toList.all (·.toNat < 0x80) = true

instance : Decidable item.NameFits := inferInstanceAs (Decidable (_ ∧ _))

/-- The fields of the extended header of an item. -/
def fields (item : Item) : Fields :=
  (if item.NameFits then [] else [(Utf8.encode "path", Utf8.encode item.label)]) ++
    if (item.content.getD []).length < sizeLimit then []
    else [(Utf8.encode "size", Utf8.encode (toString (item.content.getD []).length))]

/-- The header that stands right before the content of an item. -/
def inner (item : Item) : Header :=
  ⟨Utf8.encode item.label, item.kind,
    if (item.content.getD []).length < sizeLimit then (item.content.getD []).length else 0, []⟩

theorem inner_fits (item : Item) : item.inner.size < sizeLimit := by
  unfold inner
  dsimp only
  split
  · assumption
  · decide

theorem kind_cases (item : Item) : item.kind = .file ∨ item.kind = .directory := by
  unfold kind
  split
  · exact .inr rfl
  · exact .inl rfl

theorem writeItem_eq_inner (item : Item) : writeItem item =
    extendedHeader item.label (item.content.getD []).length ++
      (writeHeader item.inner ++ blocks (item.content.getD [])) := by
  rw [writeItem_eq, memberHeader, List.append_assoc]
  rfl

/-- The header right before the content, as it is read. -/
def read (item : Item) : Header :=
  { item.inner with
    name := if item.kind = .directory then dropSlashes (item.inner.name.take 100)
      else item.inner.name.take 100 }

theorem readHeader_inner (whole : '\x00' ∉ item.name.toList) :
    readHeader (writeHeader item.inner) = some item.read := by
  have plain : 0 ∉ item.inner.name := by
    show 0 ∉ Utf8.encode item.label
    rw [zero_mem_encode]
    unfold label
    split
    · simpa using whole
    · exact whole
  have kind : item.inner.kind = .file ∨ item.inner.kind = .directory ∨ item.inner.kind = .extended :=
    item.kind_cases.imp_right .inl
  exact readHeader_writeHeader item.inner_fits plain rfl kind

/-- A name that stands in the header is read from there. -/
theorem read_name (bare : item.name.toList.getLast? ≠ some '/') (fits : item.NameFits) :
    (tidy item.read).name = Utf8.encode item.name := by
  have ascii : ∀ c ∈ item.label.toList, c.toNat < 128 := by simpa using fits.2
  have short : (Utf8.encode item.label).length ≤ 100 := by
    rw [Utf8.encode_ascii ascii, List.length_map, String.length_toList]
    exact fits.1
  have all : item.inner.name.take 100 = Utf8.encode item.label := List.take_of_length_le short
  unfold read
  rw [all]
  rcases item.kind_cases with file | directory
  · have name : item.label = item.name := by
      unfold kind at file
      unfold label
      split at file
      · cases file
      · rename_i some
        rw [if_neg some]
    have other : ¬ (Kind.file = Kind.directory) := by decide
    have same : item.inner.kind = .file := file
    simp only [tidy, same, file, other, if_false, name]
  · have same : item.inner.kind = .directory := directory
    simp only [tidy, same, directory, if_true, dropSlashes_label bare, dropSlashes_encode bare]

/-- The records of an item, each in front of what follows. -/
theorem records_eq (item : Item) : records item.label (item.content.getD []).length =
    (if item.NameFits then [] else fieldRecord (Utf8.encode "path") (Utf8.encode item.label)) ++
      if (item.content.getD []).length < sizeLimit then []
      else fieldRecord (Utf8.encode "size") (Utf8.encode (toString (item.content.getD []).length)) := rfl

theorem length_label (storable : item.Storable) :
    (Utf8.encode item.label).length ≤ 4294967296 := by
  have short : item.name.utf8ByteSize < 4294967296 := storable.short
  rw [Utf8.length_encode]
  unfold label
  split
  · have slash : "/".utf8ByteSize = 1 := by decide
    rw [String.utf8ByteSize_append]
    omega
  · omega

theorem length_sizeDigits (storable : item.Storable) :
    (Utf8.encode (toString (item.content.getD []).length)).length ≤ 19 := by
  have small : (item.content.getD []).length < 10 ^ 19 :=
    Nat.lt_of_lt_of_le storable.small (by decide)
  rw [encode_toString, digitBytes, List.length_map]
  exact (Nat.length_toDigits_le_iff (by decide) (by decide)).mpr small

/-- The records of an item are read as its fields. -/
theorem readFields_records (storable : item.Storable) (fuel count : Nat) :
    readFields [] (fuel + 3) (records item.label (item.content.getD []).length ++
      List.replicate count 0) = some item.fields := by
  have long := length_label storable
  have long' := length_sizeDigits storable
  have key : (Utf8.encode "path").length = 4 := by decide
  have key' : (Utf8.encode "size").length = 4 := by decide
  rw [records_eq, fields]
  by_cases named : item.NameFits
  · rw [if_pos named, if_pos named, List.nil_append, List.nil_append]
    split
    · exact readFields_zeros _ _ _
    · rw [readFields_record (by decide) (by decide) (by omega)]
      exact readFields_zeros _ _ _
  · rw [if_neg named, if_neg named, List.append_assoc,
      readFields_record (by decide) (by decide) (by omega)]
    split
    · exact readFields_zeros _ _ _
    · rw [readFields_record (by decide) (by decide) (by omega)]
      exact readFields_zeros _ _ _

theorem fieldSize_toString (n : Nat) : fieldSize (Utf8.encode (toString n)) = n := by
  have some : (digitBytes (Nat.toDigits 10 n)).isEmpty = false := by
    simp [digitBytes, Nat.toDigits_ne_nil]
  have digits : (digitBytes (Nat.toDigits 10 n)).any (fun b => b < 0x30 || 0x39 < b) = false := by
    rw [List.any_eq_false]
    intro b member
    obtain ⟨low, high⟩ := digit_of_mem_digitBytes member
    simp [UInt8.not_lt.mpr low, UInt8.not_lt.mpr high]
  rw [encode_toString, fieldSize, some, digits]
  exact foldl_digitBytes n

/-- With its fields the header is that of the item. -/
theorem applyFields_read (bare : item.name.toList.getLast? ≠ some '/') :
    applyFields (tidy item.read) item.fields = item.header := by
  obtain ⟨kind, size, link⟩ := tidy_other item.read
  have name := read_name bare
  have kind' : (tidy item.read).kind = item.kind := kind
  have size' : (tidy item.read).size = item.inner.size := size
  have link' : (tidy item.read).linkName = [] := link
  generalize tidy item.read = header at kind' size' link' name
  obtain ⟨label, kind, size, link⟩ := header
  dsimp only at kind' size' link' name
  subst kind' size' link'
  have other : Utf8.encode "size" ≠ Utf8.encode "path" := by decide
  have other' : Utf8.encode "size" ≠ Utf8.encode "linkpath" := by decide
  have named : item.NameFits → label = Utf8.encode item.name := name
  have sized : (item.content.getD []).length < sizeLimit → item.inner.size = (item.content.getD []).length :=
    fun fits => if_pos fits
  have digits := fieldSize_toString (item.content.getD []).length
  unfold fields
  generalize Utf8.encode (toString (item.content.getD []).length) = value at digits
  rw [applyFields, List.foldl_append]
  by_cases fits : item.NameFits
  · rw [if_pos fits, named fits]
    split
    · rename_i small
      rw [sized small]
      rfl
    · simp [other, other', digits, header]
  · rw [if_neg fits]
    split
    · rename_i small
      rw [sized small]
      simp [dropSlashes_label bare, header]
    · simp [other, other', digits, dropSlashes_label bare, header]

end Item

/-- Behind the header of an item comes its content, in whole blocks. -/
theorem finish_next {header : Header} {start : Nat} {fields : Fields} (kind : header.kind = item.kind)
    (size : header.size = (item.content.getD []).length) :
    (finish header start fields).next = start + (blocks (item.content.getD [])).length := by
  rw [length_blocks, ← size]
  unfold Item.kind at kind
  cases held : item.content with
  | none =>
      rw [held] at kind size
      rw [finish, kind, size]
      rfl
  | some content =>
      rw [held] at kind
      rw [finish, kind]
      rfl

namespace Item

theorem read_size (small : (item.content.getD []).length < sizeLimit) :
    item.read.size = (item.content.getD []).length := if_pos small

theorem fieldRecord_ne_nil (key value : Bytes) : fieldRecord key value ≠ [] := by
  simp [fieldRecord]

/-- An item without an extended header has no fields. -/
theorem fields_of_no_records (none : records item.label (item.content.getD []).length = []) :
    item.fields = [] ∧ (item.content.getD []).length < sizeLimit := by
  rw [records_eq, List.append_eq_nil_iff] at none
  obtain ⟨none, none'⟩ := none
  have named : item.NameFits := by
    by_contra other
    rw [if_neg other] at none
    exact fieldRecord_ne_nil _ _ none
  have small : (item.content.getD []).length < sizeLimit := by
    by_contra other
    rw [if_neg other] at none'
    exact fieldRecord_ne_nil _ _ none'
  rw [fields, if_pos named, if_pos small]
  exact ⟨rfl, small⟩

/-- An item whose size is in none of its fields has it in its header. -/
theorem small_of_fields (unsized : ¬ item.fields.any (·.1 = Utf8.encode "size") = true) :
    (item.content.getD []).length < sizeLimit := by
  by_contra large
  refine unsized ?_
  rw [fields, if_neg large, List.any_append]
  simp

theorem length_records (storable : item.Storable) :
    (records item.label (item.content.getD []).length).length < sizeLimit := by
  have long := length_label storable
  have long' := length_sizeDigits storable
  have key : (Utf8.encode "path").length = 4 := by decide
  have key' : (Utf8.encode "size").length = 4 := by decide
  have path : (fieldRecord (Utf8.encode "path") (Utf8.encode item.label)).length ≤ _ :=
    length_fieldRecord (by omega)
  have size : (fieldRecord (Utf8.encode "size")
      (Utf8.encode (toString (item.content.getD []).length))).length ≤ _ := length_fieldRecord (by omega)
  have either {p : Prop} [Decidable p] (bytes : Bytes) :
      (if p then [] else bytes).length ≤ bytes.length := by
    split
    · exact Nat.zero_le _
    · exact Nat.le_refl _
  have limit : sizeLimit = 8589934592 := by decide
  rw [records_eq, List.length_append, limit]
  refine Nat.lt_of_le_of_lt (Nat.add_le_add (either _) (either _)) ?_
  omega

end Item

theorem readNext_inner (whole : '\x00' ∉ item.name.toList)
    (there : data.drop place = writeHeader item.inner ++ rest) (fuel : Nat) :
    readNext ⟨data, .complete⟩ [] place (fuel + 2) =
      .ok { finish item.read (place + blockSize) [] with
        member := ⟨tidy item.read, place + blockSize⟩ } := by
  rw [readNext, readBlock_writeHeader item.inner_fits (Item.readHeader_inner whole) there]
  simp only [bind, Except.bind]
  rw [readMember_plain item.kind_cases]

/-- The header of the records that stand before an item. -/
def recordsHeader (bytes : Bytes) : Header := ⟨Utf8.encode "././@PaxHeader", .extended, bytes.length, []⟩

/-- An extended header is read with the member behind it, which gets its fields. -/
theorem readMember_extended {bytes : Bytes} (storable : item.Storable) (some : bytes ≠ [])
    (fields : ∀ fuel count,
      readFields [] (fuel + 3) (bytes ++ List.replicate count 0) = .some item.fields)
    (behind : data.drop (place + blockSize) = blocks bytes ++ (writeHeader item.inner ++ rest))
    (fuel : Nat) :
    let start := place + blockSize + padded bytes.length + blockSize
    readMember ⟨data, .complete⟩ [] (recordsHeader bytes) place (fuel + 3) = .ok (.some
        ⟨⟨item.header, start⟩, start + (blocks (item.content.getD [])).length, []⟩) := by
  intro start
  have held : readAt ⟨data, .complete⟩ (place + blockSize) (padded bytes.length) =
      .ok (blocks bytes) := by
    rw [readAt_complete, behind, ← length_blocks, List.take_left]
  have further : data.drop (place + blockSize + padded bytes.length) =
      writeHeader item.inner ++ rest := by
    rw [← List.drop_drop, behind, ← length_blocks, List.drop_left]
  -- there are more steps than the two records need
  obtain ⟨more, steps⟩ : ∃ more, (blocks bytes).length + 1 = more + 3 := by
    have positive := List.length_pos_of_ne_nil some
    rw [length_blocks, padded, blockSize]
    exact ⟨(bytes.length + (512 - 1)) / 512 * 512 - 2, by omega⟩
  have read : readFields [] ((blocks bytes).length + 1) (blocks bytes) = .some item.fields := by
    rw [steps, blocks]
    exact fields more _
  have inside := readNext_inner storable.whole further fuel
  rw [recordsHeader, readMember]
  simp only [bind, Except.bind, held, read, inside, Item.applyFields_read storable.bare]
  have next : (if item.fields.any (·.1 = Utf8.encode "size") = true then
      (finish item.header start []).next else (finish item.read start []).next) =
      start + (blocks (item.content.getD [])).length := by
    split
    · exact finish_next rfl rfl
    · rename_i unsized
      exact finish_next rfl (Item.read_size (Item.small_of_fields unsized))
  exact congrArg (fun next => Except.ok (Option.some (Step.mk _ next _))) next

/-- An item that needs no records is its header and its blocks. -/
theorem readEntry_plain (storable : item.Storable)
    (none : records item.label (item.content.getD []).length = [])
    (there : data.drop place = writeHeader item.inner ++ (blocks (item.content.getD []) ++ rest)) :
    readEntry ⟨data, .complete⟩ [] place = .ok (some ⟨⟨item.header, place + blockSize⟩,
        place + blockSize + (blocks (item.content.getD [])).length, []⟩) ∧
      data.drop (place + blockSize) = blocks (item.content.getD []) ++ rest := by
  obtain ⟨unlisted, small⟩ := Item.fields_of_no_records none
  have applied := Item.applyFields_read storable.bare
  rw [unlisted] at applied
  have same : tidy item.read = item.header := applied
  have next : (finish item.read (place + blockSize) []).next =
      place + blockSize + (blocks (item.content.getD [])).length :=
    finish_next rfl (Item.read_size small)
  constructor
  · rw [readEntry, readBlock_writeHeader item.inner_fits (Item.readHeader_inner storable.whole) there]
    simp only [bind, Except.bind]
    rw [readMember_plain item.kind_cases]
    simp only [same, next]
    rfl
  · rw [← List.drop_drop, there, ← length_writeHeader item.inner_fits, List.drop_left]

/-- An item with records is read past their header and their blocks. -/
theorem readEntry_extended (storable : item.Storable)
    (some : records item.label (item.content.getD []).length ≠ [])
    (there : data.drop place =
      writeHeader (recordsHeader (records item.label (item.content.getD []).length)) ++
        (blocks (records item.label (item.content.getD []).length) ++
          (writeHeader item.inner ++ (blocks (item.content.getD []) ++ rest)))) :
    let start := place + blockSize +
      padded (records item.label (item.content.getD []).length).length + blockSize
    readEntry ⟨data, .complete⟩ [] place = .ok (.some ⟨⟨item.header, start⟩,
        start + (blocks (item.content.getD [])).length, []⟩) ∧
      data.drop start = blocks (item.content.getD []) ++ rest := by
  have fields := Item.readFields_records storable
  have fits := Item.length_records storable
  generalize records item.label (item.content.getD []).length = bytes at there fields fits some
  have outerFits : (recordsHeader bytes).size < sizeLimit := fits
  have outerWhole : 0 ∉ (recordsHeader bytes).name := by
    show 0 ∉ Utf8.encode "././@PaxHeader"
    decide
  have outerOpened : readHeader (writeHeader (recordsHeader bytes)) = .some (recordsHeader bytes) :=
    readHeader_writeHeader outerFits outerWhole rfl (.inr (.inr rfl))
  have outerBlock := length_writeHeader outerFits
  have behind : data.drop (place + blockSize) = blocks bytes ++ (writeHeader item.inner ++
      (blocks (item.content.getD []) ++ rest)) := by
    rw [← List.drop_drop, there, ← outerBlock, List.drop_left]
  constructor
  · obtain ⟨fuel, steps⟩ : ∃ fuel, data.length + 1 = fuel + 3 := by
      have long := congrArg List.length there
      simp only [List.length_drop, List.length_append, outerBlock, blockSize] at long
      exact ⟨data.length - 2, by omega⟩
    rw [readEntry, readBlock_writeHeader outerFits outerOpened there]
    simp only [bind, Except.bind]
    rw [steps, readMember_extended storable some fields behind fuel]
  · rw [← List.drop_drop, ← List.drop_drop, behind, ← length_blocks, List.drop_left,
      ← length_writeHeader item.inner_fits, List.drop_left]

/-- An item with what follows it is read as its header, and reading goes on behind it. -/
theorem readEntry_writeItem (storable : item.Storable) (there : data.drop place = writeItem item ++ rest) :
    ∃ start, readEntry ⟨data, .complete⟩ [] place =
        .ok (some ⟨⟨item.header, start⟩, place + (writeItem item).length, []⟩) ∧
      data.drop start = blocks (item.content.getD []) ++ rest := by
  have block := length_writeHeader item.inner_fits
  rw [Item.writeItem_eq_inner, extendedHeader] at there ⊢
  by_cases none : records item.label (item.content.getD []).length = []
  · rw [none] at there ⊢
    simp only [List.isEmpty_nil, if_true, List.nil_append, List.append_assoc] at there ⊢
    obtain ⟨read, left⟩ := readEntry_plain storable none there
    refine ⟨_, read.trans ?_, left⟩
    simp only [List.length_append, block, Nat.add_assoc]
  · have some : (records item.label (item.content.getD []).length).isEmpty = false := by
      simpa using none
    have fits : (recordsHeader (records item.label (item.content.getD []).length)).size < sizeLimit :=
      Item.length_records storable
    simp only [some, Bool.false_eq_true, if_false, List.append_assoc] at there ⊢
    obtain ⟨read, left⟩ := readEntry_extended storable none there
    refine ⟨_, read.trans ?_, left⟩
    have outerBlock : (writeHeader ⟨Utf8.encode "././@PaxHeader", .extended,
        (records item.label (item.content.getD []).length).length, []⟩).length = blockSize :=
      length_writeHeader fits
    simp only [List.length_append, outerBlock, block, length_blocks, Nat.add_assoc]

/-- A member of an archive with these data is an item. -/
structure Represents (data : Bytes) (member : Member) (item : Item) : Prop where
  header : member.header = item.header
  content : content ⟨data, .complete⟩ member = .ok (item.content.getD [])

theorem content_of_start {start : Nat} (there : data.drop start = blocks (item.content.getD []) ++ rest) :
    content ⟨data, .complete⟩ ⟨item.header, start⟩ = .ok (item.content.getD []) := by
  have found : readAt ⟨data, .complete⟩ start (item.content.getD []).length =
      .ok (item.content.getD []) := by
    rw [readAt_complete, there, blocks, List.append_assoc, List.take_left]
  have size : item.header.size = (item.content.getD []).length := rfl
  rw [content, size, found]
  simp [bind, Except.bind]

theorem writeItem_ne_nil (item : Item) : writeItem item ≠ [] := by
  intro none
  have length := congrArg List.length none
  rw [Item.writeItem_eq_inner, List.length_append, List.length_append,
    length_writeHeader item.inner_fits, blockSize] at length
  simp at length

/-- Where something is left of the data, an entry is read. -/
theorem readMembers_there {more : Bytes} (done : List Member) (there : data.drop place = more)
    (some : more ≠ []) : readMembers ⟨data, .complete⟩ done [] place (fuel + 1) =
      match (readEntry ⟨data, .complete⟩ [] place).mapError (headerFailure place) with
      | .error failure => .error failure
      | .ok none => .ok done.reverse
      | .ok (.some step) =>
        readMembers ⟨data, .complete⟩ (step.member :: done) step.fields step.next fuel := by
  have inside : place ≤ data.length := by
    by_contra beyond
    rw [List.drop_of_length_le (by omega)] at there
    exact some there.symm
  have reached : reach ⟨data, .complete⟩ place = .ok () := if_pos inside
  rw [readMembers]
  split
  · rw [reached]
    rfl
  · rfl

/-- From where the items begin, members are read up to the zeros behind them. -/
theorem readMembers_items {items : List Item} (storable : ∀ item ∈ items, item.Storable)
    (done : List Member) (there : data.drop place = items.flatMap writeItem ++
      (List.replicate blockSize 0 ++ rest)) {limit : Nat} (enough : items.length < limit) :
    ∃ members, readMembers ⟨data, .complete⟩ done [] place limit = .ok (done.reverse ++ members) ∧
      List.Forall₂ (Represents data) members items := by
  induction items generalizing done place limit with
  | nil =>
      obtain ⟨fuel, rfl⟩ : ∃ k, limit = k + 1 := ⟨limit - 1, by omega⟩
      rw [List.flatMap_nil, List.nil_append] at there
      have ended : readEntry ⟨data, .complete⟩ [] place = .ok none := by
        rw [readEntry, readBlock_zeros there]
        rfl
      have some : List.replicate blockSize (0 : UInt8) ++ rest ≠ [] :=
        List.append_ne_nil_of_left_ne_nil (List.ne_nil_of_length_eq_add_one List.length_replicate) _
      rw [readMembers_there done there some, ended]
      exact ⟨[], by simp, .nil⟩
  | cons item items ih =>
      obtain ⟨fuel, rfl⟩ : ∃ k, limit = k + 1 := ⟨limit - 1, by omega⟩
      rw [List.flatMap_cons, List.append_assoc] at there
      obtain ⟨start, read, held⟩ := readEntry_writeItem (storable item (by simp)) there
      have behind : data.drop (place + (writeItem item).length) =
          items.flatMap writeItem ++ (List.replicate blockSize 0 ++ rest) := by
        rw [← List.drop_drop, there, List.drop_left]
      have enough : items.length < fuel := by
        rw [List.length_cons] at enough
        omega
      obtain ⟨members, following, represented⟩ :=
        ih (fun other member => storable other (by simp [member])) (⟨item.header, start⟩ :: done) behind
          enough
      rw [readMembers_there done there (by simp [writeItem_ne_nil]), read]
      refine ⟨⟨item.header, start⟩ :: members, ?_, .cons ⟨rfl, content_of_start held⟩ represented⟩
      simpa using following

/-- The members of an archive are its items, in order. -/
theorem members_write {items : List Item} (storable : ∀ item ∈ items, item.Storable) :
    ∃ found, members ⟨write items, .complete⟩ = .ok found ∧
      List.Forall₂ (Represents (write items)) found items := by
  have there : ∃ rest, (write items).drop 0 = items.flatMap writeItem ++
      (List.replicate blockSize 0 ++ rest) := by
    refine ⟨List.replicate blockSize 0 ++ List.replicate ((recordSize -
      (items.flatMap writeItem ++ List.replicate (2 * blockSize) 0).length % recordSize) % recordSize) 0, ?_⟩
    have twice : List.replicate (2 * blockSize) (0 : UInt8) =
        List.replicate blockSize 0 ++ List.replicate blockSize 0 := by
      rw [← List.replicate_add, ← Nat.two_mul]
    rw [List.drop_zero, write, twice, List.append_assoc, List.append_assoc]
  obtain ⟨rest, there⟩ := there
  have many : items.length ≤ (items.flatMap writeItem).length := by
    clear there storable
    induction items with
    | nil => simp
    | cons item items ih =>
        have some := List.length_pos_of_ne_nil (writeItem_ne_nil item)
        rw [List.flatMap_cons, List.length_append, List.length_cons]
        omega
  have enough : items.length < (write items).length + 1 := by
    have long := congrArg List.length there
    rw [List.drop_zero, List.length_append] at long
    omega
  exact readMembers_items storable [] there enough

end Tar

namespace Packed

open Tar

theorem itemOf?_of_represents {data : Bytes} {member : Member} {item : Item}
    (represents : Represents data member item) : itemOf? ⟨data, .complete⟩ member = some item := by
  obtain ⟨header, held⟩ := represents
  obtain ⟨name, content⟩ := item
  rw [itemOf?, header, held]
  cases content with
  | none => simp [Item.header, Item.kind, Utf8.decodeLossy_encode]
  | some content => simp [Item.header, Item.kind, Utf8.decodeLossy_encode, Except.toOption]

theorem mapM_itemOf? {data : Bytes} {found : List Member} {items : List Item}
    (represented : List.Forall₂ (Represents data) found items) :
    found.mapM (itemOf? ⟨data, .complete⟩) = some items := by
  induction represented with
  | nil => rfl
  | cons represents _ ih => simp [itemOf?_of_represents represents, ih]

/-- A packed tree is read as the items of which it was made. -/
theorem read?_write {items : List Item} (storable : ∀ item ∈ items, item.Storable) :
    read? (write items) = some items := by
  obtain ⟨found, read, represented⟩ := members_write storable
  have opened : members (Gzip.read (Packed.write items)) = .ok found := by
    rw [Packed.write, Gzip.read_write]
    exact read
  rw [read?, opened, Packed.write, Gzip.read_write]
  exact mapM_itemOf? represented

end Packed

end Foundry
