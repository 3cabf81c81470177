import Foundry.Document.MessagePack.Reader
import Foundry.Document.MessagePack.Writer
import Foundry.Proofs.Bytes
import Foundry.Proofs.Run
import Foundry.Proofs.Text.Utf8

/-! Packed documents are read as what was packed. -/
namespace Foundry

/-- A value of a document that was not itself read from a packed one. A table has each key once. -/
inductive Value.Plain : Value → Prop where
  | null : Plain .null
  | bool (b : Bool) : Plain (.bool b)
  | int (n : Int) : Plain (.int n)
  | float (x : Binary64) : Plain (.float x)
  | text (s : String) : Plain (.text s)
  | bytes (b : Bytes) : Plain (.bytes b)
  | moment (m : Moment) : Plain (.moment m)
  | array (items : List Value) : (∀ item ∈ items, Plain item) → Plain (.array items)
  | table (entries : Table) : entries.keys.Nodup → (∀ entry ∈ entries, Plain entry.2) →
      Plain (.table entries)

namespace MessagePack

variable {room more fuel n size count : Nat} {bytes head rest : Bytes}

theorem readNat_bigEndian {width : Nat} (fits : n < Nat.pow 256 width) (rest : Bytes) :
    readNat width (Bytes.bigEndian width n ++ rest) = some (n, rest) := by
  rw [readNat, Bytes.split?_append _ _ (Bytes.length_bigEndian _ _)]
  simp [Bytes.natBE_bigEndian fits]

theorem readInt_ofIntBE {width : Nat} {n : Int} (low : -(Nat.pow 256 width : Int) ≤ 2 * n)
    (high : 2 * n < (Nat.pow 256 width : Int)) (rest : Bytes) :
    readInt width (Bytes.ofIntBE width n ++ rest) = some (n, rest) := by
  rw [readInt, Bytes.split?_append _ _ (Bytes.length_ofIntBE _ _)]
  simp [Bytes.intBE_ofIntBE low high]

/-- The heads of one byte. -/
theorem readHead_small (small : n < 0xC0) (rest : Bytes) : readHead (UInt8.ofNat n :: rest) =
    if n < 0x80 then some (.value (.int n), rest)
    else if n < 0x90 then some (.table (n - 0x80), rest)
    else if n < 0xA0 then some (.array (n - 0x90), rest)
    else some (.text (n - 0xA0), rest) := by
  have value : (UInt8.ofNat n).toNat = n := by
    simp
    omega
  simp only [readHead, value, small, if_true]

/-- A head with a number behind its mark. -/
theorem readHead_marked (make : Nat → Head) (mark : UInt8) (width : Nat)
    (reads : ∀ bytes, readHead (mark :: bytes) =
      (readNat width bytes).map fun (n, rest) => (make n, rest))
    (fits : n < Nat.pow 256 width)
    (packed : (pure (marked mark width n) : Except PackError Bytes) = .ok head) (rest : Bytes) :
    readHead (head ++ rest) = some (make n, rest) := by
  obtain rfl := Except.ok.inj packed
  rw [marked, List.cons_append, reads, readNat_bigEndian fits]
  rfl

/-- A negative integer behind its mark. -/
theorem readHead_signed (mark : UInt8) (width limit : Nat) {n : Int}
    (reads : ∀ bytes, readHead (mark :: bytes) =
      (readInt width bytes).map fun (n, rest) => (.value (.int n), rest))
    (power : Nat.pow 256 width = limit) (low : -(limit : Int) ≤ 2 * n)
    (high : 2 * n < (limit : Int)) (packed : (pure (mark :: Bytes.ofIntBE width n) :
      Except PackError Bytes) = .ok head) (rest : Bytes) : readHead (head ++ rest) = some (.value (.int n), rest) := by
  subst power
  obtain rfl := Except.ok.inj packed
  rw [List.cons_append, reads, readInt_ofIntBE low high]
  rfl

theorem readHead_textHead (packed : textHead size = .ok head) (rest : Bytes) :
    readHead (head ++ rest) = some (.text size, rest) := by
  unfold textHead at packed
  split at packed
  · obtain rfl := Except.ok.inj packed
    rw [List.singleton_append, readHead_small (by omega), if_neg (by omega), if_neg (by omega),
      if_neg (by omega), Nat.add_sub_cancel_left]
  split at packed
  · exact readHead_marked .text 0xD9 1 (fun _ => rfl) ‹_› packed rest
  split at packed
  · exact readHead_marked .text 0xDA 2 (fun _ => rfl) ‹_› packed rest
  split at packed
  · exact readHead_marked .text 0xDB 4 (fun _ => rfl) ‹_› packed rest
  · cases packed

theorem readHead_bytesHead (packed : bytesHead size = .ok head) (rest : Bytes) :
    readHead (head ++ rest) = some (.bytes size, rest) := by
  unfold bytesHead at packed
  split at packed
  · exact readHead_marked .bytes 0xC4 1 (fun _ => rfl) ‹_› packed rest
  split at packed
  · exact readHead_marked .bytes 0xC5 2 (fun _ => rfl) ‹_› packed rest
  split at packed
  · exact readHead_marked .bytes 0xC6 4 (fun _ => rfl) ‹_› packed rest
  · cases packed

theorem readHead_arrayHead (packed : arrayHead count = .ok head) (rest : Bytes) :
    readHead (head ++ rest) = some (.array count, rest) := by
  unfold arrayHead at packed
  split at packed
  · obtain rfl := Except.ok.inj packed
    rw [List.singleton_append, readHead_small (by omega), if_neg (by omega), if_neg (by omega),
      if_pos (by omega), Nat.add_sub_cancel_left]
  split at packed
  · exact readHead_marked .array 0xDC 2 (fun _ => rfl) ‹_› packed rest
  split at packed
  · exact readHead_marked .array 0xDD 4 (fun _ => rfl) ‹_› packed rest
  · cases packed

theorem readHead_tableHead (packed : tableHead count = .ok head) (rest : Bytes) :
    readHead (head ++ rest) = some (.table count, rest) := by
  unfold tableHead at packed
  split at packed
  · obtain rfl := Except.ok.inj packed
    rw [List.singleton_append, readHead_small (by omega), if_neg (by omega), if_pos (by omega),
      Nat.add_sub_cancel_left]
  split at packed
  · exact readHead_marked .table 0xDE 2 (fun _ => rfl) ‹_› packed rest
  split at packed
  · exact readHead_marked .table 0xDF 4 (fun _ => rfl) ‹_› packed rest
  · cases packed

theorem readHead_negative (large : 0xE0 ≤ n) (byte : n < 0x100) (rest : Bytes) :
    readHead (UInt8.ofNat n :: rest) = some (.value (.int (n - 0x100)), rest) := by
  have value : (UInt8.ofNat n).toNat = n := by simpa using byte
  simp only [readHead, value]
  rw [if_neg (by omega), if_neg (by omega), if_neg (by omega), if_neg (by omega), if_pos large]

theorem readHead_packInt {n : Int} (packed : packInt n = .ok head) (rest : Bytes) :
    readHead (head ++ rest) = some (.value (.int n), rest) := by
  let unsigned (m : Nat) : Head := .value (.int m)
  unfold packInt at packed
  split at packed
  · rename_i positive
    obtain ⟨m, rfl⟩ := Int.eq_ofNat_of_zero_le positive
    simp only [Int.toNat_natCast] at packed
    split at packed
    · obtain rfl := Except.ok.inj packed
      rw [List.singleton_append, readHead_small (by omega), if_pos (by omega)]
    split at packed
    · exact readHead_marked unsigned 0xCC 1 (fun _ => rfl) ‹_› packed rest
    split at packed
    · exact readHead_marked unsigned 0xCD 2 (fun _ => rfl) ‹_› packed rest
    split at packed
    · exact readHead_marked unsigned 0xCE 4 (fun _ => rfl) ‹_› packed rest
    split at packed
    · exact readHead_marked unsigned 0xCF 8 (fun _ => rfl) ‹_› packed rest
    · cases packed
  · split at packed
    · obtain rfl := Except.ok.inj packed
      obtain ⟨m, same⟩ : ∃ m : Nat, (m : Int) = n + 0x100 := ⟨(n + 0x100).toNat, by omega⟩
      have byte : Bytes.ofIntBE 1 n = [UInt8.ofNat m] := by
        have digit : (n % (Nat.pow 256 1 : Int)).toNat = m := by
          show (n % 256).toNat = m
          omega
        rw [Bytes.ofIntBE, digit, Bytes.bigEndian, Bytes.littleEndian, Nat.mod_eq_of_lt (by omega)]
        rfl
      rw [byte, List.singleton_append, readHead_negative (by omega) (by omega), same]
      simp
    split at packed
    · exact readHead_signed 0xD0 1 0x100 (fun _ => rfl) rfl (by omega) (by omega) packed rest
    split at packed
    · exact readHead_signed 0xD1 2 0x10000 (fun _ => rfl) rfl (by omega) (by omega) packed rest
    split at packed
    · exact readHead_signed 0xD2 4 0x100000000 (fun _ => rfl) rfl (by omega) (by omega) packed rest
    split at packed
    · exact readHead_signed 0xD3 8 0x10000000000000000 (fun _ => rfl) rfl (by omega) (by omega) packed rest
    · cases packed

theorem length_head {announced : Head}
    (reads : ∀ rest, readHead (head ++ rest) = some (announced, rest)) : 0 < head.length := by
  cases head with
  | nil =>
      have none := reads []
      simp [readHead] at none
  | cons byte rest => simp

/-- The value is read from bytes whatever follows them, in as many steps as twice their number. -/
def Reads (room : Nat) (v : Value) (bytes : Bytes) : Prop :=
  ∀ more fuel rest, room ≤ more → 2 * bytes.length ≤ fuel →
    readValue more fuel (bytes ++ rest) = some (v, rest)

/-- Nothing is read from no bytes. -/
theorem Reads.length_pos {v : Value} (reads : Reads room v bytes) : 0 < bytes.length := by
  cases bytes with
  | nil =>
      have none := reads room 0 [] (Nat.le_refl _) (Nat.le_refl _)
      simp [readValue] at none
  | cons byte rest => simp

/-- A value that its head announces is read in one step from what follows the head. -/
theorem reads_of_head {v : Value} {announced : Head} {body : Bytes}
    (announces : ∀ rest, readHead (head ++ rest) = some (announced, rest))
    (reads : ∀ more fuel rest, room ≤ more → 2 * body.length + 1 ≤ fuel →
      readHead (head ++ (body ++ rest)) = some (announced, body ++ rest) →
        readValue more (fuel + 1) (head ++ (body ++ rest)) = some (v, rest)) :
    Reads room v (head ++ body) := by
  intro more fuel rest deep enough
  have long := length_head announces
  rw [List.length_append] at enough
  obtain ⟨fuel, rfl⟩ : ∃ k, fuel = k + 1 := ⟨fuel - 1, by omega⟩
  rw [List.append_assoc]
  exact reads more fuel rest deep (by omega) (announces _)

theorem reads_scalar {v : Value} (announces : ∀ rest, readHead (head ++ rest) = some (.value v, rest)) :
    Reads room v head := by
  have whole : Reads room v (head ++ []) :=
    reads_of_head announces fun more fuel rest _ _ found => by
      rw [readValue, found]
      rfl
  rwa [List.append_nil] at whole

theorem packText_reads {text : String} (packed : packText text = .ok bytes) :
    Reads room (.text text) bytes := by
  obtain ⟨head, heading, packed⟩ := except_bind_eq_ok.mp packed
  obtain rfl := Except.ok.inj packed
  refine reads_of_head (readHead_textHead heading) fun more fuel rest _ _ found => ?_
  simp [readValue, found, readText, Bytes.split?_append _ _ rfl, Utf8.decode?_encode]

theorem packBytes_reads {b : Bytes} (packed : packBytes b = .ok bytes) :
    Reads room (.bytes b) bytes := by
  obtain ⟨head, heading, packed⟩ := except_bind_eq_ok.mp packed
  obtain rfl := Except.ok.inj packed
  refine reads_of_head (readHead_bytesHead heading) fun more fuel rest _ _ found => ?_
  simp [readValue, found, readBytes, Bytes.split?_append _ _ rfl]

theorem descend_ok {below : Nat} (descended : descend room = .ok below) : room = below + 1 := by
  cases room with
  | zero => cases descended
  | succ room =>
      obtain rfl := Except.ok.inj descended
      rfl

/-- The items of an array are read one after another, each a level further down. -/
theorem packItems_reads {items : List Value}
    (reads : ∀ item ∈ items, ∀ room bytes, packValue room item = .ok bytes → Reads room item bytes)
    (packed : packItems room items = .ok bytes) (done : List Value) (deep : room ≤ more + 1)
    (enough : 2 * bytes.length + 1 ≤ fuel) (rest : Bytes) :
    readItems more done items.length fuel (bytes ++ rest) =
      some (.array (done.reverse ++ items), rest) := by
  induction items generalizing done fuel bytes with
  | nil =>
      obtain rfl := Except.ok.inj packed
      obtain ⟨fuel, rfl⟩ : ∃ k, fuel = k + 1 := ⟨fuel - 1, by omega⟩
      simp [readItems]
  | cons item items ih =>
      rw [packItems] at packed
      obtain ⟨below, descended, packed⟩ := except_bind_eq_ok.mp packed
      obtain ⟨first, packed₁, packed⟩ := except_bind_eq_ok.mp packed
      obtain ⟨others, packed₂, packed⟩ := except_bind_eq_ok.mp packed
      obtain rfl := Except.ok.inj packed
      obtain rfl := descend_ok descended
      have here := reads item (by simp) below first packed₁
      have long := here.length_pos
      simp only [List.length_append] at enough
      obtain ⟨fuel, rfl⟩ : ∃ k, fuel = k + 1 := ⟨fuel - 1, by omega⟩
      have found := here more fuel (others ++ rest) (by omega) (by omega)
      have following : readItems more (item :: done) items.length fuel (others ++ rest) =
          some (.array ((item :: done).reverse ++ items), rest) :=
        ih (fun other member => reads other (by simp [member])) packed₂ (item :: done) (by omega)
      rw [List.append_assoc, readItems, List.length_cons, if_neg (Nat.succ_ne_zero _), found]
      simpa using following

theorem packArray_reads {items : List Value}
    (reads : ∀ item ∈ items, ∀ room bytes, packValue room item = .ok bytes → Reads room item bytes)
    (packed : packValue room (.array items) = .ok bytes) : Reads room (.array items) bytes := by
  obtain ⟨head, heading, packed⟩ := except_bind_eq_ok.mp packed
  obtain ⟨body, packed', packed⟩ := except_bind_eq_ok.mp packed
  obtain rfl := Except.ok.inj packed
  refine reads_of_head (readHead_arrayHead heading) fun more fuel rest deep enough found => ?_
  cases items with
  | nil =>
      obtain rfl := Except.ok.inj packed'
      rw [readValue, found]
      rfl
  | cons item items =>
      -- only an array with items takes a level, in the writer as in the reader
      obtain ⟨below, descended, -⟩ := except_bind_eq_ok.mp packed'
      have level : room = below + 1 := descend_ok descended
      have inside : more ≠ 0 := by omega
      have following : readItems (more - 1) [] (item :: items).length fuel (body ++ rest) =
          some (.array (item :: items), rest) :=
        packItems_reads reads packed' [] (by omega) enough rest
      rw [readValue, found, List.length_cons]
      simpa [inside] using following

/-- The entries of a table as they are read. -/
def keyed (entries : Table) : List (Value × Value) :=
  entries.map fun (key, value) => (.text key, value)

theorem setKey_new {key : String} {value : Value} {entries : Table} (new : key ∉ entries.keys) :
    setKey (.text key) value (keyed entries) = keyed (entries ++ [(key, value)]) := by
  induction entries with
  | nil => rfl
  | cons entry rest ih =>
      obtain ⟨name, held⟩ := entry
      rw [Table.keys, List.map_cons, List.mem_cons, not_or] at new
      have other : sameKey (.text name) (.text key) = false := by simpa [sameKey] using Ne.symm new.1
      have further := ih new.2
      simp only [keyed, List.map_cons, List.cons_append] at further ⊢
      simp [setKey, other, further]

theorem mapM_keyed {read : Value × Value → Option (String × Value)}
    (reads : ∀ name value, read (.text name, value) = some (name, value)) (entries : Table) :
    (keyed entries).mapM read = some entries := by
  induction entries with
  | nil => rfl
  | cons entry rest ih =>
      simp only [keyed, List.map_cons, List.mapM_cons] at ih ⊢
      simp [ih, reads]

theorem tableOf_keyed (entries : Table) : tableOf (keyed entries) = .table entries := by
  unfold tableOf
  dsimp only
  rw [mapM_keyed fun _ _ => rfl]

/-- The entries of a table are read one after another, each a level further down. -/
theorem packEntries_reads {entries done : Table}
    (reads : ∀ entry ∈ entries, ∀ room bytes, packValue room entry.2 = .ok bytes →
      Reads room entry.2 bytes)
    (packed : packEntries room entries = .ok bytes) (distinct : (done ++ entries).keys.Nodup)
    (deep : room ≤ more + 1) (enough : 2 * bytes.length + 1 ≤ fuel) (rest : Bytes) :
    readEntries more (keyed done) entries.length fuel (bytes ++ rest) =
      some (.table (done ++ entries), rest) := by
  induction entries generalizing done fuel bytes with
  | nil =>
      obtain rfl := Except.ok.inj packed
      obtain ⟨fuel, rfl⟩ : ∃ k, fuel = k + 1 := ⟨fuel - 1, by omega⟩
      simp [readEntries, tableOf_keyed]
  | cons entry entries ih =>
      obtain ⟨key, value⟩ := entry
      rw [packEntries] at packed
      obtain ⟨below, descended, packed⟩ := except_bind_eq_ok.mp packed
      obtain ⟨name, packed₁, packed⟩ := except_bind_eq_ok.mp packed
      obtain ⟨first, packed₂, packed⟩ := except_bind_eq_ok.mp packed
      obtain ⟨others, packed₃, packed⟩ := except_bind_eq_ok.mp packed
      obtain rfl := Except.ok.inj packed
      obtain rfl := descend_ok descended
      have named : Reads below (.text key) name := packText_reads packed₁
      have here := reads (key, value) (by simp) below first packed₂
      have long := named.length_pos
      simp only [List.length_append] at enough
      obtain ⟨fuel, rfl⟩ : ∃ k, fuel = k + 1 := ⟨fuel - 1, by omega⟩
      have new : key ∉ done.keys := by
        rw [Table.keys, List.map_append, List.nodup_append] at distinct
        exact fun earlier => distinct.2.2 key earlier key (by simp) rfl
      have found := named more fuel (first ++ (others ++ rest)) (by omega) (by omega)
      have found' := here more fuel (others ++ rest) (by omega) (by omega)
      have following : readEntries more (keyed (done ++ [(key, value)])) entries.length fuel
          (others ++ rest) = some (.table (done ++ [(key, value)] ++ entries), rest) :=
        ih (fun other member => reads other (by simp [member])) packed₃ (by simpa using distinct)
          (by omega)
      rw [List.append_assoc, List.append_assoc, readEntries, List.length_cons,
        if_neg (Nat.succ_ne_zero _), found]
      simp only [isKey, Bool.not_true, Bool.false_eq_true, if_false, found', setKey_new new]
      simpa using following

theorem packTable_reads {entries : Table}
    (reads : ∀ entry ∈ entries, ∀ room bytes, packValue room entry.2 = .ok bytes →
      Reads room entry.2 bytes)
    (distinct : entries.keys.Nodup) (packed : packValue room (.table entries) = .ok bytes) :
    Reads room (.table entries) bytes := by
  obtain ⟨head, heading, packed⟩ := except_bind_eq_ok.mp packed
  obtain ⟨body, packed', packed⟩ := except_bind_eq_ok.mp packed
  obtain rfl := Except.ok.inj packed
  refine reads_of_head (readHead_tableHead heading) fun more fuel rest deep enough found => ?_
  cases entries with
  | nil =>
      obtain rfl := Except.ok.inj packed'
      rw [readValue, found]
      rfl
  | cons entry entries =>
      obtain ⟨below, descended, -⟩ := except_bind_eq_ok.mp packed'
      have level : room = below + 1 := descend_ok descended
      have inside : more ≠ 0 := by omega
      have following : readEntries (more - 1) (keyed []) (entry :: entries).length fuel
          (body ++ rest) = some (.table (entry :: entries), rest) :=
        packEntries_reads reads packed' distinct (by omega) enough rest
      rw [readValue, found, List.length_cons]
      simpa [inside, keyed] using following

/-- What was packed is read. -/
theorem packValue_reads {v : Value} (plain : v.Plain) :
    ∀ room bytes, packValue room v = .ok bytes → Reads room v bytes := by
  -- on the value; the lemmas about items and entries take the hypothesis for what is in a container
  induction plain with
  | null =>
      intro room bytes packed
      obtain rfl := Except.ok.inj packed
      exact reads_scalar fun _ => rfl
  | bool b =>
      intro room bytes packed
      obtain rfl := Except.ok.inj packed
      cases b
      · exact reads_scalar fun _ => rfl
      · exact reads_scalar fun _ => rfl
  | int n =>
      intro room bytes packed
      exact reads_scalar (readHead_packInt packed)
  | float x =>
      intro room bytes packed
      have fits : x.bits.toNat < Nat.pow 256 8 := x.bits.toNat_lt
      refine reads_scalar fun rest => ?_
      have found := readHead_marked (fun bits => .value (.float ⟨UInt64.ofNat bits⟩)) 0xCB 8
        (fun _ => rfl) fits packed rest
      simpa using found
  | text s =>
      intro room bytes packed
      exact packText_reads packed
  | bytes b =>
      intro room bytes packed
      exact packBytes_reads packed
  | moment m =>
      intro room bytes packed
      cases packed
  | array items _ ih =>
      intro room bytes packed
      exact packArray_reads ih packed
  | table entries distinct _ ih =>
      intro room bytes packed
      exact packTable_reads ih distinct packed

/-- What is packed is read as the same value, floats bit for bit and keys in their order. -/
theorem unpack?_pack {v : Value} (plain : v.Plain) (packed : pack v = .ok bytes) :
    unpack? bytes = some v := by
  have room : writeDepth ≤ readDepth := by decide
  have found := packValue_reads plain writeDepth bytes packed readDepth (2 * bytes.length + 2) [] room
    (by omega)
  rw [List.append_nil] at found
  rw [unpack?, found]

end MessagePack

end Foundry
