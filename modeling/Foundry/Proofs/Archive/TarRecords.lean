import Foundry.Archive.Tar.Reader
import Foundry.Proofs.Archive.TarHeader

/-! The records of extended headers are read as the fields for which they were written. -/
namespace Foundry.Tar

/-- The digits of a number as bytes. -/
theorem encode_toString (n : Nat) : Utf8.encode (toString n) = digitBytes (Nat.toDigits 10 n) := by
  have digits : (toString n).toList = Nat.toDigits 10 n := by
    rw [Nat.toString_eq_ofList_toDigits, String.toList_ofList]
  rw [Utf8.encode_ascii, digits, digitBytes]
  intro c member
  rw [digits] at member
  have digit := Nat.isDigit_of_mem_toDigits (by decide) (by decide) member
  simp only [Char.isDigit, Bool.and_eq_true, decide_eq_true_eq] at digit
  exact Nat.lt_of_le_of_lt digit.2 (by decide)

/-- A length of so many digits. -/
theorem length_toDigits_le {n k : Nat} (some : 0 < k) :
    (Nat.toDigits 10 n).length ≤ k ↔ n < 10 ^ k := Nat.length_toDigits_le_iff (by decide) some

/-- Adding the digits of a length to it makes it longer by one digit at most, so that some number of
digits is right. -/
theorem exists_recordLength {size : Nat} (small : size < 10 ^ 19) : ∃ digits, digits < 20 ∧
    size + (Nat.toDigits 10 (size + digits + 1)).length = size + digits + 1 := by
  have short : (Nat.toDigits 10 size).length ≤ 19 := (length_toDigits_le (by decide)).mpr small
  have some : 0 < (Nat.toDigits 10 size).length := Nat.length_toDigits_pos
  generalize length : (Nat.toDigits 10 size).length = k at short some
  have bound : size < 10 ^ k := (length_toDigits_le some).mp (by omega)
  have least (n : Nat) : k ≤ (Nat.toDigits 10 (size + n)).length := by
    by_contra fewer
    have positive : 0 < (Nat.toDigits 10 (size + n)).length := Nat.length_toDigits_pos
    have less := (length_toDigits_le (show 0 < k - 1 by omega)).mp
      (show (Nat.toDigits 10 (size + n)).length ≤ k - 1 by omega)
    have shorter := (length_toDigits_le (show 0 < k - 1 by omega)).mpr
      (show size < 10 ^ (k - 1) by omega)
    omega
  have most : (Nat.toDigits 10 (size + k + 1)).length ≤ k + 1 := by
    have power : k < 10 ^ k := Nat.lt_pow_self (by decide)
    rw [length_toDigits_le (by omega), Nat.pow_succ]
    omega
  by_cases same : (Nat.toDigits 10 (size + k)).length ≤ k
  · refine ⟨k - 1, by omega, ?_⟩
    have exact' := least k
    rw [show size + (k - 1) + 1 = size + k by omega]
    omega
  · refine ⟨k, by omega, ?_⟩
    have more : ¬ (Nat.toDigits 10 (size + k + 1)).length ≤ k := by
      rw [length_toDigits_le some] at same ⊢
      omega
    omega

/-- The digits of the length of a record count in it. -/
theorem recordLength_spec {size : Nat} (small : size < 10 ^ 19) :
    size + (Nat.toDigits 10 (recordLength size)).length = recordLength size ∧
      recordLength size ≤ size + 20 := by
  obtain ⟨digits, few, right⟩ := exists_recordLength small
  have found : (((List.range 20).map fun digits => size + digits + 1).find?
      (fun total => size + (Nat.toDigits 10 total).length = total)).isSome := by
    rw [List.find?_isSome]
    exact ⟨size + digits + 1, List.mem_map.mpr ⟨digits, List.mem_range.mpr few, rfl⟩, by simpa using right⟩
  obtain ⟨total, same⟩ := Option.isSome_iff_exists.mp found
  rw [recordLength, same, Option.getD_some]
  refine ⟨by simpa using List.find?_some same, ?_⟩
  obtain ⟨digits, few, rfl⟩ := List.mem_map.mp (List.mem_of_find?_eq_some same)
  have less := List.mem_range.mp few
  omega

theorem digit_of_mem_digitBytes {n : Nat} {b : UInt8} (member : b ∈ digitBytes (Nat.toDigits 10 n)) :
    0x30 ≤ b ∧ b ≤ 0x39 := by
  obtain ⟨c, among, rfl⟩ := List.mem_map.mp member
  have digit := Nat.isDigit_of_mem_toDigits (b := 10) (by decide) (by decide) among
  simp only [Char.isDigit, Bool.and_eq_true, decide_eq_true_eq] at digit
  have low : 48 ≤ c.toNat := digit.1
  have high : c.toNat ≤ 57 := digit.2
  rw [UInt8.le_iff_toNat_le, UInt8.le_iff_toNat_le, UInt8.toNat_ofNat']
  show 48 ≤ _ ∧ _ ≤ 57
  omega

/-- The number that digits stand for. -/
theorem foldl_digitBytes (n : Nat) :
    (digitBytes (Nat.toDigits 10 n)).foldl (fun n b => n * 10 + (b.toNat - 0x30)) 0 = n := by
  have value (chars : List Char) (digits : ∀ c ∈ chars, c.isDigit = true) (m : Nat) :
      (digitBytes chars).foldl (fun n b => n * 10 + (b.toNat - 0x30)) m = Nat.ofDigitChars 10 chars m := by
    induction chars generalizing m with
    | nil => rfl
    | cons c rest ih =>
        have digit := digits c (by simp)
        simp only [Char.isDigit, Bool.and_eq_true, decide_eq_true_eq] at digit
        have high : c.toNat ≤ 57 := digit.2
        have byte : (UInt8.ofNat c.toNat).toNat = c.toNat := by
          rw [UInt8.toNat_ofNat']
          omega
        rw [Nat.ofDigitChars_cons, ← ih (fun d member => digits d (by simp [member]))]
        simp only [digitBytes, List.map_cons, List.foldl_cons, byte, Nat.mul_comm m 10]
        rfl
  rw [value _ fun c => Nat.isDigit_of_mem_toDigits (by decide) (by decide), Nat.ofDigitChars_ten_toDigits]

theorem length_fieldRecord {key value : Bytes} (small : key.length + value.length + 3 < 10 ^ 19) :
    (fieldRecord key value).length ≤ key.length + value.length + 23 := by
  obtain ⟨length, short⟩ := recordLength_spec small
  have digits : (Utf8.encode (toString (recordLength (key.length + value.length + 3)))).length =
      (Nat.toDigits 10 (recordLength (key.length + value.length + 3))).length := by
    rw [encode_toString, digitBytes, List.length_map]
  simp only [fieldRecord, List.length_append, List.length_cons, List.length_nil, digits]
  omega

/-- The digits that a record with this key and value begins with. -/
def recordDigits (key value : Bytes) : Bytes :=
  digitBytes (Nat.toDigits 10 (recordLength (key.length + value.length + 3)))

section Record
variable {key value : Bytes}

theorem fieldRecord_append (key value rest : Bytes) : fieldRecord key value ++ rest =
    recordDigits key value ++ 0x20 :: (key ++ 0x3D :: (value ++ 0x0A :: rest)) := by
  simp only [fieldRecord, recordDigits, encode_toString, List.append_assoc, List.cons_append,
    List.nil_append]

/-- A record is as long as it says. -/
theorem length_recordDigits (small : key.length + value.length + 3 < 10 ^ 19) :
    (recordDigits key value).length + key.length + value.length + 3 =
      recordLength (key.length + value.length + 3) := by
  have length := (recordLength_spec small).1
  have same : (recordDigits key value).length =
      (Nat.toDigits 10 (recordLength (key.length + value.length + 3))).length := List.length_map _
  omega

theorem recordHead?_fieldRecord (named : key ≠ []) (plain : 0x3D ∉ key) (value rest : Bytes) :
    recordHead? (fieldRecord key value ++ rest) =
      some (recordLength (key.length + value.length + 3), key,
        (recordDigits key value).length + key.length + 2) := by
  have some : recordDigits key value ≠ [] := by simp [recordDigits, digitBytes, Nat.toDigits_ne_nil]
  have counted : (fieldRecord key value ++ rest).takeWhile (fun b => 0x30 ≤ b && b ≤ 0x39) =
      recordDigits key value := by
    rw [fieldRecord_append, List.takeWhile_append_of_pos fun b member => by
      simpa using digit_of_mem_digitBytes member]
    simp
  have keyed : (key ++ 0x3D :: (value ++ 0x0A :: rest)).takeWhile (· ≠ 0x3D) = key := by
    rw [List.takeWhile_append_of_pos fun b member => by
      rw [decide_eq_true_eq]
      rintro rfl
      exact plain member]
    simp
  have number : (recordDigits key value).foldl (fun n b => n * 10 + (b.toNat - 0x30)) 0 =
      recordLength (key.length + value.length + 3) := foldl_digitBytes _
  have behind : (fieldRecord key value ++ rest).drop (recordDigits key value).length =
      0x20 :: (key ++ 0x3D :: (value ++ 0x0A :: rest)) := by
    rw [fieldRecord_append, List.drop_left]
  unfold recordHead?
  simp only [counted, behind, keyed, number]
  simp [named]

theorem readFields_record {rest : Bytes} {fields : Fields} {fuel : Nat} (named : key ≠ [])
    (plain : 0x3D ∉ key) (small : key.length + value.length + 3 < 10 ^ 19) :
    readFields fields (fuel + 1) (fieldRecord key value ++ rest) =
      readFields (fields.set key value) fuel rest := by
  have head := recordHead?_fieldRecord named plain value rest
  have long := length_recordDigits small
  have parted : fieldRecord key value ++ rest =
      (recordDigits key value ++ 0x20 :: (key ++ [0x3D])) ++ (value ++ 0x0A :: rest) := by
    rw [fieldRecord_append]
    simp
  have front : (recordDigits key value ++ 0x20 :: (key ++ [0x3D])).length =
      (recordDigits key value).length + key.length + 2 := by
    simp
    omega
  obtain ⟨m, total⟩ : ∃ m, recordLength (key.length + value.length + 3) = m + 1 :=
    ⟨recordLength (key.length + value.length + 3) - 1, by omega⟩
  rw [total] at head long
  generalize recordDigits key value ++ 0x20 :: (key ++ [0x3D]) = lead at parted front
  rw [← front] at head
  have held : ((fieldRecord key value ++ rest).take m).drop lead.length = value := by
    have remaining : m - lead.length = value.length := by omega
    rw [List.drop_take, parted, List.drop_left, remaining, List.take_left]
  have left : (fieldRecord key value ++ rest).drop (m + 1) = rest := by
    have end' : m + 1 = lead.length + (value.length + 1) := by omega
    rw [parted, end', ← List.drop_drop, List.drop_left, ← List.drop_drop, List.drop_left]
    rfl
  rw [readFields, head]
  simp only [held, left]

end Record

/-- Behind the records there is no further one. -/
theorem readFields_zeros (fields : Fields) (fuel count : Nat) :
    readFields fields (fuel + 1) (List.replicate count 0) = .some fields := by
  have none : recordHead? (List.replicate count 0) = .none := by
    cases count with
    | zero => rfl
    | succ count =>
        unfold recordHead?
        simp [List.replicate_succ]
  rw [readFields, none]

end Foundry.Tar
