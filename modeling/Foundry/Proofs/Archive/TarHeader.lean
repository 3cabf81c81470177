import Mathlib.Algebra.Group.Nat.Defs
import Foundry.Archive.Tar.Writer
import Foundry.Proofs.Text.Utf8

/-! Header blocks of tar archives are read as the members that they were written for. -/
namespace Foundry.Tar

/-! ### Octal numbers -/

theorem octalDigit_of_mem_toDigits {n : Nat} {c : Char} (member : c ∈ Nat.toDigits 8 n) :
    '0' ≤ c ∧ c ≤ '7' := by
  induction n using Nat.strongRecOn with
  | ind n ih =>
      have digit {d : Nat} (small : d < 8) : '0' ≤ d.digitChar ∧ d.digitChar ≤ '7' := by
        revert d
        decide
      rw [Nat.toDigits_eq_if (by decide)] at member
      split at member
      · rename_i small
        obtain rfl := List.mem_singleton.mp member
        exact digit small
      · rw [List.mem_append, List.mem_singleton] at member
        rcases member with before | rfl
        · exact ih (n / 8) (by omega) before
        · exact digit (Nat.mod_lt _ (by decide))

theorem octal_digits {chars : List Char} (digits : ∀ c ∈ chars, '0' ≤ c ∧ c ≤ '7') (n : Nat)
    (afterDigit : Bool) (some : chars ≠ [] ∨ afterDigit = true) :
    octal n afterDigit chars = .some (Nat.ofDigitChars 8 chars n) := by
  induction chars generalizing n afterDigit with
  | nil => simp [octal, some.resolve_left (by simp)]
  | cons c rest ih =>
      rw [octal, if_pos (digits c (by simp)), ih (fun d member => digits d (by simp [member])) _ _
        (.inr rfl), Nat.ofDigitChars_cons]

theorem readOctal_digits {chars : List Char} (digits : ∀ c ∈ chars, '0' ≤ c ∧ c ≤ '7')
    (some : chars ≠ []) : readOctal chars = .some (Nat.ofDigitChars 8 chars 0 : Nat) := by
  have value := octal_digits digits 0 false (.inl some)
  have other {c d : Char} (member : d ∈ chars) (outside : ¬ ('0' ≤ c ∧ c ≤ '7')) : d ≠ c := by
    rintro rfl
    exact outside (digits d member)
  have unsigned (rest : List Char) : chars ≠ '-' :: rest ∧ chars ≠ '+' :: rest := by
    constructor
    all_goals
      rintro rfl
      exact other List.mem_cons_self (by decide) rfl
  have unmarked (rest : List Char) : chars ≠ '0' :: 'o' :: rest ∧ chars ≠ '0' :: 'O' :: rest := by
    constructor
    all_goals
      rintro rfl
      exact other (List.mem_cons_of_mem _ List.mem_cons_self) (by decide) rfl
  unfold readOctal
  split
  rename_i negative rest sign
  split at sign
  · exact absurd rfl (unsigned _).1
  · exact absurd rfl (unsigned _).2
  · obtain ⟨rfl, rfl⟩ := Prod.mk.inj sign
    simp only [Bool.false_eq_true, if_false]
    split
    · exact absurd rfl (unmarked _).1
    · exact absurd rfl (unmarked _).2
    · exact absurd rfl (unmarked _).1
    · exact absurd rfl (unmarked _).2
    · rw [value]
      rfl

/-- Digits as bytes. -/
def digitBytes (chars : List Char) : Bytes := chars.map fun c => UInt8.ofNat c.toNat

theorem toNat_digitByte {c : Char} (digit : '0' ≤ c ∧ c ≤ '7') :
    (UInt8.ofNat c.toNat).toNat = c.toNat := by
  have low : c.toNat ≤ 55 := digit.2
  simp
  omega

section Digits
variable {chars : List Char} (digits : ∀ c ∈ chars, '0' ≤ c ∧ c ≤ '7')
include digits

theorem byte_of_mem_digitBytes {b : UInt8} (found : b ∈ digitBytes chars) :
    48 ≤ b.toNat ∧ b.toNat ≤ 55 := by
  obtain ⟨c, member, rfl⟩ := List.mem_map.mp found
  rw [toNat_digitByte (digits c member)]
  exact digits c member

theorem map_digitBytes : (digitBytes chars).map (fun b => Char.ofNat b.toNat) = chars := by
  rw [digitBytes, List.map_map]
  refine (List.map_congr_left fun c member => ?_).trans (List.map_id _)
  rw [Function.comp_apply, toNat_digitByte (digits c member)]
  exact Char.ofNat_toNat c

theorem takeWhile_digitBytes (rest : Bytes) :
    (digitBytes chars ++ 0 :: rest).takeWhile (· ≠ 0) = digitBytes chars := by
  rw [List.takeWhile_append_of_pos]
  · simp
  · intro b member
    have low := (byte_of_mem_digitBytes digits member).1
    rw [decide_eq_true_eq]
    rintro rfl
    contradiction

theorem dropWhile_blank_digits : chars.dropWhile Text.isBlank = chars := by
  cases chars with
  | nil => rfl
  | cons c rest =>
      have low : 48 ≤ c.toNat := (digits c (by simp)).1
      have high : c.toNat ≤ 55 := (digits c (by simp)).2
      have printed : Text.isBlank c = false := by
        simp only [Text.isBlank, Bool.or_eq_false_iff, Bool.and_eq_false_iff, decide_eq_false_iff_not,
          beq_eq_false_iff_ne]
        omega
      rw [List.dropWhile_cons, printed, if_neg Bool.false_ne_true]

/-- A field that holds octal digits and a zero behind them. -/
theorem numberField_digits (some : chars ≠ []) (rest : Bytes) :
    numberField (digitBytes chars ++ 0 :: rest) = .some (Nat.ofDigitChars 8 chars 0 : Nat) := by
  have plain : ¬ (digitBytes chars).any (0x80 ≤ ·) = true := by
    rw [List.any_eq_true]
    rintro ⟨b, member, high⟩
    have low := (byte_of_mem_digitBytes digits member).2
    rw [decide_eq_true_eq, UInt8.le_iff_toNat_le] at high
    exact absurd (Nat.le_trans high low) (by decide)
  -- the marks of base-256 numbers are no digits
  have unmarked (mark : UInt8) (high : 55 < mark.toNat) (more : Bytes) :
      digitBytes chars ++ 0 :: rest ≠ mark :: more := by
    intro same
    cases chars with
    | nil => exact some rfl
    | cons c others =>
        have first : UInt8.ofNat c.toNat = mark := (List.cons.inj same).1
        have low := (byte_of_mem_digitBytes digits (List.mem_map_of_mem List.mem_cons_self)).2
        rw [first] at low
        omega
  have blank : chars.reverse.dropWhile Text.isBlank = chars.reverse :=
    dropWhile_blank_digits fun c member => digits c (List.mem_reverse.mp member)
  unfold numberField
  split
  · rename_i more same
    exact absurd same (unmarked 0x80 (by decide) more)
  · rename_i more same
    exact absurd same (unmarked 0xFF (by decide) more)
  · rw [takeWhile_digitBytes digits]
    dsimp only
    rw [if_neg plain, map_digitBytes digits, dropWhile_blank_digits digits, blank, List.reverse_reverse,
      if_neg (by simpa using some), readOctal_digits digits some]

end Digits

/-- The number in an octal field. -/
theorem numberField_octalField (size n : Nat) (rest : Bytes) :
    numberField (octalField size n ++ rest) = .some (n : Int) := by
  have digits : ∀ c ∈ List.replicate (size - 1 - (Nat.toDigits 8 n).length) '0' ++ Nat.toDigits 8 n,
      '0' ≤ c ∧ c ≤ '7' := by
    intro c member
    rcases List.mem_append.mp member with zero | digit
    · rw [List.eq_of_mem_replicate zero]
      decide
    · exact octalDigit_of_mem_toDigits digit
  have found := numberField_digits digits (by simp [Nat.toDigits_ne_nil]) rest
  rw [Nat.ofDigitChars_append, Nat.ofDigitChars_replicate_zero, Nat.mul_zero,
    Nat.ofDigitChars_toDigits (by decide) (by decide)] at found
  simpa [octalField, digitBytes] using found

theorem length_octalField {size n : Nat} (some : 0 < size) (fits : n < 8 ^ size) :
    (octalField (size + 1) n).length = size + 1 := by
  have short : (Nat.toDigits 8 n).length ≤ size :=
    (Nat.length_toDigits_le_iff (by decide) some).mpr fits
  simp only [octalField, Nat.add_sub_cancel, List.length_append, List.length_map,
    List.length_replicate, List.length_singleton]
  omega

/-! ### Fields -/

theorem field_skip {start size : Nat} (before bytes : Bytes) (far : before.length ≤ start) :
    field (before ++ bytes) start size = field bytes (start - before.length) size := by
  rw [field, List.drop_append, List.drop_of_length_le far, List.nil_append, field]

theorem field_here {size : Nat} (bytes after : Bytes) (long : bytes.length = size) :
    field (bytes ++ after) 0 size = bytes := by
  subst long
  simp [field]

@[simp] theorem length_fillTo (size : Nat) (bytes : Bytes) : (fillTo size bytes).length = size := by
  simp [fillTo]
  omega

theorem textField_fillTo {size : Nat} {bytes : Bytes} (whole : 0 ∉ bytes) :
    (fillTo size bytes).takeWhile (· ≠ 0) = bytes.take size := by
  rw [fillTo, List.take_append]
  have text : ∀ b ∈ bytes.take size, decide (b ≠ 0) = true := by
    intro b member
    rw [decide_eq_true_eq]
    rintro rfl
    exact whole (List.mem_of_mem_take member)
  rw [List.takeWhile_append_of_pos text]
  simp [List.take_replicate]

/-- The bytes of a header block before the field of its checksum. -/
def leading (header : Header) : Bytes :=
  fillTo 100 header.name ++ (octalField 8 (permissions header.kind) ++ (octalField 8 0 ++
    (octalField 8 0 ++ (octalField 12 header.size ++ octalField 12 0))))

/-- The bytes of a header block behind the field of its checksum. -/
def trailing (header : Header) : Bytes :=
  [typeByte header.kind] ++ (fillTo 100 header.linkName ++
    ((Utf8.encode "ustar" ++ [0, 0x30, 0x30]) ++ List.replicate 247 0))

theorem headerWith_eq (header : Header) (sum : Bytes) :
    headerWith header sum = leading header ++ (sum ++ trailing header) := by
  simp [headerWith, leading, trailing, List.append_assoc]

section Block
variable {header : Header} {sum : Bytes}

/-- The lengths of the octal fields. -/
theorem length_octalFields (fits : header.size < sizeLimit) :
    (octalField 8 (permissions header.kind)).length = 8 ∧ (octalField 8 0).length = 8 ∧
      (octalField 12 header.size).length = 12 ∧ (octalField 12 0).length = 12 := by
  have mode : permissions header.kind < 8 ^ 7 := by
    unfold permissions
    split <;> decide
  exact ⟨length_octalField (by decide) mode, by decide, length_octalField (by decide) fits, by decide⟩

theorem length_leading (fits : header.size < sizeLimit) : (leading header).length = 148 := by
  obtain ⟨mode, owner, size, time⟩ := length_octalFields fits
  simp [leading, mode, owner, size, time]

theorem length_trailing (header : Header) : (trailing header).length = 356 := by
  have mark : (Utf8.encode "ustar").length = 5 := by decide
  simp only [trailing, List.length_cons, List.length_append, length_fillTo, List.length_replicate,
    List.length_nil, mark]

/-- A block is what comes before its checksum, the checksum, and what comes after it. -/
theorem checksum_headerWith (fits : header.size < sizeLimit) (long : sum.length = 8) :
    checksum (headerWith header sum) =
      256 + (leading header).foldl (fun n b => n + b.toNat) 0 +
        (trailing header).foldl (fun n b => n + b.toNat) 0 := by
  have front : (headerWith header sum).take 148 = leading header := by
    rw [headerWith_eq, ← length_leading fits, List.take_left]
  have back : (headerWith header sum).drop 156 = trailing header := by
    rw [headerWith_eq, ← List.append_assoc]
    have place : (leading header ++ sum).length = 156 := by
      rw [List.length_append, length_leading fits, long]
    rw [← place, List.drop_left]
  simp only [checksum, front, back]

theorem foldl_bytes_le (bytes : Bytes) (n : Nat) :
    bytes.foldl (fun n b => n + b.toNat) n ≤ n + 255 * bytes.length := by
  induction bytes generalizing n with
  | nil => simp
  | cons b rest ih =>
      have byte := b.toNat_lt
      have further := ih (n + b.toNat)
      rw [List.foldl_cons, List.length_cons]
      omega

theorem length_checksumField (fits : header.size < sizeLimit) :
    (octalField 7 (checksum (headerWith header (List.replicate 8 0x20))) ++ [0x20]).length = 8 := by
  have small : checksum (headerWith header (List.replicate 8 0x20)) < 8 ^ 6 := by
    have front := foldl_bytes_le (leading header) 0
    have back := foldl_bytes_le (trailing header) 0
    rw [length_leading fits] at front
    rw [length_trailing] at back
    rw [checksum_headerWith fits (by simp)]
    omega
  rw [List.length_append, length_octalField (by decide) small]
  rfl

/-- The fields of a header block. -/
theorem field_writeHeader (fits : header.size < sizeLimit) :
    field (writeHeader header) 0 100 = fillTo 100 header.name ∧
      field (writeHeader header) 100 8 = octalField 8 (permissions header.kind) ∧
      field (writeHeader header) 108 8 = octalField 8 0 ∧
      field (writeHeader header) 116 8 = octalField 8 0 ∧
      field (writeHeader header) 124 12 = octalField 12 header.size ∧
      field (writeHeader header) 136 12 = octalField 12 0 ∧
      field (writeHeader header) 148 8 = octalField 7 (checksum (writeHeader header)) ++ [0x20] ∧
      (writeHeader header).drop 156 = trailing header := by
  obtain ⟨mode, owner, size, time⟩ := length_octalFields fits
  have sized := length_checksumField fits
  have sum : checksum (writeHeader header) = checksum (headerWith header (List.replicate 8 0x20)) := by
    rw [writeHeader, checksum_headerWith fits sized, checksum_headerWith fits (by simp)]
  rw [← sum] at sized
  have block : writeHeader header = fillTo 100 header.name ++ (octalField 8 (permissions header.kind) ++
      (octalField 8 0 ++ (octalField 8 0 ++ (octalField 12 header.size ++ (octalField 12 0 ++
        ((octalField 7 (checksum (writeHeader header)) ++ [0x20]) ++ trailing header)))))) := by
    rw [sum]
    simp only [writeHeader, headerWith_eq, leading, List.append_assoc]
  generalize octalField 7 (checksum (writeHeader header)) ++ [0x20] = total at sized block
  rw [block]
  refine ⟨?_, ?_, ?_, ?_, ?_, ?_, ?_, ?_⟩
  all_goals
    simp only [field_skip, field_here, length_fillTo, mode, owner, size, time, sized, List.drop_append,
      List.drop_of_length_le, List.nil_append, Nat.reduceLeDiff, Nat.reduceSub, Nat.le_refl,
      Nat.sub_self, List.drop_zero]

/-- Behind the mark of the format a header block holds zeros. -/
theorem field_trailing_zeros (header : Header) (start : Nat) {size : Nat} (inside : start + size ≤ 247) :
    field (trailing header) (109 + start) size = List.replicate size 0 := by
  have mark : (Utf8.encode "ustar" ++ [0, 0x30, 0x30]).length = 8 := by decide
  have short : min size (247 - start) = size := by omega
  have place : 109 + start - 1 - 100 - 8 = start := by omega
  rw [trailing, field_skip _ _ (by simp; omega), field_skip _ _ (by simp; omega),
    field_skip _ _ (by rw [mark]; simp; omega), mark, field]
  simp only [List.length_singleton, length_fillTo, List.drop_replicate, List.take_replicate, place, short]

theorem readHeader_writeHeader (fits : header.size < sizeLimit) (whole : 0 ∉ header.name)
    (unlinked : header.linkName = [])
    (kind : header.kind = .file ∨ header.kind = .directory ∨ header.kind = .extended) :
    readHeader (writeHeader header) = some { header with
      name := if header.kind = .directory then dropSlashes (header.name.take 100)
        else header.name.take 100 } := by
  obtain ⟨name, mode, owner, group, size, time, sum, tail⟩ := field_writeHeader fits
  have behind (start size : Nat) : field (writeHeader header) (156 + start) size =
      field (trailing header) start size := by
    rw [field, ← List.drop_drop, tail, field]
  have link : textField (writeHeader header) 157 100 = [] := by
    rw [textField, behind 1 100, trailing, field_skip _ _ (by simp)]
    simp only [List.length_singleton, Nat.sub_self]
    rw [field_here _ _ (length_fillTo _ _), unlinked, textField_fillTo List.not_mem_nil]
    rfl
  have lead : textField (writeHeader header) 345 155 = [] := by
    rw [textField, behind 189, field_trailing_zeros header 80 (by decide)]
    decide
  have device : numberField (field (writeHeader header) 329 8) = some 0 := by
    rw [behind 173, field_trailing_zeros header 64 (by decide)]
    decide
  have device' : numberField (field (writeHeader header) 337 8) = some 0 := by
    rw [behind 181, field_trailing_zeros header 72 (by decide)]
    decide
  have plain (size n : Nat) : (numberField (octalField size n)).isNone = false := by
    rw [← List.append_nil (octalField size n), numberField_octalField]
    rfl
  have summed : numberField (field (writeHeader header) 148 8) =
      some (checksum (writeHeader header) : Int) := by
    rw [sum, numberField_octalField]
  have sized : numberField (field (writeHeader header) 124 12) = some (header.size : Int) := by
    rw [size]
    simpa using numberField_octalField 12 header.size []
  have type : ((writeHeader header).drop 156).headD 0 = typeByte header.kind := by
    rw [tail]
    rfl
  have named : textField (writeHeader header) 0 100 = header.name.take 100 := by
    rw [textField, name, textField_fillTo whole]
  unfold readHeader
  simp only [summed, sized, named, link, lead, type, bind, Option.bind, ne_eq, not_true_eq_false,
    false_and, if_false, Bool.false_eq_true, numberFields, List.any_cons, List.any_nil, mode, owner,
    group, time, plain, device, device', Option.isNone_some, Bool.or_self]
  obtain ⟨bytes, k, n, target⟩ := header
  subst unlinked
  rcases kind with rfl | rfl | rfl
  all_goals simp [typeByte, Kind.ofByte]

end Block

end Foundry.Tar
