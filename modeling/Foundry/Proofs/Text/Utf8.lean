import Mathlib.Data.List.Basic
import Foundry.Text.Utf8

/-! UTF-8: what a text is written as is read as that text again. -/
namespace Foundry.Utf8

theorem run_append (done : List Item) (state : Option Pending) (first second : Bytes) :
    run done state (first ++ second) =
      run (run done state first).1 (run done state first).2 second := by
  induction first generalizing done state with
  | nil => rfl
  | cons byte rest ih =>
      rw [List.cons_append, run, run]
      exact ih _ _

/-- A byte that goes on with a character. -/
theorem step_more {p : Pending} {n : Nat} (low : p.low.toNat ≤ n) (high : n ≤ p.high.toNat)
    (byte : n < 256) : step (some p) (UInt8.ofNat n) =
      if p.missing = 1 then ([some (Char.ofNat (p.value * 64 + n % 64))], none)
      else ([], some ⟨p.value * 64 + n % 64, p.missing - 1, 0x80, 0xBF⟩) := by
  have value : (UInt8.ofNat n).toNat = n := by simpa using byte
  have inside : p.low ≤ UInt8.ofNat n ∧ UInt8.ofNat n ≤ p.high := by
    rw [UInt8.le_iff_toNat_le, UInt8.le_iff_toNat_le, value]
    exact ⟨low, high⟩
  simp only [step, inside, value, and_self, if_true]

/-- The states after a first byte, by its value. -/
theorem start_ofNat {n : Nat} (byte : n < 256) : start (UInt8.ofNat n) =
    if n < 0x80 then ([some (Char.ofNat n)], none)
    else if n < 0xC2 then ([none], none)
    else if n < 0xE0 then ([], some ⟨n % 32, 1, 0x80, 0xBF⟩)
    else if n = 0xE0 then ([], some ⟨n % 16, 2, 0xA0, 0xBF⟩)
    else if n = 0xED then ([], some ⟨n % 16, 2, 0x80, 0x9F⟩)
    else if n < 0xF0 then ([], some ⟨n % 16, 2, 0x80, 0xBF⟩)
    else if n = 0xF0 then ([], some ⟨n % 8, 3, 0x90, 0xBF⟩)
    else if n < 0xF4 then ([], some ⟨n % 8, 3, 0x80, 0xBF⟩)
    else if n = 0xF4 then ([], some ⟨n % 8, 3, 0x80, 0x8F⟩)
    else ([none], none) := by
  have value : (UInt8.ofNat n).toNat = n := by simpa using byte
  simp [start, UInt8.lt_iff_toNat_lt, ← UInt8.toNat_inj, value]

/-- A last byte completes a character. -/
theorem run_last (done : List Item) {p : Pending} {n : Nat} (last : p.missing = 1)
    (low : p.low.toNat ≤ n) (high : n ≤ p.high.toNat) (byte : n < 256) :
    run done (some p) [UInt8.ofNat n] = (some (Char.ofNat (p.value * 64 + n % 64)) :: done, none) := by
  simp [run, step_more low high byte, last]

/-- A byte before the last one leaves a character open. -/
theorem run_more (done : List Item) {p : Pending} {n : Nat} {rest : Bytes} (more : p.missing ≠ 1)
    (low : p.low.toNat ≤ n) (high : n ≤ p.high.toNat) (byte : n < 256) :
    run done (some p) (UInt8.ofNat n :: rest) =
      run done (some ⟨p.value * 64 + n % 64, p.missing - 1, 0x80, 0xBF⟩) rest := by
  simp [run, step_more low high byte, more]

/-- The first byte of a character of three bytes, and what the second one may be. -/
theorem start_three {v : Nat} (low : 2047 < v) (high : v ≤ 65535) (valid : v < 0xD800 ∨ 0xDFFF < v) :
    ∃ least most : UInt8, start (UInt8.ofNat (v / 4096 % 16 + 224)) =
        ([], some ⟨v / 4096, 2, least, most⟩) ∧
      least.toNat ≤ v / 64 % 64 + 128 ∧ v / 64 % 64 + 128 ≤ most.toNat := by
  have lead : (v / 4096 % 16 + 224) % 16 = v / 4096 := by omega
  rw [start_ofNat (by omega), if_neg (by omega), if_neg (by omega), if_neg (by omega), lead]
  split
  · exact ⟨_, _, rfl, show 160 ≤ _ by omega, show _ ≤ 191 by omega⟩
  · split
    · exact ⟨_, _, rfl, show 128 ≤ _ by omega, show _ ≤ 159 by omega⟩
    · rw [if_pos (by omega)]
      exact ⟨_, _, rfl, show 128 ≤ _ by omega, show _ ≤ 191 by omega⟩

/-- The first byte of a character of four bytes, and what the second one may be. -/
theorem start_four {v : Nat} (low : 65535 < v) (high : v < 0x110000) :
    ∃ least most : UInt8, start (UInt8.ofNat (v / 262144 % 8 + 240)) =
        ([], some ⟨v / 262144, 3, least, most⟩) ∧
      least.toNat ≤ v / 4096 % 64 + 128 ∧ v / 4096 % 64 + 128 ≤ most.toNat := by
  have lead : (v / 262144 % 8 + 240) % 8 = v / 262144 := by omega
  rw [start_ofNat (by omega), if_neg (by omega), if_neg (by omega), if_neg (by omega),
    if_neg (by omega), if_neg (by omega), if_neg (by omega), lead]
  split
  · exact ⟨_, _, rfl, show 144 ≤ _ by omega, show _ ≤ 191 by omega⟩
  · split
    · exact ⟨_, _, rfl, show 128 ≤ _ by omega, show _ ≤ 191 by omega⟩
    · rw [if_pos (by omega)]
      exact ⟨_, _, rfl, show 128 ≤ _ by omega, show _ ≤ 143 by omega⟩

/-- The bytes of a character are read as that character. -/
theorem run_char (done : List Item) (c : Char) :
    run done none (String.utf8EncodeChar c) = (some c :: done, none) := by
  have same : Char.ofNat c.val.toNat = c := Char.ofNat_toNat c
  have valid : c.val.toNat < 0xD800 ∨ 0xDFFF < c.val.toNat ∧ c.val.toNat < 0x110000 := c.valid
  unfold String.utf8EncodeChar
  generalize c.val.toNat = v at same valid
  dsimp only
  -- every byte but the first one is six bits above `0x80`
  have least (n : Nat) : (0x80 : UInt8).toNat ≤ n % 64 + 128 := show 128 ≤ _ by omega
  have most (n : Nat) : n % 64 + 128 ≤ (0xBF : UInt8).toNat := show _ ≤ 191 by omega
  by_cases one : v ≤ 127
  · rw [if_pos one, run, step, start_ofNat (by omega), if_pos (by omega), same]
    rfl
  by_cases two : v ≤ 2047
  · rw [if_neg one, if_pos two, run, step, start_ofNat (by omega), if_neg (by omega), if_neg (by omega),
      if_pos (by omega)]
    refine (run_last _ rfl (least _) (most _) (by omega)).trans ?_
    rw [show (v / 64 % 32 + 192) % 32 * 64 + (v % 64 + 128) % 64 = v by omega, same]
    rfl
  by_cases three : v ≤ 65535
  · obtain ⟨low, high, started, above, below⟩ := start_three (by omega) three (by omega)
    rw [if_neg one, if_neg two, if_pos three, run, step, started]
    refine (run_more _ (by simp) above below (by omega)).trans ?_
    refine (run_last _ rfl (least _) (most _) (by omega)).trans ?_
    rw [show (v / 4096 * 64 + (v / 64 % 64 + 128) % 64) * 64 + (v % 64 + 128) % 64 = v by omega, same]
    rfl
  · obtain ⟨low, high, started, above, below⟩ := start_four (v := v) (by omega) (by omega)
    rw [if_neg one, if_neg two, if_neg three, run, step, started]
    refine (run_more _ (by simp) above below (by omega)).trans ?_
    refine (run_more _ (by simp) (least _) (most _) (by omega)).trans ?_
    refine (run_last _ rfl (least _) (most _) (by omega)).trans ?_
    rw [show ((v / 262144 * 64 + (v / 4096 % 64 + 128) % 64) * 64 + (v / 64 % 64 + 128) % 64) * 64 +
      (v % 64 + 128) % 64 = v by omega, same]
    rfl

theorem items_encode (text : String) : items (encode text) = text.toList.map some := by
  have whole (done : List Item) (chars : List Char) :
      run done none (chars.flatMap String.utf8EncodeChar) = ((chars.map some).reverse ++ done, none) := by
    induction chars generalizing done with
    | nil => rfl
    | cons c rest ih => simp [run_append, run_char, ih]
  simp [items, encode, whole, finish]

theorem decode?_encode (text : String) : decode? (encode text) = some text := by
  simp [decode?, items_encode, Function.comp_def]

theorem decodeLossy_encode (text : String) : decodeLossy (encode text) = text := by
  simp [decodeLossy, items_encode, Function.comp_def]

@[simp] theorem encode_append (first second : String) :
    encode (first ++ second) = encode first ++ encode second := by
  simp [encode]

/-- No byte of a longer character is ASCII. -/
theorem mem_encodeChar {c d : Char} (ascii : d.toNat < 128) :
    UInt8.ofNat d.toNat ∈ String.utf8EncodeChar c ↔ c = d := by
  have same : c = d ↔ c.val.toNat = d.toNat := by
    rw [← Char.val_inj, ← UInt32.toNat_inj, Char.toNat]
  have other {n m : Nat} (first : n < 128) (second : 128 ≤ m) (byte : m < 256) :
      UInt8.ofNat n ≠ UInt8.ofNat m := by
    intro same
    have values := congrArg UInt8.toNat same
    simp only [UInt8.toNat_ofNat'] at values
    omega
  rw [same]
  unfold String.utf8EncodeChar
  generalize c.val.toNat = v
  generalize d.toNat = n at ascii
  dsimp only
  split
  · simp only [List.mem_singleton, ← UInt8.toNat_inj, UInt8.toNat_ofNat']
    omega
  · have outside : v ≠ n := by omega
    refine iff_of_false (fun member => ?_) outside
    split at member
    · simp only [List.mem_cons, List.not_mem_nil, or_false] at member
      rcases member with same | same
      all_goals exact other ascii (by omega) (by omega) same
    · split at member
      all_goals simp only [List.mem_cons, List.not_mem_nil, or_false] at member
      · rcases member with same | same | same
        all_goals exact other ascii (by omega) (by omega) same
      · rcases member with same | same | same | same
        all_goals exact other ascii (by omega) (by omega) same

theorem mem_encode {text : String} {d : Char} (ascii : d.toNat < 128) :
    UInt8.ofNat d.toNat ∈ encode text ↔ d ∈ text.toList := by
  simp only [encode, List.mem_flatMap, mem_encodeChar ascii, exists_eq_right]

theorem encode_ascii {text : String} (ascii : ∀ c ∈ text.toList, c.toNat < 128) :
    encode text = text.toList.map fun c => UInt8.ofNat c.toNat := by
  rw [encode, ← List.flatMap_pure_eq_map]
  refine List.flatMap_congr fun c member => ?_
  have low : c.val.toNat ≤ 127 := Nat.le_of_lt_succ (ascii c member)
  rw [String.utf8EncodeChar, if_pos low]
  rfl

theorem length_encode (text : String) : (encode text).length = text.utf8ByteSize := by
  have bytes : text.toByteArray = text.toList.utf8Encode := String.utf8Encode_toList.symm
  rw [← String.size_toByteArray, bytes]
  simp [encode, List.utf8Encode]

theorem encode_inj {first second : String} : encode first = encode second ↔ first = second := by
  constructor
  · intro same
    have decoded := congrArg decode? same
    simpa [decode?_encode] using decoded
  · rintro rfl
    rfl

end Foundry.Utf8
