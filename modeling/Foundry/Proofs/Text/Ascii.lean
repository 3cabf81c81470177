import Foundry.Proofs.Text.Utf8

/-! ASCII in UTF-8. A byte of ASCII stands for itself wherever it is met: a character that it cuts short
is ill formed, and reading starts afresh after it. No other bytes are read as a character of ASCII. -/
namespace Foundry.Utf8

/-- A started character goes on with bytes outside ASCII, and is itself outside ASCII. -/
structure Pending.Long (p : Pending) : Prop where
  low : 0x80 ≤ p.low.toNat
  high : p.high.toNat ≤ 0xBF
  bits : 2 ≤ if p.missing = 1 then p.value else p.value * 64 + p.low.toNat % 64

/-- A character that has been started, if there is one, is a long one. -/
def Between (state : Option Pending) : Prop := ∀ p, state = some p → p.Long

theorem between_none : Between none := nofun

theorem start_eq (byte : UInt8) : start byte = start (UInt8.ofNat byte.toNat) := by
  rw [UInt8.ofNat_toNat]

theorem start_between (byte : UInt8) : Between (start byte).2 := by
  have small : byte.toNat < 256 := byte.toNat_lt
  rw [start_eq, start_ofNat small]
  generalize byte.toNat = n at small
  intro p started
  repeat' split at started
  all_goals cases started
  all_goals exact ⟨by simp, by simp, by simp <;> omega⟩

/-- A byte that goes on with a started character, as a number. -/
theorem goesOn_iff {p : Pending} {byte : UInt8} :
    p.low ≤ byte ∧ byte ≤ p.high ↔ p.low.toNat ≤ byte.toNat ∧ byte.toNat ≤ p.high.toNat := by
  rw [UInt8.le_iff_toNat_le, UInt8.le_iff_toNat_le]

theorem step_between {state : Option Pending} (between : Between state) (byte : UInt8) :
    Between (step state byte).2 := by
  cases state with
  | none => exact start_between byte
  | some p =>
      obtain ⟨low, high, bits⟩ := between p rfl
      simp only [step, goesOn_iff]
      split
      · rename_i inside
        split
        · exact between_none
        · rename_i more
          rw [if_neg more] at bits
          intro q next
          obtain rfl := Option.some.inj next
          have value : 2 ≤ p.value * 64 + byte.toNat % 64 := by omega
          refine ⟨Nat.le_refl _, Nat.le_refl _, ?_⟩
          dsimp only
          split <;> omega
      · exact start_between byte

theorem run_between (done : List Item) {state : Option Pending} (between : Between state)
    (bytes : Bytes) : Between (run done state bytes).2 := by
  induction bytes generalizing done state with
  | nil => exact between
  | cons byte rest ih => exact ih _ (step_between between byte)

/-- What is read does not depend on what was read before. -/
theorem run_done (done : List Item) (state : Option Pending) (bytes : Bytes) :
    run done state bytes = ((run [] state bytes).1 ++ done, (run [] state bytes).2) := by
  induction bytes generalizing done state with
  | nil => rfl
  | cons byte rest ih =>
      simp only [run]
      rw [ih, ih ((step state byte).1.reverse ++ [])]
      simp

section Ascii
variable {byte : UInt8} (ascii : byte.toNat < 0x80)
include ascii

theorem start_ascii : start byte = ([some (Char.ofNat byte.toNat)], none) := by
  have small : byte < 0x80 := UInt8.lt_iff_toNat_lt.mpr ascii
  simp only [start, small, if_true]

/-- A byte of ASCII ends a started character as ill formed. -/
theorem step_ascii {state : Option Pending} (between : Between state) :
    step state byte = (finish state ++ [some (Char.ofNat byte.toNat)], none) := by
  cases state with
  | none => exact start_ascii ascii
  | some p =>
      have outside : ¬ (p.low ≤ byte ∧ byte ≤ p.high) := by
        have low := (between p rfl).low
        rw [goesOn_iff]
        omega
      simp only [step, outside, if_false, start_ascii ascii]
      rfl

/-- Bytes are read in two parts at a byte of ASCII. -/
theorem items_ascii (first rest : Bytes) :
    items (first ++ byte :: rest) = items first ++ some (Char.ofNat byte.toNat) :: items rest := by
  have between := run_between [] between_none first
  rw [items, items, items, run_append, run, step_ascii ascii between]
  dsimp only
  rw [run_done _ none rest]
  simp

/-- A text is decoded in two parts at a byte of ASCII. -/
theorem decodeLossy_ascii (first rest : Bytes) :
    (decodeLossy (first ++ byte :: rest)).toList =
      (decodeLossy first).toList ++ Char.ofNat byte.toNat :: (decodeLossy rest).toList := by
  simp [decodeLossy, items_ascii ascii]

end Ascii

/-- A character by its number; what is no number of a character gives NUL. -/
theorem toNat_char (n : Nat) : (Char.ofNat n).toNat = n ∨ (Char.ofNat n).toNat = 0 := by
  unfold Char.ofNat
  by_cases valid : n.isValidChar
  · rw [dif_pos valid]
    exact .inl rfl
  · rw [dif_neg valid]
    exact .inr rfl

theorem toNat_char_ascii {n : Nat} (ascii : n < 128) : (Char.ofNat n).toNat = n := by
  unfold Char.ofNat
  rw [dif_pos (.inl (by omega))]
  rfl

/-- A character of ASCII other than NUL that a byte completes is that byte. -/
theorem step_reads {state : Option Pending} (between : Between state) {byte : UInt8} {c : Char}
    (read : some c ∈ (step state byte).1) (positive : 0 < c.toNat) (ascii : c.toNat < 128) :
    byte = UInt8.ofNat c.toNat := by
  have started (read : some c ∈ (start byte).1) : byte = UInt8.ofNat c.toNat := by
    have small : byte.toNat < 256 := byte.toNat_lt
    rw [start_eq, start_ofNat small] at read
    by_cases first : byte.toNat < 0x80
    · rw [if_pos first, List.mem_singleton] at read
      rw [Option.some.inj read, toNat_char_ascii first, UInt8.ofNat_toNat]
    · rw [if_neg first] at read
      repeat' split at read
      all_goals simp at read
  cases state with
  | none => exact started read
  | some p =>
      have bits := (between p rfl).bits
      simp only [step] at read
      split at read
      · split at read
        · rename_i last
          rw [if_pos last] at bits
          rw [List.mem_singleton] at read
          obtain rfl := Option.some.inj read
          have number := toNat_char (p.value * 64 + byte.toNat % 64)
          omega
        · simp at read
      · rcases List.mem_cons.mp read with ill | read
        · cases ill
        · exact started read

/-- A character of ASCII other than NUL that is read stands among the bytes. -/
theorem mem_of_mem_items {bytes : Bytes} {c : Char} (read : some c ∈ items bytes)
    (positive : 0 < c.toNat) (ascii : c.toNat < 128) : UInt8.ofNat c.toNat ∈ bytes := by
  have reading (done : List Item) {state : Option Pending} (between : Between state) (bytes : Bytes)
      (read : some c ∈ (run done state bytes).1) : some c ∈ done ∨ UInt8.ofNat c.toNat ∈ bytes := by
    induction bytes generalizing done state with
    | nil => exact .inl read
    | cons byte rest ih =>
        rcases ih _ (step_between between byte) read with early | late
        · rcases List.mem_append.mp early with now | before
          · have same := step_reads between (List.mem_reverse.mp now) positive ascii
            exact .inr (same ▸ List.mem_cons_self)
          · exact .inl before
        · exact .inr (List.mem_cons_of_mem _ late)
  simp only [items, List.mem_reverse, List.mem_append] at read
  rcases read with ill | read
  · cases ended : (run [] none bytes).2 <;> simp [ended, finish] at ill
  · exact (reading [] between_none bytes read).resolve_left List.not_mem_nil

/-- Every byte counts: with a byte to read there is an item. -/
theorem items_ne_nil {bytes : Bytes} (there : bytes ≠ []) : items bytes ≠ [] := by
  have stepping (state : Option Pending) (byte : UInt8) :
      0 < (step state byte).1.length + (finish (step state byte).2).length := by
    have starting : 0 < (start byte).1.length + (finish (start byte).2).length := by
      have small : byte.toNat < 256 := byte.toNat_lt
      rw [start_eq, start_ofNat small]
      repeat' split
      all_goals simp [finish]
    cases state with
    | none => exact starting
    | some p =>
        simp only [step]
        split
        · split <;> simp [finish]
        · exact Nat.add_pos_left (Nat.succ_pos _) _
  have running (done : List Item) (state : Option Pending) (bytes : Bytes)
      (there : 0 < done.length + (finish state).length) :
      0 < (run done state bytes).1.length + (finish (run done state bytes).2).length := by
    induction bytes generalizing done state with
    | nil => exact there
    | cons byte rest ih =>
        have more := stepping state byte
        refine ih ((step state byte).1.reverse ++ done) (step state byte).2 ?_
        rw [List.length_append, List.length_reverse]
        omega
  cases bytes with
  | nil => exact absurd rfl there
  | cons byte rest =>
      have count := running ((step none byte).1.reverse ++ []) (step none byte).2 rest
        (by simpa using stepping none byte)
      intro none'
      have length := congrArg List.length none'
      simp only [items, run, List.length_reverse, List.length_append, List.length_nil] at length count
      omega

theorem decodeLossy_ne_nil {bytes : Bytes} (there : bytes ≠ []) : (decodeLossy bytes).toList ≠ [] := by
  simpa [decodeLossy] using items_ne_nil there

/-- A character of ASCII other than NUL stands in a decoded text only if it stands among the bytes. -/
theorem mem_of_mem_decodeLossy {bytes : Bytes} {c : Char} (member : c ∈ (decodeLossy bytes).toList)
    (positive : 0 < c.toNat) (ascii : c.toNat < 128) : UInt8.ofNat c.toNat ∈ bytes := by
  rw [decodeLossy, String.toList_ofList] at member
  obtain ⟨item, read, rfl⟩ := List.mem_map.mp member
  cases item with
  | some c => exact mem_of_mem_items read positive ascii
  | none => exact absurd ascii (by decide)

end Foundry.Utf8
