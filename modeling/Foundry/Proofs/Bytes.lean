import Mathlib.Tactic.Ring
import Foundry.Bytes

/-! Numbers in byte strings: what was written in some bytes is read from them again. -/
namespace Foundry.Bytes

@[simp] theorem length_littleEndian (width n : Nat) : (littleEndian width n).length = width := by
  induction width generalizing n with
  | zero => rfl
  | succ width ih => simp [littleEndian, ih]

@[simp] theorem length_bigEndian (width n : Nat) : (bigEndian width n).length = width := by
  simp [bigEndian]

@[simp] theorem length_ofIntBE (width : Nat) (n : Int) : (ofIntBE width n).length = width := by
  simp [ofIntBE]

theorem natBE_concat (bytes : Bytes) (byte : UInt8) :
    natBE (bytes ++ [byte]) = natBE bytes * 256 + byte.toNat := by
  simp [natBE]

theorem natLE_cons (byte : UInt8) (bytes : Bytes) :
    natLE (byte :: bytes) = natLE bytes * 256 + byte.toNat := by
  rw [natLE, List.reverse_cons, natBE_concat, ← natLE]

theorem natLE_littleEndian (width n : Nat) : natLE (littleEndian width n) = n % Nat.pow 256 width := by
  induction width generalizing n with
  | zero => simp [littleEndian, natLE, natBE, Nat.mod_one]
  | succ width ih =>
      have digit : (UInt8.ofNat (n % 256)).toNat = n % 256 := by simp
      have power : Nat.pow 256 (width + 1) = 256 * Nat.pow 256 width := Nat.pow_succ'
      rw [littleEndian, natLE_cons, ih, digit, power, Nat.mod_mul]
      ring

theorem natLE_of_lt {width n : Nat} (fits : n < Nat.pow 256 width) :
    natLE (littleEndian width n) = n := by
  rw [natLE_littleEndian, Nat.mod_eq_of_lt fits]

theorem natBE_bigEndian {width n : Nat} (fits : n < Nat.pow 256 width) :
    natBE (bigEndian width n) = n := by
  have same : natBE (bigEndian width n) = natLE (littleEndian width n) := rfl
  rw [same, natLE_of_lt fits]

/-- An integer that fits into two's complement of a width. -/
theorem intBE_ofIntBE {width : Nat} {n : Int} (low : -(Nat.pow 256 width : Int) ≤ 2 * n)
    (high : 2 * n < (Nat.pow 256 width : Int)) : intBE (ofIntBE width n) = n := by
  have some : (0 : Int) < (Nat.pow 256 width : Int) := by
    exact_mod_cast Nat.pow_pos (by decide : 0 < 256)
  have small := Int.emod_lt_of_pos n some
  have positive := Int.emod_nonneg n some.ne'
  have value : natBE (ofIntBE width n) = (n % (Nat.pow 256 width : Int)).toNat :=
    natBE_bigEndian (by omega)
  rw [intBE, value, length_ofIntBE]
  by_cases negative : n < 0
  · have shifted : n % (Nat.pow 256 width : Int) = n + (Nat.pow 256 width : Int) := by
      rw [← Int.add_emod_right, Int.emod_eq_of_lt (by omega) (by omega)]
    rw [shifted]
    split
    · omega
    · omega
  · have same : n % (Nat.pow 256 width : Int) = n := Int.emod_eq_of_lt (by omega) (by omega)
    rw [same]
    split
    · omega
    · omega

theorem split?_append {n : Nat} (first rest : Bytes) (size : first.length = n) :
    split? n (first ++ rest) = some (first, rest) := by
  subst size
  simp [split?]

/-- The pieces of a byte string make it up again. -/
theorem flatten_chunks (size : Nat) (bytes : Bytes) : (chunks size bytes).flatten = bytes := by
  have pieces (done : List Bytes) (fuel : Nat) (rest : Bytes) (enough : rest.length ≤ fuel) :
      (chunks.go size done fuel rest).flatten = done.reverse.flatten ++ rest := by
    induction fuel generalizing done rest with
    | zero =>
        obtain rfl : rest = [] := List.length_eq_zero_iff.mp (by omega)
        simp [chunks.go]
    | succ fuel ih =>
        cases rest with
        | nil => simp [chunks.go]
        | cons byte rest =>
            rw [chunks.go, ih]
            · simp
            · simp at enough ⊢
              omega
            · simp
  exact pieces [] bytes.length bytes (Nat.le_refl _)

theorem length_of_mem_chunks {size : Nat} {bytes piece : Bytes} (member : piece ∈ chunks size bytes) :
    piece.length ≤ size + 1 := by
  have pieces (done : List Bytes) (fuel : Nat) (rest : Bytes)
      (short : ∀ piece ∈ done, piece.length ≤ size + 1) :
      ∀ piece ∈ chunks.go size done fuel rest, piece.length ≤ size + 1 := by
    induction fuel generalizing done rest with
    | zero => simpa [chunks.go] using short
    | succ fuel ih =>
        cases rest with
        | nil => simpa [chunks.go] using short
        | cons byte rest =>
            rw [chunks.go]
            · refine ih _ _ fun piece member => ?_
              rcases List.mem_cons.mp member with rfl | earlier
              · exact List.length_take_le _ _
              · exact short piece earlier
            · simp
  exact pieces [] _ _ (by simp) piece member

end Foundry.Bytes
