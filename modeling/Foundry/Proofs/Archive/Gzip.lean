import Foundry.Archive.Gzip
import Foundry.Proofs.Bytes
import Foundry.Proofs.Run

/-! Compressed files are read as the data that were written. -/
namespace Foundry

namespace Inflate

open Gzip

variable {content rest : Bytes}

theorem readStored_block (output : Array UInt8) (bits : List Bool) (fits : content.length ≤ 0xFFFF) :
    readStored output ⟨bits, Bytes.littleEndian 2 content.length ++
        Bytes.littleEndian 2 (0xFFFF - content.length) ++ content ++ rest⟩ =
      (output ++ content, .ok ⟨[], rest⟩) := by
  have size : Bytes.natLE (Bytes.littleEndian 2 content.length) = content.length :=
    Bytes.natLE_of_lt (show content.length < 65536 by omega)
  have size' : Bytes.natLE (Bytes.littleEndian 2 (0xFFFF - content.length)) =
      0xFFFF - content.length :=
    Bytes.natLE_of_lt (show 0xFFFF - content.length < 65536 by omega)
  simp only [Bytes.littleEndian, List.cons_append, List.nil_append, readStored] at size size' ⊢
  rw [size, size', if_neg (by omega)]
  simp

/-- The first byte of a stored block is one bit, whether the block is the last one, and zeros. -/
theorem nextBit_flag (isLast : Bool) (bytes : Bytes) :
    nextBit ⟨[], (if isLast then 1 else 0) :: bytes⟩ = .ok (isLast, ⟨List.replicate 7 false, bytes⟩) := by
  cases isLast <;> rfl

/-- A stored block is appended to the output. -/
theorem readBlocks_stored (output : Array UInt8) (fuel : Nat) (isLast : Bool)
    (fits : content.length ≤ 0xFFFF) :
    readBlocks output (fuel + 1) ⟨[], storedBlock isLast content ++ rest⟩ =
      if isLast then (output ++ content, .ok ⟨[], rest⟩)
      else readBlocks (output ++ content) fuel ⟨[], rest⟩ := by
  have stored (steps : Nat) (bytes : Bytes) :
      readBlock output steps ⟨List.replicate 7 false, bytes⟩ =
        readStored output ⟨List.replicate 5 false, bytes⟩ := rfl
  rw [storedBlock, List.cons_append, readBlocks, nextBit_flag]
  dsimp only
  rw [stored, readStored_block _ _ fits]

/-- Stored blocks are read as what they hold. -/
theorem inflate_storedBlocks {pieces : List Bytes} (fits : ∀ piece ∈ pieces, piece.length ≤ 0xFFFF)
    (rest : Bytes) : inflate (storedBlocks pieces ++ rest) = (pieces.flatten, .ok rest) := by
  have blocks (output : Array UInt8) (fuel : Nat) (enough : pieces.length < fuel) :
      readBlocks output fuel ⟨[], storedBlocks pieces ++ rest⟩ =
        (output ++ pieces.flatten, .ok ⟨[], rest⟩) := by
    induction pieces generalizing output fuel with
    | nil =>
        obtain ⟨fuel, rfl⟩ : ∃ k, fuel = k + 1 := ⟨fuel - 1, by omega⟩
        rw [storedBlocks, readBlocks_stored output fuel true (by simp)]
        simp
    | cons piece pieces ih =>
        obtain ⟨fuel, rfl⟩ : ∃ k, fuel = k + 1 := ⟨fuel - 1, by omega⟩
        rw [List.length_cons] at enough
        rw [storedBlocks, List.append_assoc, readBlocks_stored output fuel false (fits piece (by simp)),
          if_neg Bool.false_ne_true,
          ih (fun other member => fits other (by simp [member])) _ _ (by omega)]
        apply Prod.ext
        · apply Array.toList_inj.mp
          simp
        · rfl
  have long : pieces.length < (storedBlocks pieces).length := by
    clear fits blocks
    induction pieces with
    | nil => simp [storedBlocks, storedBlock]
    | cons piece pieces ih =>
        simp only [storedBlocks, storedBlock, List.length_append, List.length_cons]
        omega
  rw [inflate, blocks]
  · simp
  · rw [List.length_append]
    omega

end Inflate

namespace Gzip

theorem skipHeader_header (body : Bytes) : skipHeader (header ++ body) = .ok body := by
  simp [skipHeader, header, magic, Bytes.split?, hasFlag, bind, Except.bind, pure, Except.pure]

/-- The checksum and the length of the data are found behind them. -/
theorem checkTrailer_written (data : Bytes) :
    checkTrailer data (Bytes.littleEndian 4 (Checksum.crc32 data).toNat ++
      Bytes.littleEndian 4 data.length) = .ok [] := by
  have split : Bytes.split? 8 (Bytes.littleEndian 4 (Checksum.crc32 data).toNat ++
      Bytes.littleEndian 4 data.length) = some (Bytes.littleEndian 4 (Checksum.crc32 data).toNat ++
        Bytes.littleEndian 4 data.length, []) := by
    simpa using Bytes.split?_append (n := 8) (Bytes.littleEndian 4 (Checksum.crc32 data).toNat ++
      Bytes.littleEndian 4 data.length) [] (by simp)
  have sum : Bytes.natLE (Bytes.littleEndian 4 (Checksum.crc32 data).toNat) =
      (Checksum.crc32 data).toNat := Bytes.natLE_of_lt (Checksum.crc32 data).toNat_lt
  have size : Bytes.natLE (Bytes.littleEndian 4 data.length) = data.length % twoTo 32 :=
    Bytes.natLE_littleEndian 4 data.length
  simp [checkTrailer, split, sum, size, bind, Except.bind, pure, Except.pure]

/-- What was compressed is read in full. -/
theorem read_write (data : Bytes) : read (write data) = ⟨data, .complete⟩ := by
  let trailer := Bytes.littleEndian 4 (Checksum.crc32 data).toNat ++ Bytes.littleEndian 4 data.length
  have inflated : Inflate.inflate (storedBlocks (Bytes.chunks blockLimit data) ++ trailer) =
      (data, .ok trailer) := by
    have fits : ∀ piece ∈ Bytes.chunks blockLimit data, piece.length ≤ 0xFFFF :=
      fun piece member => Bytes.length_of_mem_chunks member
    rw [Inflate.inflate_storedBlocks fits, Bytes.flatten_chunks]
  obtain ⟨fuel, steps⟩ : ∃ k, (write data).length = k + 1 :=
    ⟨(write data).length - 1, by simp [write, header]; omega⟩
  rw [read, steps, readMembers, write, List.append_assoc, skipHeader_header]
  dsimp only
  rw [inflated]
  dsimp only
  rw [checkTrailer_written]
  rfl

end Gzip

end Foundry
