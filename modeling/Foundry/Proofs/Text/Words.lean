import Foundry.Text.Blank

/-! The words of a text: words with single blanks between them are read back one by one. -/
namespace Foundry.Text

/-- A text that is one word: it is not empty, and there is no white space in it. -/
structure IsWord (word : String) : Prop where
  nonempty : word ≠ ""
  solid : ∀ c ∈ word.toList, isBlank c = false

theorem isWord_iff {word : String} : IsWord word ↔ word ≠ "" ∧ word.toList.all (!isBlank ·) = true :=
  ⟨fun ⟨nonempty, solid⟩ => ⟨nonempty, by simpa using solid⟩,
    fun ⟨nonempty, solid⟩ => ⟨nonempty, by simpa using solid⟩⟩

instance (word : String) : Decidable (IsWord word) := decidable_of_iff _ isWord_iff.symm

namespace WordReader

theorem foldl_solid (r : WordReader) {chars : List Char} (solid : ∀ c ∈ chars, isBlank c = false) :
    chars.foldl push r = { r with begun := chars.reverse ++ r.begun } := by
  induction chars generalizing r with
  | nil => rfl
  | cons c chars ih =>
      have first : r.push c = { r with begun := c :: r.begun } := by simp [push, solid c]
      rw [List.foldl_cons, first, ih _ fun d member => solid d (List.mem_cons_of_mem _ member)]
      simp

/-- A word that is read up to its end is done. -/
theorem close_word (done : List String) {word : String} (proper : IsWord word) :
    close { done, begun := word.toList.reverse } = { done := word :: done, begun := [] } := by
  have some : word.toList ≠ [] := fun none =>
    proper.nonempty (String.toList_inj.mp (none.trans String.toList_empty.symm))
  simp [close, some]

theorem foldl_words (done : List String) {words : List String} (proper : ∀ word ∈ words, IsWord word) :
    ((String.intercalate " " words).toList.foldl push { done, begun := [] }).close =
      { done := words.reverse ++ done, begun := [] } := by
  induction words generalizing done with
  | nil => rfl
  | cons word rest ih =>
      have first := proper word List.mem_cons_self
      have read := foldl_solid { done, begun := [] } first.solid
      rw [List.append_nil] at read
      by_cases last : rest = []
      · simp [last, read, close_word done first]
      · have step : push { done, begun := word.toList.reverse } ' ' =
            { done := word :: done, begun := [] } := close_word done first
        rw [String.intercalate_cons_of_ne_nil last, String.toList_append, String.toList_append,
          List.foldl_append, List.foldl_append, read, show " ".toList = [' '] from rfl, List.foldl_cons,
          step, List.foldl_nil, ih (word :: done) fun other member => proper other (List.mem_cons_of_mem _ member)]
        simp

end WordReader

/-- Taking a text apart at its white space undoes joining words with blanks. -/
theorem words_intercalate {words : List String} (proper : ∀ word ∈ words, IsWord word) :
    Text.words (String.intercalate " " words) = words := by
  rw [Text.words, WordReader.foldl_words [] proper]
  simp

end Foundry.Text
