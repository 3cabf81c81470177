import Foundry.Text.Affix
import Mathlib.Data.List.TakeDrop
import Mathlib.Data.List.TakeWhile

/-! The pieces of a text between its marks: no piece holds the mark, and pieces without it are what
their join splits into. -/
namespace Foundry.Text

theorem splitAll_cons (mark c : Char) (text : List Char) :
    splitAll mark (c :: text) =
      if c = mark then [] :: splitAll mark text
      else match splitAll mark text with
        | [] => [[c]]
        | piece :: more => (c :: piece) :: more := rfl

theorem splitAll_nonempty (mark : Char) (text : List Char) : splitAll mark text ≠ [] := by
  cases text with
  | nil => simp [splitAll]
  | cons c text =>
      rw [splitAll_cons]
      split
      · simp
      · split <;> simp

theorem split_nonempty (mark : Char) (text : String) : split mark text ≠ [] := by
  rw [split, Ne, List.map_eq_nil_iff]
  exact splitAll_nonempty mark text.toList

theorem splitAll_append (mark : Char) (first rest : List Char) :
    splitAll mark (first ++ mark :: rest) = splitAll mark first ++ splitAll mark rest := by
  induction first with
  | nil => simp [splitAll]
  | cons c first ih =>
      rw [List.cons_append, splitAll_cons, splitAll_cons, ih]
      by_cases same : c = mark
      · simp [same]
      · obtain ⟨piece, more, pieces⟩ := List.exists_cons_of_ne_nil (splitAll_nonempty mark first)
        simp [same, pieces]

theorem splitAll_of_not_mem {mark : Char} {text : List Char} (clean : mark ∉ text) :
    splitAll mark text = [text] := by
  induction text with
  | nil => rfl
  | cons c text ih =>
      simp only [List.mem_cons, not_or] at clean
      simp [splitAll_cons, ih clean.2, Ne.symm clean.1]

theorem not_mem_of_mem_splitAll {mark : Char} {text piece : List Char}
    (member : piece ∈ splitAll mark text) : mark ∉ piece := by
  induction text generalizing piece with
  | nil =>
      rw [List.mem_singleton.mp member]
      exact List.not_mem_nil
  | cons c text ih =>
      rw [splitAll_cons] at member
      split at member
      · rcases List.mem_cons.mp member with rfl | member
        · exact List.not_mem_nil
        · exact ih member
      · rename_i other
        cases pieces : splitAll mark text with
        | nil =>
            simp only [pieces, List.mem_singleton] at member
            simpa [member] using Ne.symm other
        | cons first more =>
            simp only [pieces, List.mem_cons] at member
            rcases member with rfl | member
            · have rest : mark ∉ first := ih (by simp [pieces])
              simp [Ne.symm other, rest]
            · exact ih (by simp [pieces, member])

theorem not_mem_of_mem_split {mark : Char} {text piece : String}
    (member : piece ∈ split mark text) : mark ∉ piece.toList := by
  obtain ⟨chars, inside, rfl⟩ := List.mem_map.mp member
  rw [String.toList_ofList]
  exact not_mem_of_mem_splitAll inside

/-- The pieces of a text are parts of it. -/
theorem sublist_of_mem_splitAll {mark : Char} {text piece : List Char}
    (member : piece ∈ splitAll mark text) : piece.Sublist text := by
  induction text generalizing piece with
  | nil =>
      exact List.mem_singleton.mp member ▸ List.Sublist.refl _
  | cons c text ih =>
      rw [splitAll_cons] at member
      split at member
      · rcases List.mem_cons.mp member with rfl | member
        · exact List.nil_sublist _
        · exact (ih member).cons c
      · cases pieces : splitAll mark text with
        | nil =>
            simp only [pieces, List.mem_singleton] at member
            simp [member]
        | cons first more =>
            simp only [pieces, List.mem_cons] at member
            rcases member with rfl | member
            · exact (ih (by simp [pieces])).cons_cons c
            · exact (ih (by simp [pieces, member])).cons c

theorem sublist_of_mem_split {mark : Char} {text piece : String} (member : piece ∈ split mark text) :
    piece.toList.Sublist text.toList := by
  obtain ⟨chars, inside, rfl⟩ := List.mem_map.mp member
  rw [String.toList_ofList]
  exact sublist_of_mem_splitAll inside

/-- A text in two parts with the mark between them has the pieces of both. -/
theorem split_joined {mark : Char} {sep : String} (single : sep.toList = [mark]) (first rest : String) :
    split mark (first ++ sep ++ rest) = split mark first ++ split mark rest := by
  rw [split, String.toList_append, String.toList_append, single, List.append_assoc,
    List.singleton_append, splitAll_append, List.map_append]
  rfl

theorem split_append (first rest : String) :
    split '/' (first ++ "/" ++ rest) = split '/' first ++ split '/' rest :=
  split_joined rfl first rest

theorem split_of_not_mem {mark : Char} {text : String} (clean : mark ∉ text.toList) :
    split mark text = [text] := by
  simp [split, splitAll_of_not_mem clean]

theorem mem_intercalate {c : Char} (other : c ≠ '/') (parts : List String) :
    c ∈ (String.intercalate "/" parts).toList ↔ ∃ part ∈ parts, c ∈ part.toList := by
  induction parts with
  | nil => simp
  | cons part rest ih =>
      by_cases last : rest = []
      · simp [last]
      · rw [String.intercalate_cons_of_ne_nil last, String.toList_append, List.mem_append, ih]
        simp [other]

/-- Joining undoes splitting. -/
theorem split_intercalate {mark : Char} {sep : String} (single : sep.toList = [mark]) {parts : List String}
    (some : parts ≠ []) (clean : ∀ part ∈ parts, mark ∉ part.toList) :
    split mark (String.intercalate sep parts) = parts := by
  induction parts with
  | nil => contradiction
  | cons part rest ih =>
      have first : split mark part = [part] := split_of_not_mem (clean part List.mem_cons_self)
      by_cases last : rest = []
      · simpa [last] using first
      · rw [String.intercalate_cons_of_ne_nil last, split_joined single, first,
          ih last fun piece member => clean piece (List.mem_cons_of_mem _ member)]
        rfl

/-- The pieces of a text with the mark between them are the text. -/
theorem intercalate_split {mark : Char} {sep : String} (single : sep.toList = [mark]) (text : String) :
    String.intercalate sep (split mark text) = text := by
  induction length : text.length using Nat.strongRecOn generalizing text with
  | ind n ih =>
      by_cases member : mark ∈ text.toList
      · obtain ⟨before, after, whole, clean⟩ := List.eq_append_cons_of_mem member
        have joined : text = String.ofList before ++ sep ++ String.ofList after := by
          rw [← String.toList_inj]
          simp [whole, single]
        have shorter : (String.ofList after).length < n := by
          rw [← length, joined, ← String.length_toList, ← String.length_toList]
          simp [single]
          omega
        have first : split mark (String.ofList before) = [String.ofList before] :=
          split_of_not_mem (by simpa using clean)
        rw [joined, split_joined single, first, List.singleton_append,
          String.intercalate_cons_of_ne_nil (split_nonempty mark _), ih _ shorter _ rfl]
      · rw [split_of_not_mem member, String.intercalate_singleton]

theorem ne_of_not_mem {mark : Char} {chars : List Char} (clean : mark ∉ chars) :
    ∀ c ∈ chars, decide (c ≠ mark) = true := by
  intro c member
  rw [decide_eq_true_eq]
  rintro rfl
  exact clean member

/-- A text in two parts with the mark between them is cut there if the first part holds no mark. -/
theorem cut?_joined {mark : Char} {sep : String} (single : sep.toList = [mark]) {before : String}
    (clean : mark ∉ before.toList) (after : String) :
    cut? mark (before ++ sep ++ after) = some (before, after) := by
  have others := ne_of_not_mem clean
  simp only [cut?, List.span_eq_takeWhile_dropWhile, String.toList_append, single, List.append_assoc,
    List.takeWhile_append_of_pos others, List.dropWhile_append_of_pos others]
  simp

theorem cut?_eq_none {mark : Char} {text : String} : cut? mark text = none ↔ mark ∉ text.toList := by
  constructor
  · intro none member
    obtain ⟨before, after, whole, clean⟩ := List.eq_append_cons_of_mem member
    have joined : text = String.ofList before ++ String.singleton mark ++ String.ofList after := by
      rw [← String.toList_inj]
      simp [whole]
    rw [joined, cut?_joined (by simp) (by simpa using clean)] at none
    contradiction
  · intro clean
    have nothing : text.toList.dropWhile (· ≠ mark) = [] :=
      List.dropWhile_eq_nil_iff.mpr (ne_of_not_mem clean)
    rw [cut?, List.span_eq_takeWhile_dropWhile, nothing]

/-- A text is cut at its first mark. -/
theorem cut?_eq_some {mark : Char} {sep : String} (single : sep.toList = [mark])
    {text before after : String} : cut? mark text = some (before, after) ↔
      text = before ++ sep ++ after ∧ mark ∉ before.toList := by
  constructor
  · intro found
    have member : mark ∈ text.toList := by
      by_contra clean
      rw [cut?_eq_none.mpr clean] at found
      contradiction
    obtain ⟨first, rest, whole, clean⟩ := List.eq_append_cons_of_mem member
    have clean' : mark ∉ (String.ofList first).toList := by simpa using clean
    have joined : text = String.ofList first ++ sep ++ String.ofList rest := by
      rw [← String.toList_inj]
      simp [whole, single]
    rw [joined, cut?_joined single clean'] at found
    obtain ⟨rfl, rfl⟩ := Prod.mk.inj (Option.some.inj found)
    exact ⟨joined, clean'⟩
  · rintro ⟨rfl, clean⟩
    exact cut?_joined single clean after

theorem startsWith_iff {text start : String} :
    startsWith text start = true ↔ ∃ rest, text = start ++ rest := by
  rw [startsWith, List.isPrefixOf_iff_prefix]
  constructor
  · rintro ⟨rest, whole⟩
    exact ⟨String.ofList rest, by rw [← String.toList_inj]; simp [whole]⟩
  · rintro ⟨rest, rfl⟩
    exact ⟨rest.toList, by simp⟩

theorem drop_append (start rest : String) : drop (start ++ rest) start.length = rest := by
  rw [drop, String.toList_append, ← String.length_toList, List.drop_left, String.ofList_toList]

theorem endsWith_iff {text tail : String} :
    endsWith text tail = true ↔ ∃ front, text = front ++ tail := by
  rw [endsWith, List.isSuffixOf_iff_suffix]
  constructor
  · rintro ⟨front, whole⟩
    exact ⟨String.ofList front, by rw [← String.toList_inj]; simp [whole]⟩
  · rintro ⟨front, rfl⟩
    exact ⟨front.toList, by simp⟩

theorem dropTail_append (front tail : String) : dropTail (front ++ tail) tail = front := by
  have length : (front ++ tail).length - tail.length = front.toList.length := by
    rw [String.length_toList, String.length_append, Nat.add_sub_cancel]
  rw [dropTail, if_pos (endsWith_iff.mpr ⟨front, rfl⟩), length, String.toList_append, List.take_left,
    String.ofList_toList]

theorem dropTail_of_endsWith {text tail : String} (other : endsWith text tail = false) :
    dropTail text tail = text := by
  rw [dropTail, other, if_neg Bool.false_ne_true]

theorem dropTail_clean {text tail : String} (clean : '/' ∉ text.toList) :
    '/' ∉ (dropTail text tail).toList := by
  cases ends : endsWith text tail with
  | false => rwa [dropTail_of_endsWith ends]
  | true =>
      obtain ⟨front, rfl⟩ := endsWith_iff.mp ends
      rw [dropTail_append]
      simp only [String.toList_append, List.mem_append, not_or] at clean
      exact clean.1

theorem takeWhile_clean {last : List Char} (clean : '/' ∉ last) (before : List Char) :
    (last.reverse ++ before).takeWhile (· ≠ '/') =
      last.reverse ++ before.takeWhile (· ≠ '/') := by
  exact List.takeWhile_append_of_pos (ne_of_not_mem (by simpa using clean))

theorem baseName_of_not_mem {path : String} (clean : '/' ∉ path.toList) : baseName path = path := by
  have whole := takeWhile_clean clean []
  simp only [List.append_nil, List.takeWhile_nil] at whole
  rw [baseName, whole, List.reverse_reverse, String.ofList_toList]

theorem baseName_append (first : String) {last : String} (clean : '/' ∉ last.toList) :
    baseName (first ++ "/" ++ last) = last := by
  have tail := takeWhile_clean clean ("/".toList.reverse ++ first.toList.reverse)
  rw [baseName, String.toList_append, String.toList_append, List.reverse_append,
    List.reverse_append, tail]
  simp

/-- A text holds no slash, or ends in a slash and a text that holds none. -/
theorem lastSlash (path : String) :
    '/' ∉ path.toList ∨ ∃ first last, path = first ++ "/" ++ last ∧ '/' ∉ last.toList := by
  by_cases member : '/' ∈ path.toList
  · right
    obtain ⟨last, first, whole, clean⟩ :=
      List.eq_append_cons_of_mem (List.mem_reverse.mpr member)
    refine ⟨String.ofList first.reverse, String.ofList last.reverse, ?_, by simpa using clean⟩
    rw [← String.toList_inj]
    simpa using congrArg List.reverse whole
  · exact .inl member

/-- What stands after the last slash is the last piece. -/
theorem getLast?_split (path : String) : (split '/' path).getLast? = some (baseName path) := by
  rcases lastSlash path with clean | ⟨first, last, rfl, clean⟩
  · rw [split_of_not_mem clean, baseName_of_not_mem clean]
    rfl
  · rw [split_append, split_of_not_mem clean, baseName_append first clean, List.getLast?_concat]

/-- A tail without a slash goes on with the last piece. -/
theorem split_append_tail (path : String) {tail : String} (clean : '/' ∉ tail.toList) :
    ∃ before, split '/' path = before ++ [baseName path] ∧
      split '/' (path ++ tail) = before ++ [baseName path ++ tail] := by
  rcases lastSlash path with slashless | ⟨first, last, rfl, slashless⟩
  · have whole : '/' ∉ (path ++ tail).toList := by simp [slashless, clean]
    refine ⟨[], ?_, ?_⟩
    · rw [baseName_of_not_mem slashless, split_of_not_mem slashless, List.nil_append]
    · rw [baseName_of_not_mem slashless, split_of_not_mem whole, List.nil_append]
  · have whole : '/' ∉ (last ++ tail).toList := by simp [slashless, clean]
    refine ⟨split '/' first, ?_, ?_⟩
    · rw [split_append, split_of_not_mem slashless, baseName_append first slashless]
    · rw [String.append_assoc, split_append, split_of_not_mem whole,
        baseName_append first slashless]

/-- A tail without a slash is part of the base name. -/
theorem baseName_append_tail (path : String) {tail : String} (clean : '/' ∉ tail.toList) :
    baseName (path ++ tail) = baseName path ++ tail := by
  obtain ⟨before, -, pieces⟩ := split_append_tail path clean
  have last := getLast?_split (path ++ tail)
  rw [pieces, List.getLast?_concat] at last
  exact (Option.some.inj last).symm

/-- A text ends in what its base name ends in. -/
theorem endsWith_of_baseName {path tail : String} (ends : endsWith (baseName path) tail = true) :
    endsWith path tail = true := by
  rcases lastSlash path with slashless | ⟨first, last, rfl, slashless⟩
  · rwa [baseName_of_not_mem slashless] at ends
  · rw [baseName_append first slashless] at ends
    obtain ⟨front, rfl⟩ := endsWith_iff.mp ends
    exact endsWith_iff.mpr ⟨first ++ "/" ++ front, by simp only [String.append_assoc]⟩

theorem not_mem_baseName (path : String) : '/' ∉ (baseName path).toList :=
  not_mem_of_mem_split (List.mem_of_getLast? (getLast?_split path))

end Foundry.Text
