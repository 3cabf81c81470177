import Foundry.Path
import Foundry.Proofs.FileSystem.Walk

/-! Where the texts of paths lead: writing a path as a text and reading it back, and going on from it
by a name, are steps of one walk. -/
namespace Foundry

open FileSystem

namespace Path

/-- No part of the path is empty or `.` or holds a slash. -/
structure Clean (path : Path) : Prop where
  nonempty : "" ∉ path.parts
  notSelf : "." ∉ path.parts
  clean : ∀ part ∈ path.parts, '/' ∉ part.toList

theorem ofText_clean (text : String) : (ofText text).Clean := by
  refine ⟨?_, ?_, fun part member => ?_⟩
  · simp [ofText, partsOf]
  · simp [ofText, partsOf]
  · exact Text.not_mem_of_mem_split (List.mem_filter.mp member).1

theorem join_clean {path other : Path} (first : path.Clean) (second : other.Clean) :
    (path.join other).Clean := by
  unfold join
  split
  · refine ⟨?_, ?_, fun part member => ?_⟩
    · simp [first.nonempty, second.nonempty]
    · simp [first.notSelf, second.notSelf]
    · exact (List.mem_append.mp member).elim (first.clean part) (second.clean part)
  · exact second

theorem child_clean {path : Path} (first : path.Clean) (text : String) : (path.child text).Clean :=
  join_clean first (ofText_clean text)

theorem name_clean {path : Path} (clean : path.Clean) :
    '/' ∉ path.name.toList ∧ path.name ≠ "." := by
  unfold name
  cases last : path.parts.getLast? with
  | none => simp
  | some name =>
      have member := List.mem_of_getLast? last
      exact ⟨clean.clean name member, fun self => clean.notSelf (self ▸ member)⟩

theorem anchor_ofText (text : String) :
    Anchor.ofText text = .none ↔ Text.startsWith text "/" = false := by
  cases chars : text.toList with
  | nil => simp [Anchor.ofText, Text.startsWith, chars]
  | cons c rest =>
      by_cases slash : c = '/'
      · cases tail : rest.takeWhile (· = '/') with
        | nil => simp [Anchor.ofText, Text.startsWith, chars, slash, tail]
        | cons d more => cases more <;> simp [Anchor.ofText, Text.startsWith, chars, slash, tail]
      · simp [Anchor.ofText, Text.startsWith, chars, slash, List.isPrefixOf, Ne.symm slash]

theorem ofText_name {name : String} (proper : IsName name) : ofText name = ⟨.none, [name]⟩ := by
  have parts : Text.split '/' name = [name] := Text.split_of_not_mem proper.clean
  have relative : Anchor.ofText name = .none := (anchor_ofText name).mpr proper.relative
  simp [ofText, partsOf, parts, relative, proper.nonempty, proper.notSelf]

theorem child_name {name : String} (proper : IsName name) (path : Path) :
    path.child name = ⟨path.anchor, path.parts ++ [name]⟩ := by
  simp [child, join, ofText_name proper]

theorem name_child {name : String} (proper : IsName name) (path : Path) : (path.child name).name = name := by
  simp [child_name proper, Path.name]

theorem parent_child {name : String} (proper : IsName name) (path : Path) :
    (path.child name).parent = path := by
  simp [child_name proper, parent]

/-- Another last part is a name beside it. -/
theorem withName?_eq {name : String} (proper : IsName name) (path : Path) :
    path.withName? name = if path.name = "" then none else some (path.parent.child name) := by
  rw [withName?, child_name proper]
  rfl

/-- The slashes that a text starts with are the same whatever follows without one. -/
theorem anchor_append (text : String) {tail : String} (clean : '/' ∉ tail.toList) :
    Anchor.ofText (text ++ tail) = Anchor.ofText text := by
  have none : tail.toList.takeWhile (· = '/') = [] := by
    cases chars : tail.toList with
    | nil => rfl
    | cons c rest =>
        have other : c ≠ '/' := fun same => clean (by simp [chars, same])
        simp [other]
  have same : (text ++ tail).toList.takeWhile (· = '/') = text.toList.takeWhile (· = '/') := by
    rw [String.toList_append, List.takeWhile_append, none, List.append_nil]
    split
    · rename_i all
      exact ((List.takeWhile_prefix _).eq_of_length all).symm
    · rfl
  rw [Anchor.ofText, same, Anchor.ofText]

/-- A base name that is neither empty nor `.` is the last part of the path. -/
theorem name_ofText {text : String} (nonempty : Text.baseName text ≠ "") (notSelf : Text.baseName text ≠ ".") :
    (ofText text).name = Text.baseName text := by
  obtain ⟨before, whole⟩ := List.getLast?_eq_some_iff.mp (Text.getLast?_split text)
  simp [name, ofText, partsOf, whole, nonempty, notSelf]

/-- A tail goes on with the last part of a path, and is a part of its own behind a slash or `.`. -/
theorem ofText_append (text : String) {tail : String} (clean : '/' ∉ tail.toList)
    (proper : IsName (Text.baseName text ++ tail)) : ofText (text ++ tail) =
      (if Text.baseName text = "" ∨ Text.baseName text = "." then ofText text else (ofText text).parent).child
        (Text.baseName text ++ tail) := by
  obtain ⟨before, pieces, longer⟩ := Text.split_append_tail text clean
  have parts : partsOf (text ++ tail) =
      before.filter (fun part => part ≠ "" && part ≠ ".") ++ [Text.baseName text ++ tail] := by
    rw [partsOf, longer, List.filter_append, List.filter_cons_of_pos
      (by simp [proper.nonempty, proper.notSelf]), List.filter_nil]
  rw [child_name proper, ofText, anchor_append text clean, parts]
  split
  · rename_i blank
    rcases blank with empty | self
    · simp [ofText, partsOf, pieces, empty]
    · simp [ofText, partsOf, pieces, self]
  · rename_i named
    rw [not_or] at named
    simp [parent, ofText, partsOf, pieces, named.1, named.2]

/-- Where the parts of a path start, seen from the directory `here`. -/
def start (path : Path) (here : Location) : Location :=
  if path.anchor = .none then here else []

/-- The parts of a path are the last steps of its text. The steps before them are empty and lead to
where the path starts. -/
theorem split_text (here : Location) {path : Path} (clean : path.Clean) (some : path.parts ≠ []) :
    ∃ before, Text.split '/' path.text = before ++ path.parts ∧ (∀ step ∈ before, step = "") ∧
      startOf here path.text = path.start here := by
  have parts : Text.split '/' (String.intercalate "/" path.parts) = path.parts :=
    Text.split_intercalate rfl some clean.clean
  have rooted (rest : String) : startOf here ("/" ++ rest) = [] :=
    if_pos (Text.startsWith_iff.mpr ⟨rest, rfl⟩)
  cases anchor : path.anchor with
  | none =>
      have shown : path.text = String.intercalate "/" path.parts := by
        simp [text, anchor, some, Anchor.text]
      refine ⟨[], by rw [shown, parts, List.nil_append], by simp, ?_⟩
      have relative : Text.startsWith path.text "/" = false := by
        rw [Bool.eq_false_iff]
        intro slash
        obtain ⟨rest, whole⟩ := Text.startsWith_iff.mp slash
        rw [← shown, whole, show "/" ++ rest = "" ++ "/" ++ rest by simp, Text.split_append] at parts
        refine clean.nonempty ?_
        rw [← parts]
        exact List.mem_append_left _ (by simp [Text.split, Text.splitAll])
      simp [startOf, relative, start, anchor]
  | root =>
      have shown : path.text = "/" ++ String.intercalate "/" path.parts := by
        simp [text, anchor, Anchor.text]
      refine ⟨[""], ?_, by simp, by simp [shown, rooted, start, anchor]⟩
      rw [shown, show "/" ++ String.intercalate "/" path.parts =
        "" ++ "/" ++ String.intercalate "/" path.parts by simp, Text.split_append, parts]
      rfl
  | doubleRoot =>
      have shown : path.text = "/" ++ ("/" ++ String.intercalate "/" path.parts) := by
        simp only [text, anchor, Anchor.text]
        rw [← String.toList_inj]
        simp
      refine ⟨["", ""], ?_, by simp, by simp [shown, rooted, start, anchor]⟩
      rw [shown, show "/" ++ ("/" ++ String.intercalate "/" path.parts) =
        "" ++ "/" ++ ("" ++ "/" ++ String.intercalate "/" path.parts) by simp, Text.split_append,
        Text.split_append, parts]
      rfl

/-- A path that is written and read again is the same. -/
theorem ofText_text {path : Path} (clean : path.Clean) : ofText path.text = path := by
  by_cases none : path.parts = []
  · obtain ⟨anchor, parts⟩ := path
    subst none
    cases anchor <;> decide
  have some : path.parts ≠ [] := none
  obtain ⟨first, rest, whole⟩ := List.exists_cons_of_ne_nil some
  have member : first ∈ path.parts := by simp [whole]
  have nonempty : first.toList ≠ [] := by
    intro empty
    have same : first = "" := String.toList_inj.mp (empty.trans String.toList_empty.symm)
    exact clean.nonempty (same ▸ member)
  obtain ⟨c, more, chars⟩ := List.exists_cons_of_ne_nil nonempty
  have open' : c ≠ '/' := by
    rintro rfl
    exact clean.clean first member (by simp [chars])
  have start : ∃ tail, (String.intercalate "/" path.parts).toList = c :: tail := by
    rw [whole]
    cases rest with
    | nil => exact ⟨more, by simp [chars]⟩
    | cons second rest =>
        refine ⟨more ++ ("/" ++ String.intercalate "/" (second :: rest)).toList, ?_⟩
        rw [String.intercalate_cons_of_ne_nil (List.cons_ne_nil second rest)]
        simp [chars]
  obtain ⟨tail, joined⟩ := start
  have anchor : Anchor.ofText path.text = path.anchor := by
    cases anchor : path.anchor <;>
      simp [Anchor.ofText, text, anchor, some, Anchor.text, joined, open']
  obtain ⟨before, steps, blank, -⟩ := split_text [] clean some
  have parts : partsOf path.text = path.parts := by
    rw [partsOf, steps, List.filter_append, List.filter_eq_nil_iff.mpr, List.nil_append,
      List.filter_eq_self.mpr]
    · intro part inside
      have real : part ≠ "" := fun same => clean.nonempty (same ▸ inside)
      have other : part ≠ "." := fun same => clean.notSelf (same ▸ inside)
      simp [real, other]
    · intro step inside
      simp [blank step inside]
  cases path
  simp_all [ofText]

/-- A text that a path is written as leads where its parts lead. -/
theorem spot_text (here : Location) {path : Path} (clean : path.Clean) :
    spot here path.text = walk (path.start here) path.parts := by
  by_cases none : path.parts = []
  · cases anchor : path.anchor <;> simp only [text, anchor, none, start] <;> rfl
  · obtain ⟨before, parts, blank, there⟩ := split_text here clean none
    rw [spot, parts, walk_append, walk_blanks _ blank, there]

theorem baseName_text {path : Path} {front : List String} {last : String} (clean : path.Clean)
    (parts : path.parts = front ++ [last]) : Text.baseName path.text = last := by
  obtain ⟨before, steps, -, -⟩ := split_text [] clean (by simp [parts])
  have base := Text.getLast?_split path.text
  rw [steps, parts, ← List.append_assoc, List.getLast?_concat] at base
  exact (Option.some.inj base).symm

/-- The last part of a path that can be followed stands in a directory. -/
theorem directory_of_locate {fs : FileSystem} {path : Path} {front : List String} {last : String}
    (clean : path.Clean) (parts : path.parts = front ++ [last]) (found : fs.locate path.text = .ok place) :
    fs.entry? (walk (path.start fs.here) front) = some .directory := by
  obtain ⟨⟨start, steps⟩, route, followed⟩ := except_bind_eq_ok.mp found
  obtain ⟨rfl, rfl⟩ := route_ok route
  obtain ⟨before, whole, blank, there⟩ := split_text fs.here clean (by simp [parts])
  simp only [whole, parts, ← List.append_assoc] at followed
  rw [follow_append] at followed
  obtain ⟨reached, first, step⟩ := except_bind_eq_ok.mp followed
  have stands := follow_cons step
  rw [follow_ok first, walk_append, walk_blanks _ blank, there] at stands
  exact stands

theorem startsWith_text {path : Path} (rooted : path.anchor ≠ .none) :
    Text.startsWith path.text "/" = true := by
  rw [Text.startsWith_iff]
  cases anchor : path.anchor with
  | none => contradiction
  | root => exact ⟨String.intercalate "/" path.parts, by simp [text, anchor, Anchor.text]⟩
  | doubleRoot =>
      refine ⟨"/" ++ String.intercalate "/" path.parts, ?_⟩
      rw [← String.toList_inj]
      simp [text, anchor, Anchor.text]

theorem spot_ofText (here : Location) (text : String) :
    spot here (ofText text).text = spot here text := by
  rw [spot_text here (ofText_clean text), spot, ofText, partsOf, walk_filter]
  congr 1
  simp only [start, startOf, anchor_ofText]
  cases Text.startsWith text "/" <;> simp

/-- Taking out each `..` is walking from the root. -/
theorem collapse_eq_walk {parts : List String} (nonempty : "" ∉ parts) (notSelf : "." ∉ parts) :
    collapse parts = walk [] parts := by
  have general : ∀ done : List String,
      (parts.foldl (fun done part => if part = ".." then done.tail else part :: done) done).reverse =
        walk done.reverse parts := by
    induction parts with
    | nil => exact fun done => rfl
    | cons part rest ih =>
        simp only [List.mem_cons, not_or] at nonempty notSelf
        intro done
        rw [List.foldl_cons, ih nonempty.2 notSelf.2, walk]
        simp only [Ne.symm nonempty.1, Ne.symm notSelf.1, or_self, if_false]
        split <;> simp
  exact general []

theorem clean_of_proper (anchor : Anchor) {place : Location} (proper : Proper place) :
    (Path.mk anchor place).Clean :=
  ⟨fun member => (proper _ member).nonempty rfl, fun member => (proper _ member).notSelf rfl,
    fun part member => (proper part member).clean⟩

/-- Resolving a path gives the location that it leads to. -/
theorem parts_resolve {here : Location} (proper : Proper here) {path : Path} (clean : path.Clean) :
    (path.resolve ⟨.root, here⟩).parts = spot here path.text := by
  have whole := join_clean (clean_of_proper .root proper) clean
  rw [spot_text here clean, resolve, collapse_eq_walk whole.nonempty whole.notSelf, join, start]
  split
  · rw [walk_append, walk_proper [] proper, List.nil_append]
  · rfl

theorem spot_child (here : Location) {path : Path} (clean : path.Clean) {name : String}
    (proper : IsName name) : spot here (path.child name).text = spot here path.text ++ [name] := by
  rw [spot_text here (child_clean clean name), spot_text here clean, child_name proper, walk_append,
    proper.walk]
  rfl

theorem ofText_child {path : Path} (clean : path.Clean) (name : String) :
    ofText (path.child name).text = path.child name :=
  ofText_text (child_clean clean name)

theorem endsWith_child {path : Path} (clean : path.Clean) {name tail : String} (proper : IsName name)
    (ends : Text.endsWith name tail = true) : Text.endsWith (path.child name).text tail = true := by
  have parts : (path.child name).parts = path.parts ++ [name] := by rw [child_name proper]
  apply Text.endsWith_of_baseName
  rwa [baseName_text (child_clean clean name) parts]

/-- The text of a path that goes on by a name. -/
theorem text_child {path : Path} {name : String} (some : path.parts ≠ []) (proper : IsName name) :
    (path.child name).text = path.text ++ "/" ++ name := by
  have joined : String.intercalate "/" (path.parts ++ [name]) =
      String.intercalate "/" path.parts ++ "/" ++ name := by
    simpa using String.intercalate_append_of_ne_nil (s := "/") some (List.cons_ne_nil name [])
  rw [child_name proper]
  simp [text, some, joined, String.append_assoc]

end Path

theorem startsWith_slash_append {first : String} (nonempty : first ≠ "") (rest : String) :
    Text.startsWith (first ++ rest) "/" = Text.startsWith first "/" := by
  have chars : first.toList ≠ [] := fun none =>
    nonempty (String.toList_inj.mp (none.trans String.toList_empty.symm))
  obtain ⟨c, more, chars⟩ := List.exists_cons_of_ne_nil chars
  simp [Text.startsWith, chars, List.isPrefixOf]

theorem startOf_append (here : Location) {first : String} (nonempty : first ≠ "") (rest : String) :
    startOf here (first ++ rest) = startOf here first := by
  rw [startOf, startOf, startsWith_slash_append nonempty]

theorem joinPaths_append (first : String) {second : String} (nonempty : second ≠ "") (tail : String) :
    joinPaths first (second ++ tail) = joinPaths first second ++ tail := by
  simp only [joinPaths, startsWith_slash_append nonempty]
  split
  · rfl
  · split <;> simp only [String.append_assoc]

/-- Paths put together lead from where the first one leads along the steps of the second one. -/
theorem split_joinPaths (here : Location) (first : String) {second : String}
    (relative : Text.startsWith second "/" = false) :
    ∃ before, Text.split '/' (joinPaths first second) = before ++ Text.split '/' second ∧
      (∀ step ∈ before, step ∈ Text.split '/' first) ∧
      walk (startOf here (joinPaths first second)) before = spot here first := by
  by_cases empty : first = ""
  · have joined : joinPaths first second = second := by simp [joinPaths, relative, empty]
    refine ⟨[], by rw [joined, List.nil_append], by simp, ?_⟩
    rw [joined, startOf, relative, empty]
    rfl
  · by_cases closed : Text.endsWith first "/" = true
    · obtain ⟨front, rfl⟩ := Text.endsWith_iff.mp closed
      have parts : Text.split '/' (front ++ "/") = Text.split '/' front ++ Text.split '/' "" := by
        simpa using Text.split_append front ""
      refine ⟨Text.split '/' front, by simp [joinPaths, relative, closed, Text.split_append],
        fun step member => by simp [parts, member], ?_⟩
      have joined : joinPaths (front ++ "/") second = front ++ "/" ++ second := by
        simp [joinPaths, relative, closed]
      rw [joined, startOf_append here empty, spot, parts, walk_append]
      rfl
    · have joined : joinPaths first second = first ++ "/" ++ second := by
        simp [joinPaths, relative, empty, closed]
      refine ⟨Text.split '/' first, by rw [joined, Text.split_append], fun _ => id, ?_⟩
      rw [joined, String.append_assoc, startOf_append here empty]
      rfl

theorem joinPaths_open {first second : String} (open' : Text.baseName first ≠ "")
    (relative : Text.startsWith second "/" = false) : joinPaths first second = first ++ "/" ++ second := by
  have nonempty : first ≠ "" := by
    rintro rfl
    exact open' rfl
  have closed : Text.endsWith first "/" = false := by
    rw [Bool.eq_false_iff]
    intro slash
    obtain ⟨front, rfl⟩ := Text.endsWith_iff.mp slash
    have slashless : '/' ∉ "".toList := by simp
    exact open' (by simpa using Text.baseName_append front slashless)
  simp [joinPaths, relative, nonempty, closed]

/-- The steps of paths put together, where the first one does not end in a slash. -/
theorem split_joinPaths_open (here : Location) {first second : String}
    (open' : Text.baseName first ≠ "") (relative : Text.startsWith second "/" = false) :
    Text.split '/' (joinPaths first second) = Text.split '/' first ++ Text.split '/' second ∧
      startOf here (joinPaths first second) = startOf here first := by
  have nonempty : first ≠ "" := by
    rintro rfl
    exact open' rfl
  rw [joinPaths_open open' relative, Text.split_append]
  refine ⟨rfl, ?_⟩
  rw [String.append_assoc, startOf_append here nonempty]

theorem spot_joinPaths (here : Location) (first : String) {second : String}
    (relative : Text.startsWith second "/" = false) :
    spot here (joinPaths first second) = walk (spot here first) (Text.split '/' second) := by
  obtain ⟨before, parts, -, there⟩ := split_joinPaths here first relative
  rw [spot, parts, walk_append, there]

theorem spot_joinPaths_name (here : Location) (first : String) {name : String}
    (proper : IsName name) : spot here (joinPaths first name) = spot here first ++ [name] := by
  rw [spot_joinPaths here first proper.relative, Text.split_of_not_mem proper.clean, proper.walk]

theorem baseName_joinPaths (first second : String) :
    Text.baseName (joinPaths first second) = Text.baseName second := by
  by_cases absolute : Text.startsWith second "/" = true
  · simp [joinPaths, absolute]
  · obtain ⟨before, parts, -, -⟩ := split_joinPaths [] first (by simpa using absolute)
    have last := Text.getLast?_split (joinPaths first second)
    rw [parts, List.getLast?_append, Text.getLast?_split] at last
    exact (Option.some.inj last).symm

theorem endsWith_joinPaths {directory name tail : String} (suffixed : Text.endsWith name tail = true) :
    Text.endsWith (joinPaths directory name) tail = true := by
  obtain ⟨front, rfl⟩ := Text.endsWith_iff.mp suffixed
  rw [Text.endsWith_iff, joinPaths]
  split
  · exact ⟨front, rfl⟩
  · split
    · exact ⟨directory ++ front, by rw [String.append_assoc]⟩
    · exact ⟨directory ++ "/" ++ front, by simp only [String.append_assoc]⟩

/-- A path of which no step goes up, as it is written. -/
theorem Path.descends_ofText {text : String} (descends : ".." ∉ Text.split '/' text)
    (some : (Path.ofText text).parts ≠ []) : ".." ∉ Text.split '/' (Path.ofText text).text := by
  obtain ⟨before, steps, blank, -⟩ := Path.split_text [] (Path.ofText_clean text) some
  rw [steps, List.mem_append, not_or]
  refine ⟨fun member => ?_, fun member => descends (List.mem_filter.mp member).1⟩
  exact absurd (blank _ member) (by decide)

theorem Path.parts_joinPaths (first : String) {name : String} (proper : IsName name) :
    (Path.ofText (joinPaths first name)).parts ≠ [] := by
  obtain ⟨before, steps, -, -⟩ := split_joinPaths [] first proper.relative
  rw [Text.split_of_not_mem proper.clean] at steps
  simp [Path.ofText, Path.partsOf, steps, proper.nonempty, proper.notSelf]

theorem FileSystem.descends_joinPaths {first second : String} (descends : ".." ∉ Text.split '/' first)
    (proper : IsName second) : ".." ∉ Text.split '/' (joinPaths first second) := by
  obtain ⟨before, steps, inside, -⟩ := split_joinPaths [] first proper.relative
  rw [steps, Text.split_of_not_mem proper.clean, List.mem_append, List.mem_singleton, not_or]
  exact ⟨fun member => descends (inside _ member), fun same => proper.notAbove same.symm⟩

namespace Path
variable {path : Path} {names : List String}

/-- The text of names alone is that of a relative path. -/
theorem ofText_names (proper : Proper names) (some : names ≠ []) :
    ofText (String.intercalate "/" names) = ⟨.none, names⟩ := by
  have text : (Path.mk .none names).text = String.intercalate "/" names := by
    simp [Path.text, some, Anchor.text]
  rw [← text]
  exact ofText_text (clean_of_proper .none proper)

/-- Going on by the text of names goes on by these names. -/
theorem child_names (proper : Proper names) (some : names ≠ []) :
    path.child (String.intercalate "/" names) = ⟨path.anchor, path.parts ++ names⟩ := by
  rw [child, ofText_names proper some, join, if_pos rfl]

/-- The text of a path that goes on by names. -/
theorem text_append (rooted : path.anchor ≠ .none) (clean : path.Clean) (proper : Proper names)
    (some : names ≠ []) : (Path.mk path.anchor (path.parts ++ names)).text =
      joinPaths path.text (String.intercalate "/" names) := by
  have relative : Text.startsWith (String.intercalate "/" names) "/" = false := by
    rw [← anchor_ofText]
    exact congrArg Path.anchor (ofText_names proper some)
  by_cases none : path.parts = []
  · obtain ⟨anchor, parts⟩ := path
    subst none
    cases anchor with
    | none => contradiction
    | root =>
        have single : (Path.mk .root []).text = "/" := by decide
        rw [single]
        simp [joinPaths, relative, text, Anchor.text, show Text.endsWith "/" "/" = true from rfl]
    | doubleRoot =>
        have double : (Path.mk .doubleRoot []).text = "//" := by decide
        rw [double]
        simp [joinPaths, relative, text, Anchor.text, show Text.endsWith "//" "/" = true from rfl]
  · obtain ⟨front, last, parts⟩ : ∃ front last, path.parts = front ++ [last] :=
      ⟨_, _, (List.dropLast_concat_getLast none).symm⟩
    have base : Text.baseName path.text = last := baseName_text clean parts
    have open' : Text.baseName path.text ≠ "" := by
      intro blank
      exact clean.nonempty (by simp [parts, ← base, blank])
    have joined := String.intercalate_append_of_ne_nil (s := "/") none some
    rw [joinPaths_open open' relative]
    simp [text, none, joined, String.append_assoc]

theorem join_rooted (here : Location) (path : Path) : ((Path.mk .root here).join path).anchor ≠ .none := by
  unfold join
  split
  · simp
  · assumption

theorem parts_of_named (named : path.name ≠ "") : path.parts = path.parent.parts ++ [path.name] := by
  cases last : path.parts.getLast? with
  | none => simp [name, last] at named
  | some part =>
      obtain ⟨front, whole⟩ := List.getLast?_eq_some_iff.mp last
      simp [name, parent, whole]

theorem append_clean (clean : path.Clean) (proper : Proper names) :
    (Path.mk path.anchor (path.parts ++ names)).Clean :=
  join_clean clean (clean_of_proper .none proper)

theorem spot_append_names (here : Location) (clean : path.Clean) (proper : Proper names) :
    spot here (Path.mk path.anchor (path.parts ++ names)).text = spot here path.text ++ names := by
  rw [spot_text here (append_clean clean proper), spot_text here clean, walk_append, walk_proper _ proper]
  rfl

end Path

end Foundry
