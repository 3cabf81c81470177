import Foundry.Proofs.FileSystem.PathSpot
import Foundry.Proofs.Files.Operation
import Mathlib.Data.List.Sort

/-! What is found out about directories: the names in them, in order, and where paths resolve to. -/
namespace Foundry.Files
open Run FileSystem

variable {s t : Session}

theorem resolve_fails_iff {path : Path} :
    (∃ t, resolve path s = .error e t) ↔ holdsZero path.text = true ∧ e = .zeroInPath := by
  unfold resolve checked
  split
  · rename_i zero
    simp [bind, EStateM.bind, zero, eq_comm]
  · rename_i whole
    simp [bind, EStateM.bind, pure, EStateM.pure, here, whole]

theorem resolve_of_whole {path : Path} (whole : holdsZero path.text = false) (s : Session) :
    resolve path s = .ok (path.resolve ⟨.root, s.files.here⟩) s := by
  rw [resolve, bind_of_ok (checked_of_whole whole s)]
  rfl

theorem resolve_ok {path result : Path} (ran : resolve path s = .ok result t) :
    t = s ∧ holdsZero path.text = false ∧ result = path.resolve ⟨.root, s.files.here⟩ := by
  obtain ⟨_, u, clean, rest⟩ := bind_eq_ok.mp ran
  obtain ⟨rfl, whole⟩ := checked_ok clean
  obtain ⟨rfl, rfl⟩ : path.resolve ⟨.root, u.files.here⟩ = result ∧ u = t := by
    simpa [here, bind, EStateM.bind, pure, EStateM.pure] using rest
  exact ⟨rfl, whole, rfl⟩

/-- The only refusal that is not taken for nothing being there is one for the length of the path or of a
name in it. -/
theorem lookStrictly_fails_iff {path : String} : (∃ t, lookStrictly path s = .error e t) ↔
    holdsZero path = false ∧ s.files.stat path = .error .nameTooLong ∧
      e = .refusal (.system .nameTooLong (.text path)) := by
  unfold lookStrictly
  split
  · rename_i zero
    simp [zero, pure, EStateM.pure]
  · rename_i whole
    rw [bind_of_ok (current_apply s)]
    cases seen : s.files.stat path with
    | ok entry => simp [pure, EStateM.pure]
    | error errno => cases stat_error seen <;> simp [whole, pure, EStateM.pure, eq_comm]

/-- What is seen has a status that can be asked for. -/
theorem lookStrictly_some {path : String} (ran : lookStrictly path s = .ok (some entry) t) :
    t = s ∧ holdsZero path = false ∧ s.files.stat path = .ok entry := by
  obtain ⟨rfl, there, -⟩ := lookStrictly_ok ran
  refine ⟨rfl, ?_, there entry rfl⟩
  cases zero : holdsZero path with
  | false => rfl
  | true =>
      rw [lookStrictly, if_pos zero] at ran
      cases ran

theorem names_fails_iff {path : String} : (∃ t, names path s = .error e t) ↔
    holdsZero path = false ∧ s.files.stat path = .error .nameTooLong ∧
      e = .refusal (.system .nameTooLong (.text path)) := by
  rw [← lookStrictly_fails_iff, names, bind_fails_iff, or_iff_left]
  rintro ⟨seen, t, -, u, never⟩
  cases seen with
  | none => cases never
  | some entry =>
      cases entry with
      | file _ => cases never
      | directory =>
          simp only [bind_of_ok (current_apply t)] at never
          cases located : t.files.locate path <;> simp [located, pure, EStateM.pure] at never

/-- All that stands in a directory is listed, in order; nothing is where the path leads to no
directory. -/
theorem names_ok {path : String} {found : List String} (distinct : (s.files.entries.map (·.1)).Nodup)
    (whole : holdsZero path = false) (ran : names path s = .ok found t) :
    t = s ∧ found.Pairwise (· < ·) ∧ ∀ name, name ∈ found ↔
      s.files.stat path = .ok .directory ∧
        (s.files.entry? (spot s.files.here path ++ [name])).isSome = true := by
  obtain ⟨seen, u, looked, rest⟩ := bind_eq_ok.mp ran
  obtain ⟨rfl, there, nowhere⟩ := lookStrictly_ok looked
  split at rest
  · have status := there _ rfl
    obtain ⟨fs, v, current, rest⟩ := bind_eq_ok.mp rest
    obtain ⟨rfl, rfl⟩ := current_ok.mp current
    simp only [(stat_ok status).1] at rest
    obtain ⟨rfl, rfl⟩ := pure_eq_ok.mp rest
    exact ⟨rfl, ordered_names distinct _, fun name => by simp [mem_names, status]⟩
  · rename_i other
    obtain ⟨rfl, rfl⟩ := pure_eq_ok.mp rest
    refine ⟨rfl, .nil, fun name => ?_⟩
    simp only [List.not_mem_nil, false_iff, not_and]
    intro status
    cases seen with
    | none =>
        obtain ⟨errno, refused⟩ := nowhere rfl whole
        rw [status] at refused
        cases refused
    | some entry =>
        have same := there entry rfl
        rw [status] at same
        cases same
        exact absurd rfl other

/-- A directory that can be asked for has an entry with a name that ends in `tail`. -/
structure NameIn (fs : FileSystem) (directory : Path) (tail name : String) : Prop where
  whole : holdsZero directory.text = false
  ends : Text.endsWith name tail = true
  opened : fs.stat directory.text = .ok .directory
  stands : (fs.entry? (spot fs.here directory.text ++ [name])).isSome = true

/-- All names in a directory that end in `tail`, in their order. -/
structure NamesIn (fs : FileSystem) (directory : Path) (tail : String) (names : List String) : Prop where
  ordered : names.Pairwise (· < ·)
  mem : ∀ name, name ∈ names ↔ NameIn fs directory tail name

theorem NamesIn.unique {listed listed' : List String} (first : NamesIn fs directory tail listed)
    (second : NamesIn fs directory tail listed') : listed = listed' :=
  first.ordered.eq_of_mem_iff second.ordered fun name => (first.mem name).trans (second.mem name).symm

theorem namesIn_of_names {directory : Path} {found : List String}
    (distinct : (s.files.entries.map (·.1)).Nodup) (ran : names directory.text s = .ok found t) (tail : String) :
    t = s ∧ NamesIn s.files directory tail (found.filter (Text.endsWith · tail)) := by
  cases zero : holdsZero directory.text with
  | true =>
      obtain ⟨rfl, rfl⟩ : found = [] ∧ t = s := by
        obtain ⟨seen, u, looked, rest⟩ := bind_eq_ok.mp ran
        rw [lookStrictly, if_pos zero] at looked
        obtain ⟨rfl, rfl⟩ := pure_eq_ok.mp looked
        obtain ⟨rfl, rfl⟩ := pure_eq_ok.mp rest
        exact ⟨rfl, rfl⟩
      refine ⟨rfl, .nil, fun name => iff_of_false List.not_mem_nil fun stands => ?_⟩
      rw [stands.whole] at zero
      cases zero
  | false =>
      obtain ⟨rfl, ordered, mem⟩ := names_ok distinct zero ran
      refine ⟨rfl, ordered.filter _, fun name => ?_⟩
      rw [List.mem_filter, mem]
      constructor
      · rintro ⟨⟨opened, stands⟩, ends⟩
        exact ⟨zero, ends, opened, stands⟩
      · rintro ⟨-, ends, opened, stands⟩
        exact ⟨⟨opened, stands⟩, ends⟩

/-- A path holds the character that ends paths in one of its parts. -/
theorem holdsZero_text (path : Path) :
    holdsZero path.text = true ↔ ∃ part ∈ path.parts, '\x00' ∈ part.toList := by
  have anchor : '\x00' ∉ path.anchor.text.toList := by cases path.anchor <;> decide
  unfold Path.text
  split
  · rename_i bare
    have none : path.parts = [] := by simp_all
    simp [none, holdsZero]
  · rw [holdsZero, List.contains_eq_mem, decide_eq_true_iff, String.toList_append, List.mem_append,
      Text.mem_intercalate (by decide)]
    simp [anchor]

theorem not_mem_of_partsOf {text part : String} (clean : '\x00' ∉ text.toList)
    (member : part ∈ Path.partsOf text) : '\x00' ∉ part.toList :=
  fun zero => clean ((Text.sublist_of_mem_split (List.mem_of_mem_filter member)).subset zero)

theorem holdsZero_child {path : Path} {name : String} (clean : '\x00' ∉ name.toList)
    (whole : holdsZero path.text = false) : holdsZero (path.child name).text = false := by
  rw [Bool.eq_false_iff, ne_eq, holdsZero_text] at whole ⊢
  rintro ⟨part, member, zero⟩
  rw [Path.child, Path.join] at member
  split at member
  · rcases List.mem_append.mp member with before | after
    · exact whole ⟨part, before, zero⟩
    · exact not_mem_of_partsOf clean after zero
  · exact not_mem_of_partsOf clean member zero

end Foundry.Files
