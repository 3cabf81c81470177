import Foundry.Proofs.FileSystem.Entry
import Foundry.Proofs.Run
import Foundry.Proofs.Text.Split

/-! Where paths lead. A path that can be followed leads to the end of a walk along its steps, whatever
stands on the way. -/
namespace Foundry.FileSystem

/-- Go along the steps of a path without looking at what is there. -/
def walk (place : Location) : List String → Location
  | [] => place
  | step :: rest =>
    if step = "" ∨ step = "." then walk place rest
    else if step = ".." then walk place.dropLast rest
    else walk (place ++ [step]) rest

/-- Where the steps of a path start, seen from the directory `here`. -/
def startOf (here : Location) (path : String) : Location :=
  if Text.startsWith path "/" then [] else here

/-- The location that a path stands for, seen from the directory `here`. -/
def spot (here : Location) (path : String) : Location :=
  walk (startOf here path) (Text.split '/' path)

/-- A name that a directory can hold. -/
structure IsName (name : String) : Prop where
  nonempty : name ≠ ""
  notSelf : name ≠ "."
  notAbove : name ≠ ".."
  clean : '/' ∉ name.toList

instance (name : String) : Decidable (IsName name) :=
  decidable_of_iff (name ≠ "" ∧ name ≠ "." ∧ name ≠ ".." ∧ '/' ∉ name.toList)
    ⟨fun ⟨nonempty, notSelf, notAbove, clean⟩ => ⟨nonempty, notSelf, notAbove, clean⟩,
      fun proper => ⟨proper.nonempty, proper.notSelf, proper.notAbove, proper.clean⟩⟩

/-- A text without a slash that holds more than dots is a name. -/
theorem IsName.of_mem {name : String} {c : Char} (member : c ∈ name.toList) (notDot : c ≠ '.')
    (clean : '/' ∉ name.toList) : IsName name := by
  refine ⟨?_, ?_, ?_, clean⟩
  all_goals
    rintro rfl
    simp [notDot] at member

/-- A location all of whose steps are names. -/
def Proper (place : Location) : Prop := ∀ name ∈ place, IsName name

instance (place : Location) : Decidable (Proper place) :=
  inferInstanceAs (Decidable (∀ name ∈ place, IsName name))

theorem IsName.relative {name : String} (proper : IsName name) :
    Text.startsWith name "/" = false := by
  rw [Bool.eq_false_iff]
  intro slash
  obtain ⟨rest, rfl⟩ := Text.startsWith_iff.mp slash
  exact proper.clean (by simp)

theorem walk_append (place : Location) (first rest : List String) :
    walk place (first ++ rest) = walk (walk place first) rest := by
  induction first generalizing place with
  | nil => rfl
  | cons step first ih =>
      simp only [List.cons_append, walk]
      split
      · exact ih _
      · split
        · exact ih _
        · exact ih _

theorem walk_blanks (place : Location) {steps : List String} (blank : ∀ step ∈ steps, step = "") :
    walk place steps = place := by
  induction steps with
  | nil => rfl
  | cons step rest ih =>
      obtain rfl := blank step (by simp)
      exact ih fun step member => blank step (by simp [member])

theorem IsName.walk {name : String} (proper : IsName name) (place : Location) :
    walk place [name] = place ++ [name] := by
  simp [FileSystem.walk, proper.nonempty, proper.notSelf, proper.notAbove]

theorem walk_proper (place : Location) {rest : Location} (proper : Proper rest) :
    walk place rest = place ++ rest := by
  induction rest generalizing place with
  | nil => simp [walk]
  | cons name rest ih =>
      have first := proper name (by simp)
      have later : Proper rest := fun other member => proper other (List.mem_cons_of_mem _ member)
      simp [walk, first.nonempty, first.notSelf, first.notAbove, ih _ later]

/-- Steps that lead nowhere do not matter. -/
theorem walk_filter (place : Location) (steps : List String) :
    walk place (steps.filter fun step => step ≠ "" && step ≠ ".") = walk place steps := by
  induction steps generalizing place with
  | nil => rfl
  | cons step rest ih =>
      by_cases empty : step = ""
      · simpa [walk, empty] using ih place
      · by_cases self : step = "."
        · simpa [walk, self] using ih place
        · rw [List.filter_cons_of_pos (by simp [empty, self])]
          simp only [walk, ih]

theorem Proper.walk {place : Location} (proper : Proper place) {steps : List String}
    (clean : ∀ step ∈ steps, '/' ∉ step.toList) : Proper (walk place steps) := by
  induction steps generalizing place with
  | nil => exact proper
  | cons step rest ih =>
      have later : ∀ step ∈ rest, '/' ∉ step.toList := fun step member => clean step (by simp [member])
      simp only [FileSystem.walk]
      split
      · exact ih proper later
      · rename_i real
        simp only [not_or] at real
        split
        · exact ih (fun name member => proper name ((List.dropLast_sublist _).subset member)) later
        · rename_i notAbove
          refine ih (fun name member => ?_) later
          rcases List.mem_append.mp member with member | member
          · exact proper name member
          · rw [List.mem_singleton.mp member]
            exact ⟨real.1, real.2, notAbove, clean step (by simp)⟩

theorem Proper.spot {here : Location} (proper : Proper here) (path : String) :
    Proper (spot here path) := by
  refine Proper.walk ?_ fun step member => Text.not_mem_of_mem_split member
  unfold startOf
  split
  · intro name member
    exact absurd member List.not_mem_nil
  · exact proper

variable {fs : FileSystem}

theorem follow_append (place : Location) (first rest : List String) :
    fs.follow place (first ++ rest) = fs.follow place first >>= fun reached => fs.follow reached rest := by
  induction first generalizing place with
  | nil => rfl
  | cons step first ih =>
      simp only [List.cons_append, follow]
      split
      · rfl
      · rfl
      · split
        · exact ih _
        · split
          · exact ih _
          · split
            · rfl
            · exact ih _

/-- Every step is taken in a directory. -/
theorem follow_cons (found : fs.follow place (step :: rest) = .ok reached) :
    fs.entry? place = some .directory := by
  unfold follow at found
  split at found
  · contradiction
  · contradiction
  · assumption

theorem follow_ok (found : fs.follow place steps = .ok reached) : reached = walk place steps := by
  induction steps generalizing place with
  | nil => exact (Except.ok.inj found).symm
  | cons step rest ih =>
      have directory := follow_cons found
      simp only [follow, directory] at found
      simp only [walk]
      split at found
      · rename_i blank
        simpa [blank] using ih found
      · rename_i real
        split at found
        · rename_i above
          simpa [real, above] using ih found
        · rename_i below
          split at found
          · contradiction
          · simpa [real, below] using ih found

theorem route_ok (found : fs.route path = .ok (start, steps)) :
    start = startOf fs.here path ∧ steps = Text.split '/' path := by
  unfold route at found
  split at found
  · contradiction
  · split at found
    · contradiction
    · obtain ⟨rfl, rfl⟩ := Prod.mk.inj (Except.ok.inj found)
      exact ⟨rfl, rfl⟩

theorem locate_ok (found : fs.locate path = .ok place) : place = spot fs.here path := by
  obtain ⟨⟨start, steps⟩, route, followed⟩ := except_bind_eq_ok.mp found
  obtain ⟨rfl, rfl⟩ := route_ok route
  exact follow_ok followed

theorem stat_ok (found : fs.stat path = .ok entry) :
    fs.locate path = .ok (spot fs.here path) ∧ fs.entry? (spot fs.here path) = some entry := by
  obtain ⟨place, located, stands⟩ := except_bind_eq_ok.mp found
  obtain rfl := locate_ok located
  refine ⟨located, ?_⟩
  split at stands
  · rename_i here
    rw [here, Except.ok.inj stands]
  · contradiction

theorem stat_of_locate (located : fs.locate path = .ok place) (stands : fs.entry? place = some entry) :
    fs.stat path = .ok entry := by
  simp [stat, bind, Except.bind, located, stands]

/-- What a path can be refused for when it is looked at. -/
inductive UnseenAs : Errno → Prop where
  | noEntry : UnseenAs .noEntry
  | notDirectory : UnseenAs .notDirectory
  | nameTooLong : UnseenAs .nameTooLong

theorem follow_error (failed : fs.follow place steps = .error errno) : UnseenAs errno := by
  induction steps generalizing place with
  | nil => cases failed
  | cons step rest ih =>
      unfold follow at failed
      split at failed
      · cases failed
        exact .noEntry
      · cases failed
        exact .notDirectory
      · split at failed
        · exact ih failed
        · split at failed
          · exact ih failed
          · split at failed
            · cases failed
              exact .nameTooLong
            · exact ih failed

theorem stat_error (failed : fs.stat path = .error errno) : UnseenAs errno := by
  rcases except_bind_eq_error.mp failed with unlocated | ⟨place, -, nothing⟩
  · rcases except_bind_eq_error.mp unlocated with unrouted | ⟨_, -, lost⟩
    · unfold route at unrouted
      split at unrouted
      · cases unrouted
        exact .noEntry
      · split at unrouted <;> cases unrouted
        exact .nameTooLong
    · exact follow_error lost
  · split at nothing <;> cases nothing
    exact .noEntry

/-- The last step that is not empty, with the steps before and behind it. -/
theorem lastStep {steps : List String} (found : steps.reverse.dropWhile (· = "") = step :: before) :
    step ≠ "" ∧ ∃ blanks, (∀ blank ∈ blanks, blank = "") ∧
      steps = before.reverse ++ [step] ++ blanks := by
  have nonempty := List.head?_dropWhile_not (fun step => decide (step = "")) steps.reverse
  have parts := List.takeWhile_append_dropWhile (p := fun step => decide (step = ""))
    (l := steps.reverse)
  have blank := List.all_takeWhile (p := fun step => decide (step = "")) (l := steps.reverse)
  rw [found] at nonempty parts
  refine ⟨by simpa using nonempty, _, fun step member => ?_,
    by simpa using congrArg List.reverse parts.symm⟩
  simpa using List.all_eq_true.mp blank step (List.mem_reverse.mp member)

/-- The steps of a path that ends in a name: those to the directory of the name, the name, and
nothing but slashes behind it. -/
theorem last_steps (found : fs.last path = .ok (.name directory name slash)) :
    ∃ before blanks, Text.split '/' path = before ++ [name] ++ blanks ∧
      (∀ blank ∈ blanks, blank = "") ∧ fs.follow (startOf fs.here path) before = .ok directory ∧
      fs.entry? directory = some .directory ∧ IsName name ∧ name.utf8ByteSize ≤ nameLimit ∧
      (slash = true ↔ (Text.split '/' path).getLast? = some "") ∧
      fs.route path = .ok (startOf fs.here path, Text.split '/' path) := by
  obtain ⟨⟨start, steps⟩, route, taken⟩ := except_bind_eq_ok.mp found
  obtain ⟨rfl, rfl⟩ := route_ok route
  dsimp only at taken
  split at taken
  · nomatch Except.ok.inj taken
  · rename_i step before steps
    obtain ⟨nonempty, blanks, blank, whole⟩ := lastStep steps
    obtain ⟨above, followed, taken⟩ := except_bind_eq_ok.mp taken
    have clean : '/' ∉ step.toList := Text.not_mem_of_mem_split (by rw [whole]; simp)
    split at taken
    · contradiction
    · contradiction
    · rename_i stands
      split at taken
      · nomatch Except.ok.inj taken
      · rename_i notSelf
        split at taken
        · nomatch Except.ok.inj taken
        · rename_i notAbove
          split at taken
          · contradiction
          · rename_i short
            obtain ⟨rfl, rfl, rfl⟩ := Last.name.inj (Except.ok.inj taken)
            exact ⟨before.reverse, blanks, whole, blank, followed, stands,
              ⟨nonempty, notSelf, notAbove, clean⟩, Nat.le_of_not_lt short, decide_eq_true_iff, route⟩

/-- Where nothing follows the last step of a path, the steps before it lead to its directory. -/
theorem last_open (found : fs.last path = .ok (.name directory name false)) :
    ∃ before, Text.split '/' path = before ++ [name] ∧
      fs.follow (startOf fs.here path) before = .ok directory := by
  obtain ⟨before, blanks, whole, blank, followed, -, -, -, closed, -⟩ := last_steps found
  have none : blanks = [] := by
    rcases List.eq_nil_or_concat blanks with none | ⟨front, last, rfl⟩
    · exact none
    · rw [Bool.false_eq_true, false_iff] at closed
      refine absurd ?_ closed
      rw [whole, List.concat_eq_append, ← List.append_assoc, List.getLast?_concat,
        blank last (by simp)]
  rw [none, List.append_nil] at whole
  exact ⟨before, whole, followed⟩

/-- The last step of a path is taken in a directory, where it names the location of the path. A path
with nothing behind that step can be followed to its end, and the step is its base name. -/
theorem last_name (found : fs.last path = .ok (.name directory name slash)) :
    spot fs.here path = directory ++ [name] ∧ fs.entry? directory = some .directory ∧
      IsName name ∧ (slash = false →
        fs.locate path = .ok (directory ++ [name]) ∧ Text.baseName path = name) := by
  obtain ⟨before, blanks, whole, blank, followed, stands, proper, short, -, route⟩ := last_steps found
  refine ⟨?_, stands, proper, fun open' => ?_⟩
  · rw [spot, whole, walk_append, walk_append, walk_blanks _ blank, ← follow_ok followed, proper.walk]
  · obtain ⟨before, whole, followed⟩ := last_open (open' ▸ found)
    constructor
    · simp only [locate, bind, Except.bind, route, whole, follow_append, followed]
      simp [follow, stands, proper.nonempty, proper.notSelf, proper.notAbove, short]
    · have last := Text.getLast?_split path
      rw [whole, List.getLast?_concat] at last
      exact (Option.some.inj last).symm

theorem follow_of_locate (found : fs.locate path = .ok place) :
    fs.follow (startOf fs.here path) (Text.split '/' path) = .ok place := by
  obtain ⟨⟨start, steps⟩, route, followed⟩ := except_bind_eq_ok.mp found
  obtain ⟨rfl, rfl⟩ := route_ok route
  exact followed

theorem route_eq_ok (path : String) :
    fs.route path = .ok (startOf fs.here path, Text.split '/' path) ↔
      path ≠ "" ∧ path.utf8ByteSize < pathLimit := by
  unfold route
  split
  · rename_i empty
    simp [empty]
  · rename_i nonempty
    split
    · rename_i long
      simp [Nat.not_lt_of_le long]
    · rename_i short
      simp [nonempty, Nat.lt_of_not_le short, startOf]

/-- A path whose steps can be followed up to its last name ends in that name. -/
theorem last_of_follow {path last : String} {before : List String} {directory : Location}
    (short : path.utf8ByteSize < pathLimit) (steps : Text.split '/' path = before ++ [last])
    (followed : fs.follow (startOf fs.here path) before = .ok directory)
    (stands : fs.entry? directory = some .directory) (proper : IsName last)
    (short' : last.utf8ByteSize ≤ nameLimit) : fs.last path = .ok (.name directory last false) := by
  have nonempty : path ≠ "" := by
    rintro rfl
    rw [show Text.split '/' "" = [] ++ [""] from rfl] at steps
    have same := (List.append_inj' steps rfl).2
    exact proper.nonempty (List.cons.inj same).1.symm
  have route : fs.route path = .ok (startOf fs.here path, Text.split '/' path) :=
    (route_eq_ok path).mpr ⟨nonempty, short⟩
  simp [FileSystem.last, bind, Except.bind, route, steps, proper.nonempty, followed, stands,
    proper.notSelf, proper.notAbove, Nat.not_lt_of_le short']

end Foundry.FileSystem
