import Foundry.CommandLine.LibraryOption
import Foundry.Proofs.Build.LinkCommand

/-! Linked libraries as they are read from a command line, and where the flags go that are given for
them. A library that is written with its paths is read back, and the flags for a name all go to the last
library of that name, in the order in which they are given. -/
namespace Foundry

namespace LinkedLibrary

variable {library : LinkedLibrary} {isDefault : Bool}

theorem ofText?_eq_some {text : String} : ofText? text isDefault = some library ↔
    ∃ name paths, Text.cut? '=' text = some (name, paths) ∧ name ≠ "" ∧
      library = { name, isDefault, includedPaths := (Text.split ',' paths).filter (· ≠ "") } := by
  unfold ofText?
  split
  · rename_i uncut
    simp [uncut]
  · rename_i paths cut
    simp [cut]
  · rename_i name paths named cut
    simp [cut, eq_comm, show name ≠ "" from named]

/-- What is read as a library is a name without `=` with pieces without commas, the empty ones of which
do not count. -/
theorem ofText?_iff {text : String} : ofText? text isDefault = some library ↔
    ∃ name pieces, text = name ++ "=" ++ String.intercalate "," pieces ∧ name ≠ "" ∧
      '=' ∉ name.toList ∧ pieces ≠ [] ∧ (∀ piece ∈ pieces, ',' ∉ piece.toList) ∧
      library = { name, isDefault, includedPaths := pieces.filter (· ≠ "") } := by
  rw [ofText?_eq_some]
  constructor
  · rintro ⟨name, paths, cut, nonempty, rfl⟩
    obtain ⟨rfl, clean⟩ := (Text.cut?_eq_some (show "=".toList = ['='] from rfl)).mp cut
    have joined := Text.intercalate_split (show ",".toList = [','] from rfl) paths
    refine ⟨name, Text.split ',' paths, by rw [joined], nonempty, clean, Text.split_nonempty ',' paths, ?_, rfl⟩
    exact fun piece member => Text.not_mem_of_mem_split member
  · rintro ⟨name, pieces, rfl, nonempty, clean, some, cleanPieces, rfl⟩
    refine ⟨name, String.intercalate "," pieces, Text.cut?_joined rfl clean _, nonempty, ?_⟩
    rw [Text.split_intercalate rfl some cleanPieces]

/-- Paths that are not empty are all read back; where there are none, one empty piece is written. -/
theorem ofText?_written {name : String} {paths : List String} (nonempty : name ≠ "")
    (clean : '=' ∉ name.toList) (real : ∀ path ∈ paths, path ≠ "" ∧ ',' ∉ path.toList)
    (isDefault : Bool) : ofText? (name ++ "=" ++ String.intercalate "," paths) isDefault =
      some { name, isDefault, includedPaths := paths } := by
  rw [ofText?_iff]
  cases paths with
  | nil => exact ⟨name, [""], by simp, nonempty, clean, by simp, by simp, by simp⟩
  | cons path rest =>
      refine ⟨name, path :: rest, rfl, nonempty, clean, by simp,
        fun piece member => (real piece member).2, ?_⟩
      rw [List.filter_eq_self.mpr]
      exact fun piece member => by simpa using (real piece member).1

end LinkedLibrary

namespace CommandLine

variable {libraries : List LinkedLibrary}

/-- Names with the flags that are given for them, in order. -/
abbrev Assignments := List (String × String)

/-- The option that gives a flag for a name. -/
def written (given : String × String) : String := given.1 ++ "=" ++ given.2

/-- The flag is given for one of the libraries, and its option is read as it is meant. -/
def Attaches (libraries : List LinkedLibrary) (given : String × String) : Prop :=
  '=' ∉ given.1.toList ∧ ∃ library ∈ libraries, library.name = given.1

/-- The option gives no flag, or one for a name that no library has. -/
inductive Astray (libraries : List LinkedLibrary) : (name option : String) → Prop where
  | unassigned : '=' ∉ option.toList → Astray libraries option option
  | unknown (flag : String) : '=' ∉ name.toList → (∀ library ∈ libraries, library.name ≠ name) →
      Astray libraries name (written (name, flag))

/-- The flags that are given for a name. -/
def flagsFor (given : Assignments) (name : String) : List String :=
  (given.filter (·.1 = name)).map (·.2)

/-- The libraries with the flags that are given for them. Those for a name go to the last library of
that name. -/
def distribute (given : Assignments) : List LinkedLibrary → List LinkedLibrary
  | [] => []
  | library :: rest =>
    (if rest.any (·.name = library.name) then library
      else { library with linkerOptions := library.linkerOptions ++ flagsFor given library.name }) ::
        distribute given rest

/-- Libraries without flags after flags were given for them: for each name one library has got all the
flags, in order, and together the libraries have got each flag once. -/
structure Distributed (given : Assignments) (before after : List LinkedLibrary) : Prop where
  same : after.map ({ · with linkerOptions := [] }) = before
  owner : ∀ library ∈ before, ∃ front owner rest, after = front ++ owner :: rest ∧
    owner.name = library.name ∧ owner.linkerOptions = flagsFor given library.name ∧
    ∀ other ∈ front ++ rest, other.name = library.name → other.linkerOptions = []
  collected : (after.flatMap (·.linkerOptions)).Perm (given.map (·.2))

theorem cut?_written {given : String × String} (clean : '=' ∉ given.1.toList) :
    Text.cut? '=' (written given) = some given :=
  Text.cut?_joined rfl clean given.2

/-- Every option gives a flag for one of the libraries or goes astray. -/
theorem attaches_or_astray (libraries : List LinkedLibrary) (option : String) :
    (∃ given, option = written given ∧ Attaches libraries given) ∨ ∃ name, Astray libraries name option := by
  cases cut : Text.cut? '=' option with
  | none => exact .inr ⟨option, .unassigned (Text.cut?_eq_none.mp cut)⟩
  | some given =>
      obtain ⟨rfl, clean⟩ := (Text.cut?_eq_some (show "=".toList = ['='] from rfl)).mp cut
      by_cases named : ∃ library ∈ libraries, library.name = given.1
      · exact .inl ⟨given, rfl, clean, named⟩
      · exact .inr ⟨given.1, .unknown given.2 clean fun library member same => named ⟨library, member, same⟩⟩

section First
variable {name flag : String}

theorem addFlagToFirst?_append {front : List LinkedLibrary} (free : ∀ other ∈ front, other.name ≠ name)
    {library : LinkedLibrary} (named : library.name = name) (rest : List LinkedLibrary) :
    addFlagToFirst? name flag (front ++ library :: rest) = some (front ++
      { library with linkerOptions := library.linkerOptions ++ [flag] } :: rest) := by
  induction front with
  | nil => simp [addFlagToFirst?, named]
  | cons other front ih =>
      have later := ih fun other member => free other (List.mem_cons_of_mem _ member)
      simp [addFlagToFirst?, free other List.mem_cons_self, later]

theorem addFlagToFirst?_eq_none (free : ∀ other ∈ libraries, other.name ≠ name) :
    addFlagToFirst? name flag libraries = none := by
  induction libraries with
  | nil => rfl
  | cons other rest ih =>
      have later := ih fun other member => free other (List.mem_cons_of_mem _ member)
      simp [addFlagToFirst?, free other List.mem_cons_self, later]

end First

section Distribution
variable {given : Assignments}

theorem names_distribute (given : Assignments) (libraries : List LinkedLibrary) :
    (distribute given libraries).map (·.name) = libraries.map (·.name) := by
  induction libraries with
  | nil => rfl
  | cons library rest ih =>
      rw [distribute, List.map_cons, List.map_cons, ih]
      split <;> rfl

theorem named_of_mem_distribute {library : LinkedLibrary} (member : library ∈ distribute given libraries) :
    ∃ other ∈ libraries, other.name = library.name := by
  have named : library.name ∈ (distribute given libraries).map (·.name) := List.mem_map_of_mem member
  rwa [names_distribute, List.mem_map] at named

theorem any_distribute (given : Assignments) (libraries : List LinkedLibrary) (name : String) :
    (distribute given libraries).any (·.name = name) = libraries.any (·.name = name) := by
  have names := congrArg (·.any (· = name)) (names_distribute given libraries)
  simpa [List.any_map, Function.comp_def] using names

theorem attaches_distribute (earlier : Assignments) (given : String × String) :
    Attaches (distribute earlier libraries) given ↔ Attaches libraries given := by
  have named := any_distribute earlier libraries given.1
  rw [Bool.eq_iff_iff, List.any_eq_true, List.any_eq_true] at named
  simpa only [Attaches, decide_eq_true_eq, and_congr_right_iff] using fun _ => named

theorem flagsFor_append (earlier later : Assignments) (name : String) :
    flagsFor (earlier ++ later) name = flagsFor earlier name ++ flagsFor later name := by
  simp [flagsFor]

/-- Flags that are given later stand behind those given before. -/
theorem distribute_append (earlier later : Assignments) (libraries : List LinkedLibrary) :
    distribute (earlier ++ later) libraries = distribute later (distribute earlier libraries) := by
  induction libraries with
  | nil => rfl
  | cons library rest ih =>
      simp only [distribute, ih]
      cases named : rest.any (·.name = library.name) with
      | true => simp [any_distribute, named]
      | false => simp [any_distribute, named, flagsFor_append]

theorem distribute_of_unnamed (free : ∀ library ∈ libraries, flagsFor given library.name = []) :
    distribute given libraries = libraries := by
  induction libraries with
  | nil => rfl
  | cons library rest ih =>
      simp [distribute, free library List.mem_cons_self,
        ih fun other member => free other (List.mem_cons_of_mem _ member)]

/-- The last library of a name. -/
theorem exists_last {name : String} (named : ∃ library ∈ libraries, library.name = name) :
    ∃ front owner rest, libraries = front ++ owner :: rest ∧ owner.name = name ∧
      ∀ other ∈ rest, other.name ≠ name := by
  induction libraries with
  | nil => simp at named
  | cons library rest ih =>
      by_cases later : ∃ other ∈ rest, other.name = name
      · obtain ⟨front, owner, behind, rfl, named, free⟩ := ih later
        exact ⟨library :: front, owner, behind, rfl, named, free⟩
      · have free : ∀ other ∈ rest, other.name ≠ name := fun other member same => later ⟨other, member, same⟩
        refine ⟨[], library, rest, rfl, ?_, free⟩
        obtain ⟨other, member, same⟩ := named
        rcases List.mem_cons.mp member with rfl | member
        · exact same
        · exact absurd same (free other member)

theorem Astray.distribute {name option : String} (given : Assignments)
    (astray : Astray libraries name option) : Astray (distribute given libraries) name option := by
  cases astray with
  | unassigned clean => exact .unassigned clean
  | unknown flag clean free =>
      refine .unknown flag clean fun library member same => ?_
      obtain ⟨other, inside, same'⟩ := named_of_mem_distribute member
      exact free other inside (same'.trans same)

/-- One flag goes to the last library of its name. -/
theorem distribute_single {owner : LinkedLibrary} {rest : List LinkedLibrary} (flag : String)
    (free : ∀ other ∈ rest, other.name ≠ owner.name) (front : List LinkedLibrary) :
    distribute [(owner.name, flag)] (front ++ owner :: rest) =
      front ++ { owner with linkerOptions := owner.linkerOptions ++ [flag] } :: rest := by
  have others (other : LinkedLibrary) (different : other.name ≠ owner.name) :
      flagsFor [(owner.name, flag)] other.name = [] := by simp [flagsFor, Ne.symm different]
  induction front with
  | nil =>
      have last : rest.any (·.name = owner.name) = false := by simpa using free
      have later : distribute [(owner.name, flag)] rest = rest :=
        distribute_of_unnamed fun other member => others other (free other member)
      rw [List.nil_append, List.nil_append, distribute, last, later]
      simp [flagsFor]
  | cons other front ih =>
      rw [List.cons_append, distribute, ih]
      by_cases same : other.name = owner.name
      · simp [same]
      · simp [others other same]

theorem addFlag_written {given : String × String} (attaches : Attaches libraries given) :
    addFlag libraries (written given) = .ok (distribute [given] libraries) := by
  obtain ⟨name, flag⟩ := given
  obtain ⟨clean, named⟩ := attaches
  obtain ⟨front, owner, rest, rfl, rfl, free⟩ := exists_last named
  -- the last library of the name is the first one from the end
  have added : addFlagToFirst? owner.name flag (rest.reverse ++ owner :: front.reverse) =
      some (rest.reverse ++
        { owner with linkerOptions := owner.linkerOptions ++ [flag] } :: front.reverse) :=
    addFlagToFirst?_append (fun other member => free other (List.mem_reverse.mp member)) rfl _
  simp [addFlag, cut?_written clean, added, distribute_single flag free]

/-- All flags go to libraries of their names, one after another. -/
theorem addFlags_written (attach : ∀ one ∈ given, Attaches libraries one) :
    (given.map written).foldlM addFlag libraries = .ok (distribute given libraries) := by
  induction given generalizing libraries with
  | nil =>
      rw [distribute_of_unnamed fun _ _ => rfl]
      rfl
  | cons one rest ih =>
      have later : ∀ other ∈ rest, Attaches (distribute [one] libraries) other := fun other member =>
        (attaches_distribute [one] other).mpr (attach other (List.mem_cons_of_mem _ member))
      rw [List.map_cons, List.foldlM_cons, addFlag_written (attach one List.mem_cons_self)]
      exact (ih later).trans (congrArg Except.ok (distribute_append [one] rest libraries).symm)

theorem addFlag_astray {name option : String} (astray : Astray libraries name option) :
    addFlag libraries option = .error (.unknownName name option) := by
  cases astray with
  | unassigned clean => simp [addFlag, Text.cut?_eq_none.mpr clean]
  | unknown flag clean free =>
      have cut : Text.cut? '=' (written (name, flag)) = some (name, flag) := cut?_written clean
      have nobody : addFlagToFirst? name flag libraries.reverse = none :=
        addFlagToFirst?_eq_none fun other member => free other (List.mem_reverse.mp member)
      simp [addFlag, cut, nobody]

/-- Among libraries that had no flags, one of a name has all flags for it. -/
theorem distribute_owner (bare : ∀ library ∈ libraries, library.linkerOptions = []) {name : String}
    (named : ∃ library ∈ libraries, library.name = name) :
    ∃ front owner rest, distribute given libraries = front ++ owner :: rest ∧ owner.name = name ∧
      owner.linkerOptions = flagsFor given name ∧
      ∀ other ∈ front ++ rest, other.name = name → other.linkerOptions = [] := by
  obtain ⟨front, owner, rest, rfl, rfl, free⟩ := exists_last named
  clear named
  induction front with
  | nil =>
      have last : rest.any (·.name = owner.name) = false := by simpa using free
      refine ⟨[], { owner with linkerOptions := flagsFor given owner.name }, distribute given rest, ?_, rfl,
        rfl, fun other member same => ?_⟩
      · simp [distribute, last, bare owner]
      · obtain ⟨library, inside, same'⟩ := named_of_mem_distribute member
        exact absurd (same'.trans same) (free library inside)
  | cons other front ih =>
      obtain ⟨front', owner', rest', whole, same, flags, others⟩ :=
        ih fun library member => bare library (List.mem_cons_of_mem _ member)
      refine ⟨_ :: front', owner', rest', by rw [List.cons_append, distribute, whole]; rfl, same, flags, ?_⟩
      intro library member named
      rcases List.mem_cons.mp member with rfl | member
      · have alike : other.name = owner.name := by
          split at named
          · exact named
          · exact named
        simp [alike, bare other]
      · exact others library member named

/-- Among libraries that had no flags, each flag for one of them is there once. -/
theorem distribute_perm (bare : ∀ library ∈ libraries, library.linkerOptions = []) :
    ((distribute given libraries).flatMap (·.linkerOptions)).Perm
      ((given.filter fun one => libraries.any (·.name = one.1)).map (·.2)) := by
  induction libraries with
  | nil => simp [distribute]
  | cons library rest ih =>
      have later := ih fun other member => bare other (List.mem_cons_of_mem _ member)
      rw [distribute, List.flatMap_cons]
      cases again : rest.any (·.name = library.name) with
      | true =>
          have same : (given.filter fun one => (library :: rest).any (·.name = one.1)) =
              given.filter fun one => rest.any (·.name = one.1) := by
            refine List.filter_congr fun one _ => ?_
            by_cases own : library.name = one.1
            · simp [← own, again]
            · simp [own]
          rw [same, if_pos rfl, bare library List.mem_cons_self, List.nil_append]
          exact later
      | false =>
          have split := List.filter_append_perm (·.1 = library.name)
            (given.filter fun one => (library :: rest).any (·.name = one.1))
          have own : ((given.filter fun one => (library :: rest).any (·.name = one.1)).filter
              (·.1 = library.name)) = given.filter (·.1 = library.name) := by
            rw [List.filter_filter]
            refine List.filter_congr fun one _ => ?_
            by_cases own : one.1 = library.name <;> simp [own]
          have others : ((given.filter fun one => (library :: rest).any (·.name = one.1)).filter
              fun one => !decide (one.1 = library.name)) =
              given.filter fun one => rest.any (·.name = one.1) := by
            rw [List.filter_filter]
            refine List.filter_congr fun one _ => ?_
            by_cases own : one.1 = library.name
            · simp [own, again]
            · simp [own, Ne.symm own]
          rw [own, others] at split
          have flags := (later.append_left (flagsFor given library.name)).trans
            (by simpa [flagsFor] using split.map (·.2))
          simpa [bare library] using flags

/-- Libraries without flags, for each of which only flags of its own name are given. -/
theorem distribute_distributed (bare : ∀ library ∈ libraries, library.linkerOptions = [])
    (attach : ∀ one ∈ given, Attaches libraries one) :
    Distributed given libraries (distribute given libraries) where
  same := by
    clear attach
    induction libraries with
    | nil => rfl
    | cons library rest ih =>
        rw [distribute, List.map_cons, ih fun other member => bare other (List.mem_cons_of_mem _ member)]
        split <;> simp [← bare library List.mem_cons_self]
  owner library member := distribute_owner bare ⟨library, member, rfl⟩
  collected := by
    have all : (given.filter fun one => libraries.any (·.name = one.1)) = given := by
      rw [List.filter_eq_self]
      intro one member
      obtain ⟨-, library, inside, named⟩ := attach one member
      exact List.any_eq_true.mpr ⟨library, inside, decide_eq_true named⟩
    have flags : ((distribute given libraries).flatMap (·.linkerOptions)).Perm _ := distribute_perm bare
    rwa [all] at flags

end Distribution

/-- Either every option gives a flag for one of the libraries, or there is a first one that goes
astray. -/
theorem all_attach_or_first_astray (libraries : List LinkedLibrary) (options : List String) :
    (∃ given : Assignments, options = given.map written ∧ ∀ one ∈ given, Attaches libraries one) ∨
    ∃ (given : Assignments) (name option : String) (rest : List String),
      options = given.map written ++ option :: rest ∧ (∀ one ∈ given, Attaches libraries one) ∧
        Astray libraries name option := by
  induction options with
  | nil => exact .inl ⟨[], rfl, by simp⟩
  | cons option options ih =>
      rcases attaches_or_astray libraries option with ⟨one, rfl, attaches⟩ | ⟨name, astray⟩
      · rcases ih with ⟨given, rfl, attach⟩ | ⟨given, name, astrayed, rest, rfl, attach, astray⟩
        · exact .inl ⟨one :: given, rfl, List.forall_mem_cons.mpr ⟨attaches, attach⟩⟩
        · exact .inr ⟨one :: given, name, astrayed, rest, rfl,
            List.forall_mem_cons.mpr ⟨attaches, attach⟩, astray⟩
      · exact .inr ⟨[], name, option, options, rfl, by simp, astray⟩

/-- Libraries that are written with their paths are read back, and each flag that is given for a library
goes to one of its name; if an option goes astray, the first one that does is refused. -/
theorem library_options_read_back {name : String} {paths : List String} (nonempty : name ≠ "")
    (clean : '=' ∉ name.toList) (real : ∀ path ∈ paths, path ≠ "" ∧ ',' ∉ path.toList)
    {libraries : List LinkedLibrary} (read : ∀ library ∈ libraries, ∃ text isDefault,
      LinkedLibrary.ofText? text isDefault = some library) (options : List String) :
    (∀ isDefault, LinkedLibrary.ofText? (name ++ "=" ++ String.intercalate "," paths) isDefault =
      some { name, isDefault, includedPaths := paths }) ∧
    (∀ text isDefault library, LinkedLibrary.ofText? text isDefault = some library ↔
      ∃ name pieces, text = name ++ "=" ++ String.intercalate "," pieces ∧ name ≠ "" ∧
        '=' ∉ name.toList ∧ pieces ≠ [] ∧ (∀ piece ∈ pieces, ',' ∉ piece.toList) ∧
        library = { name, isDefault, includedPaths := pieces.filter (· ≠ "") }) ∧
    ((∃ (given : Assignments) (name option : String) (rest : List String),
        options = given.map written ++ option :: rest ∧
        (∀ one ∈ given, Attaches libraries one) ∧ Astray libraries name option ∧
        options.foldlM addFlag libraries = .error (.unknownName name option)) ∨
      ∃ (given : Assignments) (after : List LinkedLibrary),
        options = given.map written ∧ (∀ one ∈ given, Attaches libraries one) ∧
        options.foldlM addFlag libraries = .ok after ∧ Distributed given libraries after ∧
        ∀ (setup : Setup) (home : String) (objects : List String) (s t : Session)
          (inputs : Setup.LinkInputs), setup.config.libraries = after →
          setup.libraryInputs home objects s = .ok inputs t →
          inputs.libraryFlags = after.flatMap (·.linkerOptions) ∧
            inputs.libraryFlags.Perm (given.map (·.2))) := by
  refine ⟨LinkedLibrary.ofText?_written nonempty clean real, fun _ _ _ => LinkedLibrary.ofText?_iff, ?_⟩
  have bare : ∀ library ∈ libraries, library.linkerOptions = [] := by
    intro library member
    obtain ⟨text, isDefault, found⟩ := read library member
    obtain ⟨_, _, _, _, rfl⟩ := LinkedLibrary.ofText?_eq_some.mp found
    rfl
  rcases all_attach_or_first_astray libraries options with
    ⟨given, rfl, attach⟩ | ⟨given, name, option, rest, rfl, attach, astray⟩
  · right
    have distributed := distribute_distributed bare attach
    refine ⟨given, _, rfl, attach, addFlags_written attach, distributed, ?_⟩
    intro setup home objects s t inputs same collected
    obtain ⟨-, -, flags⟩ := Setup.libraryInputs_given collected
    rw [same] at flags
    exact ⟨flags, flags ▸ distributed.collected⟩
  · left
    refine ⟨given, name, option, rest, rfl, attach, astray, ?_⟩
    have refused : addFlag (distribute given libraries) option = .error (.unknownName name option) :=
      addFlag_astray (astray.distribute given)
    rw [List.foldlM_append]
    refine except_bind_eq_error.mpr (.inr ⟨_, addFlags_written attach, ?_⟩)
    rw [List.foldlM_cons]
    exact except_bind_eq_error.mpr (.inl refused)

/-- Two libraries of one name around another one. -/
def sharingName : List LinkedLibrary :=
  [⟨"z", ["/z.a"], [], true⟩, ⟨"y", [], [], false⟩, ⟨"z", ["/m.a", "/n.a"], [], false⟩]

/-- The second of two libraries with one name gets the flags for it, around a flag for another
library that holds a `=` itself. -/
theorem flags_for_shared_name :
    LinkedLibrary.ofText? "z=/m.a,/n.a" false = some ⟨"z", ["/m.a", "/n.a"], [], false⟩ ∧
    ["z=-lm", "y=-Da=b", "z=-lz"].foldlM addFlag sharingName =
      .ok [⟨"z", ["/z.a"], [], true⟩, ⟨"y", [], ["-Da=b"], false⟩,
        ⟨"z", ["/m.a", "/n.a"], ["-lm", "-lz"], false⟩] ∧
    ∃ given after, ["z=-lm", "y=-Da=b", "z=-lz"] = given.map written ∧
      Distributed given sharingName after := by
  have read : ∀ library ∈ sharingName, ∃ text isDefault,
      LinkedLibrary.ofText? text isDefault = some library := by
    intro library member
    simp only [sharingName, List.mem_cons, List.not_mem_nil, or_false] at member
    rcases member with rfl | rfl | rfl
    · exact ⟨"z=/z.a", true, by decide⟩
    · exact ⟨"y=", false, by decide⟩
    · exact ⟨"z=/m.a,/n.a", false, by decide⟩
  have real : ∀ path ∈ ["/m.a", "/n.a"], path ≠ "" ∧ ',' ∉ path.toList := by decide
  have shared : ["z=-lm", "y=-Da=b", "z=-lz"].foldlM addFlag sharingName =
      .ok [⟨"z", ["/z.a"], [], true⟩, ⟨"y", [], ["-Da=b"], false⟩,
        ⟨"z", ["/m.a", "/n.a"], ["-lm", "-lz"], false⟩] := by rfl
  obtain ⟨written, -, given⟩ := library_options_read_back (by decide : "z" ≠ "") (by decide) real read
    ["z=-lm", "y=-Da=b", "z=-lz"]
  refine ⟨written false, shared, ?_⟩
  rcases given with ⟨_, _, _, _, _, _, _, refused⟩ | ⟨given, after, same, _, _, distributed, _⟩
  · rw [shared] at refused
    contradiction
  · exact ⟨given, after, same, distributed⟩

end CommandLine
end Foundry
