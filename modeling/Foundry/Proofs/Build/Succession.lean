import Foundry.Proofs.Build.Cleanup

/-! Run directories that come one after another. Each is made under a number that was not drawn before, only
the last one can be there, and nothing is left of it once it is cleaned up. -/
namespace Foundry

open FileSystem Run

namespace RunDirectory

theorem new_injective {host : Host} {stem : String} {m n : Nat} (same : new host stem m = new host stem n) :
    m = n := by
  rw [new_eq, new_eq, String.append_right_inj, Nat.toString_eq_repr, Nat.toString_eq_repr,
    ← String.toList_inj, Nat.toList_repr, Nat.toList_repr] at same
  have read := congrArg (Nat.ofDigitChars 10 · 0) same
  simpa using read

/-- Run directories stand beside each other under names that differ in their numbers. -/
theorem spot_new (here : Location) (host : Host) (stem : String) :
    ∃ above base, ∀ number, spot here (new host stem number) = above ++ [base ++ toString number] := by
  have dashed : '-' ∈ (front host stem).toList := by
    rw [front, joinPaths]
    split
    · simp
    · split <;> simp
  have nonempty : front host stem ≠ "" := by
    intro none
    rw [none] at dashed
    contradiction
  obtain ⟨before, pieces, -⟩ := Text.split_append_tail (front host stem) (Files.slash_not_mem_number 0)
  refine ⟨walk (startOf here (front host stem)) before, Text.baseName (front host stem), fun number => ?_⟩
  obtain ⟨before', pieces', longer⟩ := Text.split_append_tail (front host stem) (Files.slash_not_mem_number number)
  obtain rfl := (List.append_inj' (pieces.symm.trans pieces') rfl).1
  have proper : IsName (Text.baseName (front host stem) ++ toString number) := by
    have cleanBase : '/' ∉ (Text.baseName (front host stem)).toList :=
      Text.not_mem_of_mem_split (by rw [pieces]; simp)
    exact Files.isName_numbered cleanBase number
  rw [new_eq, spot, startOf_append here nonempty, longer, walk_append, proper.walk]

/-- Run directories with different numbers are at different places. -/
theorem spot_new_injective {here : Location} {host : Host} {stem : String} {m n : Nat}
    (same : spot here (new host stem m) = spot here (new host stem n)) : m = n := by
  obtain ⟨above, base, places⟩ := spot_new here host stem
  rw [places, places] at same
  have names := (List.append_inj' same rfl).2
  rw [List.singleton_inj, String.append_right_inj] at names
  apply @new_injective host stem
  rw [new_eq, new_eq, names]

/-- No run directory is directly in another one. -/
theorem spot_new_ne_inside (here : Location) (host : Host) (stem : String) (m n : Nat) (name : String) :
    spot here (new host stem m) ≠ spot here (new host stem n) ++ [name] := by
  intro same
  obtain ⟨above, base, places⟩ := spot_new here host stem
  have lengths := congrArg List.length same
  simp [places] at lengths

variable {origin s t u : Session} {directory : String} {made : List String} {stem : String}

theorem path_number (none : s.runDirectory = none) (ran : path stem s = .ok directory t) :
    directory = new s.host stem t.draws ∧ s.draws < t.draws := by
  obtain ⟨u, making, rfl⟩ := path_made none ran
  rw [Files.makeTemporaryDirectory_apply] at making
  obtain ⟨-, named, later, -⟩ := Files.makeDrawn_last making
  exact ⟨named, later⟩

/-- Sessions since `origin` with the run directories `made` in them, under rising numbers: the current one is
there and can be removed, and nothing is left of the others. -/
structure Tidy (origin : Session) (stem : String) (made : List String) (s : Session) : Prop where
  sound : s.files.Sound
  here : s.files.here = origin.files.here
  host : s.host = origin.host
  counted : origin.draws ≤ s.draws
  drawn : ∀ directory ∈ made, ∃ number, origin.draws < number ∧ number ≤ s.draws ∧
    directory = new origin.host stem number
  current : ∀ directory, s.runDirectory = some directory → directory ∈ made ∧ s.Removable directory
  gone : ∀ directory ∈ made, s.runDirectory ≠ some directory →
    s.files.entry? (spot origin.files.here directory) = none

theorem tidy_of_ready (ready : origin.Ready) (stem : String) : Tidy origin stem [] origin where
  sound := ready.sound
  here := rfl
  host := rfl
  counted := Nat.le_refl _
  drawn := nofun
  current directory there := by
    rw [ready.runDirectory] at there
    contradiction
  gone := nofun

namespace Tidy

/-- Two run directories are at one place only if they are the same. -/
theorem apart (tidy : Tidy origin stem made s) {first second : String} (member : first ∈ made)
    (member' : second ∈ made)
    (same : spot origin.files.here first = spot origin.files.here second) : first = second := by
  obtain ⟨m, -, -, rfl⟩ := tidy.drawn first member
  obtain ⟨n, -, -, rfl⟩ := tidy.drawn second member'
  rw [spot_new_injective same]

/-- A place directly in a run directory is not where a run directory was made. -/
theorem beside (tidy : Tidy origin stem made s) {first second : String} (member : first ∈ made)
    (member' : second ∈ made) (name : String) :
    spot origin.files.here first ≠ spot origin.files.here second ++ [name] := by
  obtain ⟨m, -, -, rfl⟩ := tidy.drawn first member
  obtain ⟨n, -, -, rfl⟩ := tidy.drawn second member'
  exact spot_new_ne_inside _ _ _ m n name

/-- A directory that is there already is not made again. -/
theorem again (tidy : Tidy origin stem made s) (member : directory ∈ made) :
    Tidy origin stem (made ++ [directory]) s := by
  have inside (other : String) : other ∈ made ++ [directory] → other ∈ made := fun both =>
    (List.mem_append.mp both).elim id fun last => List.mem_singleton.mp last ▸ member
  exact { tidy with
    drawn := fun other both => tidy.drawn other (inside other both)
    current := fun other there => (tidy.current other there).imp_left (List.mem_append_left _)
    gone := fun other both => tidy.gone other (inside other both) }

/-- Files that grow where no run directory was. -/
theorem grows {Z : Location → Prop} (tidy : Tidy origin stem made s) (files : s.files.Extends Z t.files)
    (host : t.host = s.host) (counted : s.draws ≤ t.draws) (kept : t.runDirectory = s.runDirectory)
    (outside : ∀ directory ∈ made, t.files.entry? (spot origin.files.here directory) =
      s.files.entry? (spot origin.files.here directory)) : Tidy origin stem made t where
  sound := files.sound tidy.sound
  here := files.here.trans tidy.here
  host := host.trans tidy.host
  counted := tidy.counted.trans counted
  drawn directory member := by
    obtain ⟨number, low, high, same⟩ := tidy.drawn directory member
    exact ⟨number, low, high.trans counted, same⟩
  current directory there := by
    obtain ⟨member, removable⟩ := tidy.current directory (kept ▸ there)
    obtain ⟨above, name, found⟩ := removable.named
    exact ⟨member, {
      runDirectory := there
      stands := files.here ▸ files.directory removable.stands
      named := ⟨above, name, last_stays files.here (.of_directories fun _ => files.directory) found⟩
      straight := files.here ▸ removable.straight
      whole := removable.whole }⟩
  gone directory member other := by
    rw [outside directory member]
    exact tidy.gone directory member (kept ▸ other)

theorem counts (tidy : Tidy origin stem made s) (same : t = { s with draws := t.draws })
    (counted : s.draws ≤ t.draws) : Tidy origin stem made t := by
  have files : t.files = s.files := by rw [same]
  refine tidy.grows (Z := fun _ => False) ?_ ?_ counted ?_ fun _ _ => by rw [files]
  · rw [files]
    exact .refl _
  · rw [same]
  · rw [same]

/-- The run directory that is asked for is the current one, or was never there before. -/
theorem opened (tidy : Tidy origin stem made s) (ran : path stem s = .ok directory t) :
    Tidy origin stem (made ++ [directory]) t ∧ t.runDirectory = some directory ∧
      s.files.Extends (fun _ => False) t.files ∧
      (s.runDirectory = some directory ∨ s.runDirectory = none ∧ directory ∉ made) := by
  rcases Option.eq_none_or_eq_some s.runDirectory with none | ⟨current, there⟩
  case inr =>
    obtain ⟨rfl, rfl⟩ := path_ok there ran
    exact ⟨tidy.again (tidy.current _ there).1, there, .refl _, .inl there⟩
  case inl =>
    have removable := path_removable tidy.sound none ran
    obtain ⟨named, later⟩ := path_number none ran
    obtain ⟨number, fs, draws, -, -, done, rfl⟩ := path_new none ran
    have grown : s.files.Extends (fun _ => False) fs := makeDirectory_extends done
    obtain ⟨standing, free, rfl⟩ := makeDirectory_ok done
    dsimp only at named later
    rw [tidy.host] at named
    have fresh (other : String) (member : other ∈ made) :
        spot origin.files.here other ≠ spot origin.files.here directory := by
      intro same
      obtain ⟨number, -, high, rfl⟩ := tidy.drawn other member
      rw [named] at same
      exact Nat.not_lt_of_le high (spot_new_injective same ▸ later)
    refine ⟨?_, rfl, grown, .inr ⟨none, fun member => fresh directory member rfl⟩⟩
    exact {
      sound := grown.sound tidy.sound
      here := tidy.here
      host := tidy.host
      counted := tidy.counted.trans (Nat.le_of_lt later)
      drawn := fun other both => by
        rcases List.mem_append.mp both with member | last
        · obtain ⟨number, low, high, same⟩ := tidy.drawn other member
          exact ⟨number, low, high.trans (Nat.le_of_lt later), same⟩
        · rw [List.mem_singleton.mp last]
          exact ⟨draws, Nat.lt_of_le_of_lt tidy.counted later, Nat.le_refl _, named⟩
      current := fun other there => by
        obtain rfl := Option.some.inj there
        exact ⟨List.mem_append_right _ List.mem_cons_self, removable⟩
      gone := fun other both different => by
        have member : other ∈ made := (List.mem_append.mp both).resolve_right fun last =>
          different (congrArg some (List.mem_singleton.mp last).symm)
        have before := tidy.gone other member (by simp [none])
        have elsewhere := fresh other member
        rw [← tidy.here] at before elsewhere ⊢
        rw [← before]
        exact entry?_put_of_ne _ elsewhere _ }

theorem unopened (tidy : Tidy origin stem made s) (failed : path stem s = .error e t) :
    Tidy origin stem made t := by
  obtain ⟨-, same, counted⟩ := path_failed failed
  exact tidy.counts same counted

/-- A fresh file in the run directory. -/
theorem filed {name suffix file : String} (tidy : Tidy origin stem made s)
    (there : s.runDirectory = some directory) (cleanName : '/' ∉ name.toList)
    (cleanSuffix : '/' ∉ suffix.toList)
    (ran : Files.makeTemporaryFile directory name suffix s = .ok file t) : Tidy origin stem made t := by
  have counted := (Files.makeTemporaryFile_counting _ _ _ s).of_ok ran
  obtain ⟨number, fs, draws, -, -, place, -, rfl, grown, rfl⟩ :=
    Files.makeTemporaryFile_drawn tidy.sound.here cleanName cleanSuffix ran
  refine tidy.grows grown rfl counted rfl fun other member => ?_
  have elsewhere := tidy.beside member (tidy.current _ there).1 (name ++ toString number ++ suffix)
  rw [← tidy.here, ← place] at elsewhere
  rw [← tidy.here]
  exact entry?_put_of_ne _ elsewhere _

theorem unfiled {name suffix : String} (tidy : Tidy origin stem made s)
    (failed : Files.makeTemporaryFile directory name suffix s = .error e t) : Tidy origin stem made t := by
  obtain ⟨same, counted⟩ := Files.makeTemporaryFile_failed failed
  exact tidy.counts same counted

/-- Cleaning up leaves nothing of any run directory. -/
theorem cleared (tidy : Tidy origin stem made s) :
    ∃ t, remove s = .ok () t ∧ Tidy origin stem made t ∧ t.runDirectory = none := by
  rcases Option.eq_none_or_eq_some s.runDirectory with none | ⟨directory, there⟩
  case inl => exact ⟨s, remove_of_none none, tidy, none⟩
  case inr =>
    obtain ⟨member, removable⟩ := tidy.current directory there
    have below : spot s.files.here directory ≠ [] := by
      obtain ⟨above, name, found⟩ := removable.named
      exact (last_standing found).2.below
    refine ⟨_, remove_of_removable removable, ?_, rfl⟩
    exact {
      sound := tidy.sound.pruned rfl fun place => entry?_withoutTree _ _ place
      here := tidy.here
      host := tidy.host
      counted := tidy.counted
      drawn := tidy.drawn
      current := nofun
      gone := fun other member' _ => by
        have left := entry?_withoutTree_below s.files below (spot s.files.here other)
        rw [← tidy.here]
        by_cases same : other = directory
        · rw [same, if_pos (within_self _)] at left
          rw [same]
          exact left
        · have before := tidy.gone other member' fun current =>
            same (Option.some.inj (there.symm.trans current)).symm
          rw [← tidy.here] at before
          rw [before, ite_self] at left
          exact left }

end Tidy

end RunDirectory
end Foundry
