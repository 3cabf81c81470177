import Foundry.Proofs.FileSystem.Change

/-! Paths that still lead where they led. Only the directories in which the steps of a path are taken
decide where it leads, so a path outlives every change that leaves those directories alone. -/
namespace Foundry.FileSystem

variable {fs fs' : FileSystem}

/-- Each directory in which a step is taken from `place` is still one. -/
def StaysOpen (fs fs' : FileSystem) (place : Location) (steps : List String) : Prop :=
  ∀ first rest, steps = first ++ rest → rest ≠ [] → fs.entry? (walk place first) = some .directory →
    fs'.entry? (walk place first) = some .directory

theorem StaysOpen.of_directories {place : Location} {steps : List String}
    (kept : ∀ place, fs.entry? place = some .directory → fs'.entry? place = some .directory) :
    fs.StaysOpen fs' place steps := fun _ _ _ _ => kept _

theorem StaysOpen.tail {place next : Location} {step : String} {steps : List String}
    (stays : fs.StaysOpen fs' place (step :: steps)) (there : walk place [step] = next) :
    fs.StaysOpen fs' next steps := by
  intro first rest whole nonempty stands
  have same : walk place (step :: first) = walk next first := by
    rw [← there, ← walk_append]
    rfl
  rw [← same] at stands ⊢
  exact stays (step :: first) rest (by rw [whole]; rfl) nonempty stands

theorem StaysOpen.init {place : Location} {first rest : List String}
    (stays : fs.StaysOpen fs' place (first ++ rest)) : fs.StaysOpen fs' place first := by
  intro before after whole nonempty stands
  exact stays before (after ++ rest) (by rw [whole, List.append_assoc]) (by simp [nonempty]) stands

/-- Steps of which none goes up lead further down only. -/
theorem walk_ascends {steps : List String} (descends : ".." ∉ steps) (place : Location) :
    place <+: walk place steps := by
  induction steps generalizing place with
  | nil => exact List.prefix_refl _
  | cons step rest ih =>
      simp only [List.mem_cons, not_or] at descends
      simp only [walk, Ne.symm descends.1, if_false]
      split
      · exact ih descends.2 place
      · exact (List.prefix_append _ _).trans (ih descends.2 _)

/-- A path of which no step goes up leads through directories above its place alone. -/
theorem StaysOpen.of_above {place : Location} {steps : List String} (descends : ".." ∉ steps)
    (kept : ∀ other, other <+: walk place steps → fs.entry? other = some .directory →
      fs'.entry? other = some .directory) : fs.StaysOpen fs' place steps := by
  intro first rest whole _ stands
  rw [whole, List.mem_append, not_or] at descends
  refine kept _ ?_ stands
  rw [whole, walk_append]
  exact walk_ascends descends.2 _

/-- A path of which no step goes up outlives a change that is neither above its place nor there. -/
theorem Changes.staysOpen {A D : Location → Prop} (changed : Changes A D fs fs') {place : Location}
    {steps : List String} (descends : ".." ∉ steps)
    (outside : ∀ other, other <+: walk place steps → ¬ A other) : fs.StaysOpen fs' place steps :=
  .of_above descends fun other onWay => changed.directory (outside other onWay)

theorem follow_stays {place reached : Location} {steps : List String}
    (stays : fs.StaysOpen fs' place steps) (found : fs.follow place steps = .ok reached) :
    fs'.follow place steps = .ok reached := by
  induction steps generalizing place with
  | nil => exact found
  | cons step rest ih =>
      have directory := follow_cons found
      have directory' := stays [] (step :: rest) rfl (List.cons_ne_nil _ _) directory
      simp only [walk] at directory'
      simp only [follow, directory] at found
      simp only [follow, directory']
      split at found
      · rename_i blank
        rw [if_pos blank]
        exact ih (stays.tail (by simp [walk, blank])) found
      · rename_i real
        rw [if_neg real]
        split at found
        · rename_i above
          rw [if_pos above]
          exact ih (stays.tail (by simp [walk, above])) found
        · rename_i below
          rw [if_neg below]
          split at found
          · contradiction
          · rename_i short
            rw [if_neg short]
            exact ih (stays.tail (by simp [walk, real, below])) found

theorem route_here (same : fs'.here = fs.here) (path : String) : fs'.route path = fs.route path := by
  simp only [route, same]

theorem locate_stays {path : String} (same : fs'.here = fs.here)
    (stays : fs.StaysOpen fs' (startOf fs.here path) (Text.split '/' path))
    (found : fs.locate path = .ok place) : fs'.locate path = .ok place := by
  obtain ⟨⟨start, steps⟩, route, followed⟩ := except_bind_eq_ok.mp found
  obtain ⟨rfl, rfl⟩ := route_ok route
  exact except_bind_eq_ok.mpr ⟨_, (route_here same path).trans route, follow_stays stays followed⟩

theorem last_stays {path : String} (same : fs'.here = fs.here)
    (stays : fs.StaysOpen fs' (startOf fs.here path) (Text.split '/' path))
    (found : fs.last path = .ok step) : fs'.last path = .ok step := by
  obtain ⟨⟨start, steps⟩, route, taken⟩ := except_bind_eq_ok.mp found
  obtain ⟨rfl, rfl⟩ := route_ok route
  refine except_bind_eq_ok.mpr ⟨_, (route_here same path).trans route, ?_⟩
  dsimp only at taken ⊢
  split at taken
  · exact taken
  · rename_i last before steps
    obtain ⟨-, blanks, -, whole⟩ := lastStep steps
    obtain ⟨above, followed, taken⟩ := except_bind_eq_ok.mp taken
    rw [whole, List.append_assoc] at stays
    refine except_bind_eq_ok.mpr ⟨above, follow_stays stays.init followed, ?_⟩
    split at taken
    · contradiction
    · contradiction
    · rename_i stands
      have reached := follow_ok followed
      have stands' := stays before.reverse _ rfl (by simp) (reached ▸ stands)
      rw [← reached] at stands'
      simp only [stands']
      exact taken

theorem passesBelow_append (top place : Location) (first rest : List String) :
    passesBelow top place (first ++ rest) =
      (passesBelow top place first || passesBelow top (walk place first) rest) := by
  induction first generalizing place with
  | nil => simp [passesBelow, walk]
  | cons step first ih =>
      simp only [List.cons_append, passesBelow, walk]
      split
      · exact ih _
      · split
        · exact ih _
        · rw [ih, Bool.or_assoc]

/-- Steps through directories do not pass where no directory is. -/
theorem passesBelow_of_follow {top place reached : Location} {steps : List String}
    (found : fs.follow place steps = .ok reached) (stands : fs.entry? reached = some .directory)
    (free : ∀ other, within top other = true → fs.entry? other ≠ some .directory) :
    passesBelow top place steps = false := by
  induction steps generalizing place with
  | nil => rfl
  | cons step rest ih =>
      have directory := follow_cons found
      simp only [follow, directory] at found
      simp only [passesBelow]
      split at found
      · rename_i blank
        rw [if_pos blank]
        exact ih found
      · rename_i real
        rw [if_neg real]
        split at found
        · rename_i above
          rw [if_pos above]
          exact ih found
        · rename_i below
          rw [if_neg below]
          split at found
          · contradiction
          · have next : fs.entry? (place ++ [step]) = some .directory := by
              cases rest with
              | nil => exact (Except.ok.inj found).symm ▸ stands
              | cons _ _ => exact follow_cons found
            have outside : within top (place ++ [step]) = false := by
              rw [Bool.eq_false_iff]
              exact fun inside => free _ inside next
            rw [outside, ih found]
            rfl

/-- A path to a place does not pass below it if no directory on the way lies in it. -/
theorem passesBelow_of_way {top place : Location} {steps : List String}
    (way : ∀ first rest, steps = first ++ rest → rest ≠ [] → within top (walk place first) = false)
    (reached : walk place steps = top) : passesBelow top place steps = false := by
  induction steps generalizing place with
  | nil => rfl
  | cons step rest ih =>
      have later {next : Location} (there : walk place [step] = next) (reached : walk next rest = top) :
          passesBelow top next rest = false := by
        refine ih (fun first more whole nonempty => ?_) reached
        rw [← there, ← walk_append]
        exact way (step :: first) more (by rw [whole]; rfl) nonempty
      simp only [passesBelow]
      simp only [walk] at reached
      split at reached
      · rename_i blank
        rw [if_pos blank]
        exact later (by simp [walk, blank]) reached
      · rename_i real
        rw [if_neg real]
        split at reached
        · rename_i above
          rw [if_pos above]
          exact later (by simp [walk, above]) reached
        · rename_i below
          rw [if_neg below]
          have there : walk place [step] = place ++ [step] := by simp [walk, real, below]
          rw [later there reached, Bool.or_false]
          cases rest with
          | nil => simp [show place ++ [step] = top from reached]
          | cons other rest =>
              have outside := way [step] (other :: rest) rfl (List.cons_ne_nil _ _)
              rw [there] at outside
              rw [outside, Bool.false_and]

/-- The directories in which the steps of a path are taken are those on the way to its parent. -/
theorem leads_of_front (here : Location) {path : Path} (clean : path.Clean) (some : path.parts ≠ [])
    (whole : Text.split '/' path.text = first ++ rest) (nonempty : rest ≠ []) :
    path.parent.Leads here (walk (startOf here path.text) first) := by
  obtain ⟨before, steps, blank, start⟩ := Path.split_text here clean some
  rw [start]
  have leads {front : List String} (onWay : front <+: path.parts.dropLast) :
      path.parent.Leads here (walk (path.start here) front) := by
    refine ⟨⟨path.anchor, front⟩, ⟨rfl, onWay⟩, ?_⟩
    have begins : Path.Begins ⟨path.anchor, front⟩ path :=
      ⟨rfl, onWay.trans (List.dropLast_prefix _)⟩
    have clean' := begins.clean clean
    rw [Path.spot_text _ clean']
    rfl
  rw [steps] at whole
  -- the steps before those of the parts are blank
  rcases List.append_eq_append_iff.mp whole with ⟨more, same, parts⟩ | ⟨more, same, -⟩
  · rw [same, walk_append, walk_blanks _ blank]
    apply leads
    rw [parts, List.dropLast_append_of_ne_nil nonempty]
    exact List.prefix_append _ _
  · have blanks : ∀ step ∈ first, step = "" := fun step member => blank step (by simp [same, member])
    rw [walk_blanks _ blanks]
    exact leads (List.nil_prefix)

/-- The path of a place where nothing is does not pass below that place. -/
theorem straight_of_free (sound : fs.Sound) (found : fs.last path = .ok (.name directory name slash))
    (free : fs.entry? (spot fs.here path) = none) :
    passesBelow (spot fs.here path) (startOf fs.here path) (Text.split '/' path) = false := by
  obtain ⟨before, blanks, whole, blank, followed, stands, proper, -, -, -⟩ := last_steps found
  have there := (last_name found).1
  have empty (other : Location) (inside : within (spot fs.here path) other = true) :
      fs.entry? other ≠ some .directory := by
    obtain ⟨rest, rfl⟩ := within_iff.mp inside
    cases rest with
    | nil => simp [free]
    | cons step rest =>
        rw [sound.free_below (by simp [free]) (List.cons_ne_nil step rest)]
        simp
  have behind : passesBelow (spot fs.here path) (directory ++ [name]) blanks = false := by
    clear whole
    induction blanks with
    | nil => rfl
    | cons step blanks ih =>
        obtain rfl := blank step (by simp)
        simp [passesBelow, ih fun other member => blank other (List.mem_cons_of_mem _ member)]
  rw [whole, List.append_assoc, passesBelow_append, passesBelow_of_follow followed stands empty,
    passesBelow_append, ← follow_ok followed, proper.walk, behind]
  simp [passesBelow, proper.nonempty, proper.notSelf, proper.notAbove, there]

/-- An existing directory that a path names without passing below it can be removed with everything
in it. -/
theorem removeTree_of_straight {path : String}
    (found : fs.last path = .ok (.name directory name false))
    (stands : fs.entry? (spot fs.here path) = some .directory)
    (straight : passesBelow (spot fs.here path) (startOf fs.here path) (Text.split '/' path) = false) :
    fs.removeTree path = .ok (fs.withoutTree (spot fs.here path), none) := by
  obtain ⟨there, -, -, located⟩ := last_name found
  have located := (located rfl).1
  rw [← there] at located
  obtain ⟨_, _, _, _, _, _, _, _, _, route⟩ := last_steps found
  have kept : fs.keptDirectory path (spot fs.here path) = .ok none := by
    simp [keptDirectory, bind, Except.bind, route, straight, found]
  simp [removeTree, bind, Except.bind, located, stands, kept]

/-- A file that is there is still there after changes elsewhere that only let the files grow. -/
theorem stat_stays {Z : Location → Prop} {path : String} (grown : fs.Extends Z fs')
    (outside : ¬ Z (spot fs.here path)) (found : fs.stat path = .ok (.file content)) :
    fs'.stat path = .ok (.file content) := by
  obtain ⟨located, stands⟩ := stat_ok found
  have located' := locate_stays grown.here (.of_directories fun _ => grown.directory) located
  have stands' := ((grown.becomes _).file outside content).mpr stands
  exact stat_of_locate located' stands'

/-- What was created is there, and empty. -/
theorem stat_of_create {path : String} (done : fs.create path = .ok fs') :
    fs'.stat path = .ok (.file []) := by
  have grown : fs.Extends (fun _ => True) fs' := create_extends done trivial
  obtain ⟨standing, -, written⟩ := create_ok done
  obtain ⟨step, found, done⟩ := except_bind_eq_ok.mp done
  split at done
  · obtain ⟨same, -, -, located⟩ := last_name found
    have located' := locate_stays grown.here (.of_directories fun _ => grown.directory) (located rfl).1
    rw [← same] at located'
    have stands : fs'.entry? (spot fs.here path) = some (.file []) := by
      rw [written]
      exact entry?_put_self _ standing.below _
    exact stat_of_locate located' stands
  · contradiction
  · contradiction

end Foundry.FileSystem
