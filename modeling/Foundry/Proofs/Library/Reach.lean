import Foundry.Proofs.FileSystem.Reach
import Foundry.Proofs.Library.Drafting
import Foundry.Proofs.Library.Publication

/-! Layouts that can be reached: once the manifest of a library has been written, the paths to its
staging directory and to its layout lead there. -/
namespace Foundry

open FileSystem Run

namespace LibraryWriter

variable {w : LibraryWriter} {s t : Session} {fs fs' : FileSystem} {here top : Location}

/-- The directory in which a library is laid out, as its path is written, and that the paths in it are
no longer than paths may be. -/
structure Reachable (w : LibraryWriter) (fs : FileSystem) : Prop where
  some : w.staging.parts ≠ []
  followed : fs.follow (startOf fs.here w.staging.text) (Text.split '/' w.staging.text) =
    .ok (spot fs.here w.staging.text)
  stands : fs.entry? (spot fs.here w.staging.text) = Option.some .directory
  fits : w.output.name.utf8ByteSize ≤ nameLimit
  short : (w.root.child manifestName).text.utf8ByteSize < pathLimit
  whole : Files.holdsZero (w.root.child manifestName).text = false

theorem text_manifest (some : w.staging.parts ≠ []) (proper : IsName w.output.name) :
    (w.root.child manifestName).text =
      w.staging.text ++ "/" ++ w.output.name ++ "/" ++ manifestName := by
  have manifest : IsName manifestName := by decide
  have parts : w.root.parts ≠ [] := by
    rw [root, Path.child_name proper]
    simp
  rw [Path.text_child parts manifest, root, Path.text_child some proper]

theorem staging_nonempty (clean : w.staging.Clean) (some : w.staging.parts ≠ []) :
    w.staging.text ≠ "" := by
  intro empty
  obtain ⟨before, steps, -, -⟩ := Path.split_text [] clean some
  rw [empty] at steps
  have last : "" ∈ w.staging.parts := by
    obtain ⟨front, last, parts⟩ := List.eq_nil_or_concat w.staging.parts |>.resolve_left some
    rw [parts, List.concat_eq_append, ← List.append_assoc] at steps
    have same := (List.append_inj' (show [] ++ [""] = _ ++ [last] from steps) rfl).2
    rw [parts]
    simp [← List.cons.inj same]
  exact clean.nonempty last

/-- Where the manifest can be found, the directory of the layout can be reached. -/
theorem reachable_of_manifest {place : Location} (clean : w.staging.Clean) (some : w.staging.parts ≠ [])
    (proper : IsName w.output.name) (found : fs.locate (w.root.child manifestName).text = .ok place)
    (whole : Files.holdsZero (w.root.child manifestName).text = false) :
    w.Reachable fs ∧ fs.entry? (w.place fs.here) = Option.some .directory := by
  have manifest : IsName manifestName := by decide
  have text := text_manifest some proper
  obtain ⟨⟨first, onward⟩, route, -⟩ := except_bind_eq_ok.mp found
  obtain ⟨begins, follows⟩ := route_ok route
  rw [begins, follows] at route
  have short := ((route_eq_ok _).mp route).2
  have followed := follow_of_locate found
  have start : startOf fs.here (w.root.child manifestName).text = startOf fs.here w.staging.text := by
    rw [text, String.append_assoc, String.append_assoc, String.append_assoc,
      startOf_append _ (staging_nonempty clean some)]
  have steps : Text.split '/' (w.root.child manifestName).text =
      Text.split '/' w.staging.text ++ [w.output.name, manifestName] := by
    rw [text, Text.split_append, Text.split_append, Text.split_of_not_mem proper.clean,
      Text.split_of_not_mem manifest.clean, List.append_assoc]
    rfl
  rw [start, steps, follow_append] at followed
  obtain ⟨staging, reached, rest⟩ := except_bind_eq_ok.mp followed
  obtain rfl : staging = spot fs.here w.staging.text := follow_ok reached
  have stands := follow_cons rest
  simp only [follow, stands, proper.nonempty, proper.notSelf, or_self, if_false, proper.notAbove] at rest
  split at rest
  · cases rest
  · rename_i fits
    refine ⟨⟨some, reached, stands, Nat.le_of_not_lt fits, short, whole⟩, ?_⟩
    rw [LibraryWriter.place, root, Path.spot_child _ clean proper]
    split at rest
    · cases rest
    · cases rest
    · assumption

namespace Reachable

/-- A file beside the layout can be named, if its name is no longer than that of the manifest. -/
theorem last_child {name : String} (reachable : w.Reachable fs) (clean : w.staging.Clean) (proper : IsName name)
    (fits : name.utf8ByteSize ≤ nameLimit)
    (short : (w.staging.child name).text.utf8ByteSize < pathLimit) :
    fs.last (w.staging.child name).text = .ok (.name (spot fs.here w.staging.text) name false) := by
  have text := Path.text_child reachable.some proper
  have steps : Text.split '/' (w.staging.child name).text = Text.split '/' w.staging.text ++ [name] := by
    rw [text, Text.split_append, Text.split_of_not_mem proper.clean]
  refine last_of_follow short steps ?_ reachable.stands proper fits
  rw [text, String.append_assoc, startOf_append _ (staging_nonempty clean reachable.some)]
  exact reachable.followed

/-- Where the layout can be reached, the last step to the staging directory can be taken. -/
theorem last_staging (reachable : w.Reachable fs) (clean : w.staging.Clean)
    (descends : ".." ∉ Text.split '/' w.staging.text) (short : w.staging.text.utf8ByteSize < pathLimit) :
    ∃ above name, fs.last w.staging.text = .ok (.name above name false) := by
  obtain ⟨before, steps, -, -⟩ := Path.split_text [] clean reachable.some
  obtain ⟨front, last, parts⟩ := (List.eq_nil_or_concat w.staging.parts).resolve_left reachable.some
  rw [List.concat_eq_append] at parts
  have steps' : Text.split '/' w.staging.text = (before ++ front) ++ [last] := by
    rw [steps, parts, List.append_assoc]
  have member : last ∈ w.staging.parts := by simp [parts]
  have proper : IsName last := by
    refine ⟨fun same => clean.nonempty (same ▸ member), fun same => clean.notSelf (same ▸ member),
      fun same => descends ?_, clean.clean last member⟩
    rw [steps', same]
    simp
  have followed := reachable.followed
  rw [steps', follow_append] at followed
  obtain ⟨above, reached, rest⟩ := except_bind_eq_ok.mp followed
  have stands := follow_cons rest
  simp only [follow, stands, proper.nonempty, proper.notSelf, or_self, if_false, proper.notAbove] at rest
  split at rest
  · cases rest
  · rename_i fits
    exact ⟨above, last, last_of_follow short steps' reached stands proper (Nat.le_of_not_lt fits)⟩

/-- Changes beside the way to the layout do not matter. -/
theorem stays {A D : Location → Prop} (reachable : w.Reachable fs)
    (descends : ".." ∉ Text.split '/' w.staging.text) (changed : fs.Changes A D fs')
    (outside : ∀ place, place <+: spot fs.here w.staging.text → ¬ A place) : w.Reachable fs' where
  some := reachable.some
  followed := by
    rw [changed.here]
    exact follow_stays (changed.staysOpen descends outside) reachable.followed
  stands := by
    rw [changed.here]
    exact changed.directory (outside _ (List.prefix_refl _)) reachable.stands
  fits := reachable.fits
  short := reachable.short
  whole := reachable.whole

theorem of_directories (reachable : w.Reachable fs) (same : fs'.here = fs.here)
    (kept : ∀ place, fs.entry? place = Option.some .directory →
      fs'.entry? place = Option.some .directory) : w.Reachable fs' where
  some := reachable.some
  followed := by
    rw [same]
    exact follow_stays (.of_directories kept) reachable.followed
  stands := by
    rw [same]
    exact kept _ reachable.stands
  fits := reachable.fits
  short := reachable.short
  whole := reachable.whole

end Reachable

theorem root_short (reachable : w.Reachable fs) (proper : IsName w.output.name) :
    w.root.text.utf8ByteSize < pathLimit ∧ Files.holdsZero w.root.text = false := by
  have text := text_manifest reachable.some proper
  have short := reachable.short
  have whole := reachable.whole
  rw [root, Path.text_child reachable.some proper]
  rw [text] at short whole
  constructor
  · simp only [String.utf8ByteSize_append] at short ⊢
    omega
  · simp only [Files.holdsZero, String.toList_append, List.contains_eq_mem, List.mem_append,
      decide_eq_false_iff_not, not_or] at whole ⊢
    exact whole.1.1

/-- No path with a zero in it can be published to, and what is there stays. -/
theorem publishTree_zero (unpacked : w.unpacked = true) (whole : Files.holdsZero w.root.text = false)
    (zero : Files.holdsZero w.output.text = true) : w.publish s = .error .zeroInPath s := by
  have looked : Files.lookStrictly w.output.text s = .ok none s := by
    rw [Files.lookStrictly, if_pos zero]
    rfl
  have cleared : clear w.output.text s = .ok () s := by
    rw [clear, bind_of_ok looked]
    rfl
  have unseen : Files.look w.output.text s ≠ .ok (some .directory) s := by
    rw [Files.look_of_lookStrictly looked]
    simp
  have refused : Files.checked w.output.text s = .error .zeroInPath s := by
    rw [Files.checked, if_pos zero]
    rfl
  rw [publish_unpacked unpacked, bind_of_ok cleared]
  refine bind_eq_error.mpr (.inl ?_)
  rw [Files.move_unseen _ unseen, Files.move.go, bind_of_ok (Files.checked_of_whole whole s)]
  exact bind_eq_error.mpr (.inl refused)

/-- The path of the staging directory is no longer than paths may be. -/
theorem staging_short (reachable : w.Reachable fs) (proper : IsName w.output.name) :
    w.staging.text.utf8ByteSize < pathLimit ∧ Files.holdsZero w.staging.text = false := by
  obtain ⟨short, whole⟩ := root_short reachable proper
  rw [root, Path.text_child reachable.some proper] at short whole
  constructor
  · simp only [String.utf8ByteSize_append] at short
    omega
  · simp only [Files.holdsZero, String.toList_append, List.contains_eq_mem, List.mem_append,
      decide_eq_false_iff_not, not_or] at whole ⊢
    exact whole.1.1

end LibraryWriter

end Foundry
