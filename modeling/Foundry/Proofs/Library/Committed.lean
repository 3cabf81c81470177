import Foundry.Proofs.Document.MessagePack
import Foundry.Proofs.Files.Listing
import Foundry.Proofs.Library.Archive
import Foundry.Proofs.Library.Commit
import Foundry.Proofs.Process.History
import Mathlib.Data.List.Infix

/-! What a library is that was committed: the tree that was laid out, with the manifest, as a directory
or packed, and the manifest that is read from it. -/
namespace Foundry

open FileSystem Run

/-- The places that a path leads to are those of the beginnings of its steps. -/
theorem Path.leads_iff_mem {here place : Location} {path : Path} : path.Leads here place ↔
    place ∈ path.parts.inits.map fun parts => spot here (Path.mk path.anchor parts).text := by
  simp only [Leads, Begins, List.mem_map, List.mem_inits]
  constructor
  · rintro ⟨⟨anchor, parts⟩, ⟨rfl, begins⟩, rfl⟩
    exact ⟨parts, begins, rfl⟩
  · rintro ⟨parts, begins, rfl⟩
    exact ⟨⟨path.anchor, parts⟩, ⟨rfl, begins⟩, rfl⟩

/-- A path whose last step can be taken leads to its place, under its own name. -/
theorem FileSystem.locate_of_last {fs : FileSystem} {path : Path} (clean : path.Clean)
    (found : fs.last path.text = .ok (.name directory name slash)) :
    path.parts ≠ [] ∧ path.name = name ∧ fs.locate path.text = .ok (spot fs.here path.text) := by
  obtain ⟨before, blanks, steps, -, -, -, proper, -, closed, -⟩ := last_steps found
  have some : path.parts ≠ [] := by
    intro none
    have member : name ∈ Text.split '/' (Path.mk path.anchor []).text := by
      rw [← none, steps]
      simp
    cases anchor : path.anchor with
    | none =>
        have pieces : Text.split '/' (Path.mk .none []).text = ["."] := by decide
        rw [anchor, pieces, List.mem_singleton] at member
        exact proper.notSelf member
    | root =>
        have pieces : Text.split '/' (Path.mk .root []).text = ["", ""] := by decide
        rw [anchor, pieces] at member
        exact proper.nonempty (by simpa using member)
    | doubleRoot =>
        have pieces : Text.split '/' (Path.mk .doubleRoot []).text = ["", "", ""] := by decide
        rw [anchor, pieces] at member
        exact proper.nonempty (by simpa using member)
  obtain ⟨front, last, parts⟩ := List.eq_nil_or_concat path.parts |>.resolve_left some
  rw [List.concat_eq_append] at parts
  have base := Path.baseName_text clean parts
  have nonempty : last ≠ "" := fun empty => clean.nonempty (by simp [parts, empty])
  have open' : slash = false := by
    rw [Bool.eq_false_iff, Ne, closed, Text.getLast?_split, base, Option.some.injEq]
    exact nonempty
  obtain ⟨there, -, -, located⟩ := last_name found
  obtain ⟨located, named⟩ := located open'
  refine ⟨some, ?_, there ▸ located⟩
  rw [← named, base]
  simp [Path.name, parts]

/-- A path still leads where it led after a change that leaves the directories on its way alone. -/
theorem FileSystem.locate_kept {fs fs' : FileSystem} {path : Path} {place : Location}
    (clean : path.Clean) (nonempty : path.parts ≠ []) (same : fs'.here = fs.here)
    (located : fs.locate path.text = .ok place)
    (kept : ∀ other, path.Leads fs.here other → fs.entry? other = some .directory →
      fs'.entry? other = some .directory) : fs'.locate path.text = .ok place := by
  refine locate_stays same (fun first rest whole more stands => ?_) located
  obtain ⟨first, begins, there⟩ := leads_of_front fs.here clean nonempty whole more
  exact kept _ ⟨first, begins.trans (Path.parent_begins path), there⟩ stands

/-- Where a path leads to a directory, a name in it can be followed. -/
theorem FileSystem.locate_child {fs : FileSystem} {path : Path} {name : String} {place : Location}
    (nonempty : path.parts ≠ []) (proper : IsName name) (fits : name.utf8ByteSize ≤ nameLimit)
    (short : (path.child name).text.utf8ByteSize < pathLimit) (located : fs.locate path.text = .ok place)
    (stands : fs.entry? place = some .directory) :
    fs.locate (path.child name).text = .ok (place ++ [name]) := by
  have text := Path.text_child nonempty proper
  obtain ⟨⟨start, steps⟩, route, -⟩ := except_bind_eq_ok.mp located
  obtain ⟨rfl, rfl⟩ := route_ok route
  have some := ((route_eq_ok _).mp route).1
  have split : Text.split '/' (path.child name).text = Text.split '/' path.text ++ [name] := by
    rw [text, Text.split_append, Text.split_of_not_mem proper.clean]
  have followed := follow_of_locate located
  rw [← startOf_append _ some ("/" ++ name), ← String.append_assoc, ← text] at followed
  exact ((last_name (last_of_follow short split followed stands proper fits)).2.2.2 rfl).1

namespace LibraryWriter

variable {w : LibraryWriter} {s t : Session} {here : Location}

/-- What is published of a library, by the steps from its root: what is laid out, with the manifest. An
archive is never part of itself. -/
def published (w : LibraryWriter) (fs : FileSystem) (manifest : Bytes) (steps : Location) :
    Option Entry :=
  if w.place fs.here ++ steps = spot fs.here w.archivePath.text then none
  else if steps = [manifestName] then some (.file manifest)
  else fs.entry? (w.place fs.here ++ steps)

/-- Where the layout is dropped: the staging directory of the library's own, or else the layout. -/
def dropped (w : LibraryWriter) (here : Location) : Location :=
  if w.ownsStaging then spot here w.staging.text else w.place here

/-- What is published at a path is not dropped with the layout: the path does not lead through what is
dropped, nor to the archive that is made beside the layout. -/
structure Outlives (w : LibraryWriter) (here : Location) (path : Path) : Prop where
  way : ∀ place, path.Leads here place → within (w.dropped here) place = false
  apart : w.unpacked = false → w.ownsStaging = false →
    spot here path.text ≠ spot here w.archivePath.text

/-- Dropping the layout changes nothing but what is dropped and the archive beside it. -/
theorem discard_keeps (ran : w.discard s = .ok u t) :
    t.files.here = s.files.here ∧ ∀ place, within (w.dropped s.files.here) place = false →
      (s.files.entry? place = some .directory → t.files.entry? place = some .directory) ∧
      ((w.ownsStaging = false → place ≠ spot s.files.here w.archivePath.text) →
        t.files.entry? place = s.files.entry? place) := by
  unfold discard at ran
  cases owned : w.ownsStaging with
  | true =>
      rw [owned, if_pos rfl] at ran
      obtain ⟨here, kept⟩ := Files.discardTree_outside ran
      refine ⟨here, fun place outside => ?_⟩
      rw [dropped, owned, if_pos rfl] at outside
      rw [kept place outside]
      exact ⟨id, fun _ => rfl⟩
  | false =>
      rw [owned, if_neg Bool.false_ne_true] at ran
      obtain ⟨_, a, dropping, rest⟩ := bind_eq_ok.mp ran
      obtain ⟨packed, b, naming, discarding⟩ := bind_eq_ok.mp rest
      obtain ⟨rfl, named⟩ := packedPath_ok naming
      obtain ⟨here, kept⟩ := Files.discardTree_outside dropping
      obtain ⟨here', pruned⟩ := Files.discardFile_prunes discarding
      refine ⟨here'.trans here, fun place outside => ?_⟩
      rw [dropped, owned, if_neg Bool.false_ne_true] at outside
      rw [← kept place outside]
      rw [here, named] at pruned
      rcases pruned place with same | ⟨archive, gone, notDirectory⟩
      · rw [same]
        exact ⟨id, fun _ => rfl⟩
      · exact ⟨fun directory => absurd directory notDirectory,
          fun other => absurd archive (other rfl)⟩

/-- Writing the manifest puts one file into the layout, which is there. -/
theorem writeManifest_puts {manifest : Bytes} (clean : w.staging.Clean)
    (ran : w.writeFile (w.root.child manifestName) manifest s = .ok u t) :
    t.files.here = s.files.here ∧ s.files.entry? (w.place s.files.here) = some .directory ∧
      (∀ place, t.files.entry? place =
        if place = w.place s.files.here ++ [manifestName] then some (.file manifest)
        else s.files.entry? place) ∧
      (∀ place, t.files.entry? place = some .directory ↔ s.files.entry? place = some .directory) ∧
      (s.files.Regular → manifest.length < twoTo 63 → t.files.Regular) := by
  have proper : IsName manifestName := by decide
  have whole := Files.change_whole (reporting_ok ran)
  obtain ⟨fs, done, ended⟩ := Files.change_ok (reporting_ok ran)
  obtain ⟨standing, free, put⟩ := write_ok done
  have there : spot s.files.here (w.root.child manifestName).text =
      w.place s.files.here ++ [manifestName] := Path.spot_child _ (root_clean clean) proper
  rw [there] at standing free put
  have files : t.files = fs := by rw [ended]
  have entries (place : Location) : t.files.entry? place =
      if place = w.place s.files.here ++ [manifestName] then some (.file manifest)
      else s.files.entry? place := by
    rw [files, put, entry?_put _ standing.below]
  refine ⟨by rw [files, put]; rfl, by simpa using standing.inDirectory, entries, fun place => ?_,
    fun regular small => files ▸ regular.write whole small done⟩
  rw [entries]
  split
  · rename_i same
    rw [same]
    exact iff_of_false (by simp) free
  · rfl

/-- The manifest lies apart from the archive. -/
theorem manifest_ne_archive (clean : w.staging.Clean) (clean' : w.output.Clean) :
    w.place here ++ [manifestName] ≠ spot here w.archivePath.text := by
  intro same
  rw [archivePath, Path.spot_child here clean (archiveName_isName (Path.name_clean clean').1)] at same
  have last := (List.cons.inj (List.append_inj' same rfl).2).1
  have letter := congrArg (fun text => text.toList.getLast?) last
  simp [manifestName, librarySuffix] at letter

theorem archiveName_ne (w : LibraryWriter) : w.output.name ≠ w.output.name ++ librarySuffix := by
  intro same
  have length := congrArg String.length same
  simp [librarySuffix] at length

/-- The archive stands beside the layout. -/
theorem archive_ne_layout (clean : w.staging.Clean) (proper : IsName w.output.name) (here steps : Location) :
    w.place here ++ steps ≠ spot here w.archivePath.text := by
  rw [place, root, archivePath, Path.spot_child _ clean proper,
    Path.spot_child _ clean (archiveName_isName proper.clean), List.append_assoc, Ne,
    List.append_right_inj]
  intro same
  exact archiveName_ne w (List.cons.inj same).1

/-- The archive is no part of what is published under the name of the library elsewhere. -/
theorem archive_ne_output (clean : w.staging.Clean) (proper : IsName w.output.name)
    (there : spot here w.output.text = above ++ [w.output.name])
    (apart : within (spot here w.output.text) (spot here w.staging.text) = false) (steps : Location) :
    spot here w.output.text ++ steps ≠ spot here w.archivePath.text := by
  rw [archivePath, Path.spot_child _ clean (archiveName_isName proper.clean)]
  rcases List.eq_nil_or_concat steps with rfl | ⟨front, last, rfl⟩
  · rw [there, List.append_nil]
    intro same
    exact archiveName_ne w (List.cons.inj (List.append_inj' same rfl).2).1
  · rw [List.concat_eq_append, ← List.append_assoc]
    intro same
    have staging := (List.append_inj' same rfl).1
    exact Bool.eq_false_iff.mp apart (staging ▸ within_append _ _)

/-- A library with a proper name is laid out in what is dropped. -/
theorem within_dropped (clean : w.staging.Clean) (proper : IsName w.output.name) (rest : Location) :
    within (w.dropped here) (w.place here ++ rest) = true := by
  unfold dropped
  split
  · rw [place, root, Path.spot_child here clean proper, List.append_assoc]
    exact within_append _ _
  · exact within_append _ _

section Tree
variable (clean : w.staging.Clean) (clean' : w.output.Clean) (sound : s.files.Sound)
  (unpacked : w.unpacked = true)
  (outlives : w.Outlives s.files.here path)
include clean clean' sound unpacked outlives

/-- A library that is published as a directory is at its new place as it was laid out, which is not below
that place. -/
theorem publishTree_tree (stands : s.files.entry? (w.place s.files.here) = some .directory)
    (ran : w.publish s = .ok path t) :
    path = w.output ∧ IsName w.output.name ∧ Files.holdsZero path.text = false ∧ path.parts ≠ [] ∧
      t.files.here = s.files.here ∧ t.files.locate path.text = .ok (spot s.files.here path.text) ∧
      (∃ above, spot s.files.here path.text = above ++ [w.output.name]) ∧
      within (spot s.files.here path.text) (w.place s.files.here) = false ∧
      ∀ steps, t.files.entry? (spot s.files.here path.text ++ steps) =
        s.files.entry? (w.place s.files.here ++ steps) := by
  obtain ⟨rfl, whole, cleared, fs, here, sound', kept, grown, done, apart⟩ :=
    publishTree_moves stands unpacked ran
  have here' : fs.here = s.files.here := grown.here.trans here
  obtain ⟨directory, name, slash, found⟩ := rename_last done
  obtain ⟨nonempty, named, located⟩ := locate_of_last clean' found
  obtain ⟨there, -, isName, -⟩ := last_name found
  have proper : IsName w.output.name := named ▸ isName
  obtain ⟨here'', moved, -⟩ := rename_moves done
  rw [← here'] at apart
  obtain ⟨notInside, notAbove, -⟩ := rename_leaves done apart
  rw [here'] at here'' moved notInside notAbove located there
  -- the way to the new place does not lead through the layout, so moving that does not cut it off
  have onWay {place : Location} (leads : w.output.Leads s.files.here place) :
      within (w.place s.files.here) place = false := by
    have inside : within (w.dropped s.files.here) (w.place s.files.here ++ []) = true :=
      within_dropped clean proper []
    rw [List.append_nil] at inside
    rw [Bool.eq_false_iff]
    exact fun below => Bool.eq_false_iff.mp (outlives.way _ leads) (within_trans inside below)
  refine ⟨rfl, proper, whole, nonempty, here'', ?_, ⟨directory, named ▸ there⟩, notAbove, fun steps => ?_⟩
  · refine locate_kept clean' nonempty (here''.trans here'.symm) located fun place leads stands => ?_
    rw [here'] at leads
    refine rename_keeps (grown.sound (sound' sound)) done stands ?_
    rw [here']
    exact onWay leads
  · rw [moved]
    have same : fs.entry? (w.place s.files.here ++ steps) =
        cleared.entry? (w.place s.files.here ++ steps) := by
      refine (grown.changes.places _ fun impossible => impossible).resolve_right fun made => ?_
      have leads := made.1
      rw [Path.ofText_text clean'] at leads
      exact Bool.eq_false_iff.mp (onWay leads) (within_append _ _)
    refine same.trans ((kept _).resolve_right fun gone => ?_)
    exact Bool.eq_false_iff.mp (within_append_false notAbove notInside steps) gone.2

/-- A library that is published as a directory is the tree of its layout, with the manifest. -/
theorem commit_tree (ran : w.commit s = .ok path t) :
    ∃ manifest, MessagePack.pack (.table w.manifest) = .ok manifest ∧
      t.files.here = s.files.here ∧ path.parts ≠ [] ∧ Files.holdsZero path.text = false ∧
      t.files.locate path.text = .ok (spot s.files.here path.text) ∧
      w.published s.files manifest [] = some .directory ∧
      ∀ steps, t.files.entry? (spot s.files.here path.text ++ steps) =
        w.published s.files manifest steps := by
  obtain ⟨manifest, a, packing, rest₁⟩ := bind_eq_ok.mp ran
  obtain ⟨_, m, writing, rest₂⟩ := bind_eq_ok.mp rest₁
  obtain ⟨packed, rfl⟩ := packedManifest_ok packing
  obtain ⟨here, laid, entries, directories, -⟩ := writeManifest_puts clean writing
  have sound' : m.files.Sound := by
    obtain ⟨fs, done, ended⟩ := Files.change_ok (reporting_ok writing)
    have grown : a.files.Extends (fun _ => True) m.files := ended ▸ write_extends done trivial
    exact grown.sound sound
  obtain ⟨n, publishing, discarding⟩ := ensuring_ok rest₂
  have stands : m.files.entry? (w.place m.files.here) = some .directory :=
    (directories _).mpr (here ▸ laid)
  obtain ⟨rfl, proper, whole, nonempty, here', located, ⟨above, there⟩, notAbove, moved⟩ :=
    publishTree_tree clean clean' sound' unpacked (here ▸ outlives) stands (reporting_ok publishing)
  rw [here] at here' located there notAbove moved
  obtain ⟨here'', left⟩ := discard_keeps discarding
  rw [here'] at here'' left
  have root : w.place a.files.here = spot a.files.here w.staging.text ++ [w.output.name] :=
    Path.spot_child _ clean proper
  have notStaging : within (spot a.files.here w.output.text) (spot a.files.here w.staging.text) = false := by
    rw [Bool.eq_false_iff] at notAbove ⊢
    intro inside
    exact notAbove (within_trans inside (root ▸ within_append _ _))
  -- the archive that is dropped lies neither in the layout nor in what is published
  have beside := archive_ne_layout clean proper a.files.here
  have apart := archive_ne_output clean proper there notStaging
  have outside (steps : Location) :
      within (w.dropped a.files.here) (spot a.files.here w.output.text ++ steps) = false := by
    refine within_append_false (outlives.way _ ⟨w.output, .refl _, rfl⟩) ?_ steps
    unfold dropped
    split
    · exact notStaging
    · exact notAbove
  have kept (steps : Location) : t.files.entry? (spot a.files.here w.output.text ++ steps) =
      w.published a.files manifest steps := by
    rw [(left _ (outside steps)).2 fun _ => apart steps, moved, entries, published, if_neg (beside steps)]
    simp only [List.append_right_inj]
  refine ⟨manifest, packed, here'', nonempty, whole, ?_, ?_, kept⟩
  · refine locate_kept clean' nonempty (here''.trans here'.symm) located fun place leads stands => ?_
    rw [here'] at leads
    exact (left _ (outlives.way _ leads)).1 stands
  · rw [published, if_neg (beside []), if_neg (by simp), List.append_nil]
    exact laid

end Tree

section Archive
variable (clean : w.staging.Clean) (clean' : w.output.Clean) (regular : s.files.Regular)
include clean clean' regular

omit regular in
/-- The name of the archive is that of a file, so the name of the library is short enough for items. -/
theorem output_fits {bytes : Bytes} (whole : Files.holdsZero w.archivePath.text = false)
    (done : s.files.write w.archivePath.text bytes = .ok fs) :
    w.output.name.utf8ByteSize < pathLimit ∧ '\x00' ∉ w.output.name.toList := by
  obtain ⟨slashless, -⟩ := Path.name_clean clean'
  constructor
  · have fits := archiveName_fits clean slashless done
    have limits : nameLimit < pathLimit := by decide
    rw [String.utf8ByteSize_append] at fits
    omega
  · intro zero
    have piece : Text.baseName w.archivePath.text ∈ Text.split '/' w.archivePath.text :=
      List.mem_of_getLast? (Text.getLast?_split _)
    refine Files.not_mem_of_holdsZero whole ((Text.sublist_of_mem_split piece).subset ?_)
    rw [baseName_archivePath clean slashless]
    simp [zero]

/-- Packing makes an archive that holds all of the layout but itself, each entry once. -/
theorem pack_items (ran : w.pack w.archivePath s = .ok u t) :
    ∃ items, t.files.Sound ∧ t.files.here = s.files.here ∧
      t.files.entry? (spot s.files.here w.archivePath.text) = some (.file (Packed.write items)) ∧
      (∀ place, place ≠ spot s.files.here w.archivePath.text →
        t.files.entry? place = s.files.entry? place) ∧
      (∀ place, t.files.entry? place = some .directory ↔ s.files.entry? place = some .directory) ∧
      (∀ item ∈ items, item.Storable) ∧ (items.map (·.name)).Nodup ∧
      ∀ item, item ∈ items ↔ ∃ steps entry,
        w.place s.files.here ++ steps ≠ spot s.files.here w.archivePath.text ∧
        s.files.entry? (w.place s.files.here ++ steps) = some entry ∧
        item = ⟨itemName w.output.name steps, entry.content?⟩ := by
  obtain ⟨slashless, -⟩ := Path.name_clean clean'
  obtain ⟨emptied, items, done, listed, done', whole⟩ := pack_done ran
  have regular' : emptied.Regular := regular.write whole (by decide) done
  obtain ⟨standing, free, put⟩ := write_ok done
  obtain ⟨standing', -, put'⟩ := write_ok done'
  have here : emptied.here = s.files.here := by rw [put]; rfl
  rw [here] at standing' put'
  have aside : emptied.entry? (spot emptied.here w.archivePath.text) ≠ some .directory := by
    rw [here, put, entry?_put_self _ standing.below]
    nofun
  have other {place : Location} (different : place ≠ spot s.files.here w.archivePath.text) :
      emptied.entry? place = s.files.entry? place := by
    rw [put, entry?_put_of_ne _ different]
  have grown : emptied.Extends (fun _ => True) t.files := write_extends done' trivial
  obtain ⟨short, whole'⟩ := output_fits clean clean' whole done
  refine ⟨items, grown.sound regular'.toSound, by rw [put']; exact here,
    by rw [put', entry?_put_self _ standing'.below], fun place different => ?_, fun place => ?_,
    storable_items regular' aside slashless whole' short listed,
    nodup_items regular'.toSound aside regular'.distinct listed, fun item => ?_⟩
  · rw [put', entry?_put_of_ne _ different, other different]
  · by_cases same : place = spot s.files.here w.archivePath.text
    · rw [put', same, entry?_put_self _ standing'.below]
      exact iff_of_false (by simp) free
    · rw [put', entry?_put_of_ne _ same, other same]
  · rw [mem_items regular'.toSound aside listed, here]
    refine exists_congr fun steps => exists_congr fun entry => and_congr_right fun different => ?_
    rw [other different]
    rfl

omit clean clean' regular in
theorem publishArchive_steps (packed : w.unpacked = false) (ran : w.publish s = .ok path t) :
    ∃ m, w.packedPath s = .ok path s ∧ w.pack w.archivePath s = .ok () m ∧
      Files.move w.archivePath.text path.text m = .ok () t := by
  unfold publish at ran
  rw [packed] at ran
  obtain ⟨target, a, naming, rest₁⟩ := bind_eq_ok.mp ran
  obtain ⟨rfl, named⟩ := packedPath_ok naming
  obtain ⟨_, m, packing, rest₂⟩ := bind_eq_ok.mp rest₁
  obtain ⟨_, n, moving, given⟩ := bind_eq_ok.mp rest₂
  obtain ⟨rfl, rfl⟩ := pure_eq_ok.mp given
  have archive : w.staging.child target.name = w.archivePath := by rw [named, archivePath]
  rw [archive] at packing moving
  exact ⟨m, naming, packing, moving⟩

/-- A library that is packed is published as an archive of its layout, where no directory is. -/
theorem publishArchive_items (packed : w.unpacked = false)
    (free : s.files.entry? (spot s.files.here path.text) ≠ some .directory)
    (ran : w.publish s = .ok path t) :
    ∃ items, (IsName w.output.name ∨ w.output.name = "..") ∧
      path.Clean ∧ path.parts ≠ [] ∧ Files.holdsZero path.text = false ∧
      t.files.here = s.files.here ∧ t.files.locate path.text = .ok (spot s.files.here path.text) ∧
      t.files.entry? (spot s.files.here path.text) = some (.file (Packed.write items)) ∧
      (∀ place, t.files.entry? place = some .directory ↔ s.files.entry? place = some .directory) ∧
      (∀ item ∈ items, item.Storable) ∧ (items.map (·.name)).Nodup ∧
      ∀ item, item ∈ items ↔ ∃ steps entry,
        w.place s.files.here ++ steps ≠ spot s.files.here w.archivePath.text ∧
        s.files.entry? (w.place s.files.here ++ steps) = some entry ∧
        item = ⟨itemName w.output.name steps, entry.content?⟩ := by
  obtain ⟨slashless, notSelf⟩ := Path.name_clean clean'
  obtain ⟨m, naming, packing, moving⟩ := publishArchive_steps packed ran
  obtain ⟨names, -⟩ := packedPath_eq_ok.mp naming
  obtain ⟨nonempty, -⟩ := packedPath?_eq_some names
  have cleanPath := packedPath?_clean clean' names
  obtain ⟨items, sound, here, file, -, directories, storable, distinct, members⟩ :=
    pack_items clean clean' regular packing
  rw [← here] at file free
  rw [Ne, ← directories] at free
  obtain ⟨place, reached, unseen, going⟩ | ⟨e, v, failed, -⟩ :=
    Files.move_of_file path.text file
  · obtain rfl : place = path.text := reached.resolve_right fun into => free into.1
    rw [going] at moving
    obtain ⟨first, last, slash, found⟩ := Files.go_last file unseen moving
    obtain ⟨some, -, located⟩ := locate_of_last cleanPath found
    obtain ⟨here', there, -, -⟩ := Files.go_file file unseen moving
    obtain ⟨-, directories'⟩ := Files.moveFile_directories sound file (going ▸ moving)
    refine ⟨items, ?_, cleanPath, some, (Files.go_ok moving).1, here'.trans here, ?_, ?_,
      fun place => (directories' place).trans (directories place), storable, distinct, members⟩
    · by_cases above : w.output.name = ".."
      · exact .inr above
      · exact .inl ⟨nonempty, notSelf, above, slashless⟩
    · rw [here] at located
      exact locate_kept cleanPath some here' located fun place _ => (directories' place).mpr
    · rw [← here]
      exact file?_eq_some.mp there
  · rw [failed] at moving
    nomatch moving

/-- A library that is packed is an archive of its layout, with the manifest. -/
theorem commit_archive (packed : w.unpacked = false) (outlives : w.Outlives s.files.here path)
    (free : s.files.entry? (spot s.files.here path.text) ≠ some .directory)
    (fits : ∀ bytes, MessagePack.pack (.table w.manifest) = .ok bytes → bytes.length < twoTo 63)
    (ran : w.commit s = .ok path t) :
    ∃ manifest items, MessagePack.pack (.table w.manifest) = .ok manifest ∧
      (IsName w.output.name ∨ w.output.name = "..") ∧
      t.files.here = s.files.here ∧ Files.holdsZero path.text = false ∧
      t.files.locate path.text = .ok (spot s.files.here path.text) ∧
      t.files.entry? (spot s.files.here path.text) = some (.file (Packed.write items)) ∧
      (∀ item ∈ items, item.Storable) ∧ (items.map (·.name)).Nodup ∧
      ∀ item, item ∈ items ↔ ∃ steps entry, w.published s.files manifest steps = some entry ∧
        item = ⟨itemName w.output.name steps, entry.content?⟩ := by
  obtain ⟨manifest, a, packing, rest₁⟩ := bind_eq_ok.mp ran
  obtain ⟨_, m, writing, rest₂⟩ := bind_eq_ok.mp rest₁
  obtain ⟨packed', rfl⟩ := packedManifest_ok packing
  obtain ⟨here, -, entries, directories, regular'⟩ := writeManifest_puts clean writing
  have regular' := regular' regular (fits manifest packed')
  obtain ⟨n, publishing, discarding⟩ := ensuring_ok rest₂
  rw [← here, Ne, ← directories] at free
  obtain ⟨items, name, cleanPath, some, whole, here', located, file, directories', storable, distinct, members⟩ :=
    publishArchive_items clean clean' regular' packed free (reporting_ok publishing)
  rw [here] at here' located file members
  obtain ⟨here'', left⟩ := discard_keeps discarding
  rw [here'] at here'' left
  have outside : within (w.dropped a.files.here) (spot a.files.here path.text) = false :=
    outlives.way _ ⟨path, .refl _, rfl⟩
  refine ⟨manifest, items, packed', name, here'', whole, ?_, ?_, storable, distinct, fun item => ?_⟩
  · refine locate_kept cleanPath some (here''.trans here'.symm) located fun place leads stands => ?_
    rw [here'] at leads
    exact (left _ (outlives.way _ leads)).1 stands
  · rw [(left _ outside).2 (outlives.apart packed), file]
  · rw [members]
    refine exists_congr fun steps => exists_congr fun entry => ?_
    rw [published, entries]
    simp only [List.append_right_inj]
    by_cases same : w.place a.files.here ++ steps = spot a.files.here w.archivePath.text
    · simp [same]
    · simp [same]

/-- A directory that stands where a packed library is published stays there. -/
theorem commit_directory (packed : w.unpacked = false) (outlives : w.Outlives s.files.here path)
    (fits : ∀ bytes, MessagePack.pack (.table w.manifest) = .ok bytes → bytes.length < twoTo 63)
    (stands : s.files.entry? (spot s.files.here path.text) = some .directory)
    (ran : w.commit s = .ok path t) :
    t.files.here = s.files.here ∧ t.files.entry? (spot s.files.here path.text) = some .directory := by
  obtain ⟨manifest, a, packing, rest₁⟩ := bind_eq_ok.mp ran
  obtain ⟨_, m, writing, rest₂⟩ := bind_eq_ok.mp rest₁
  obtain ⟨packed', rfl⟩ := packedManifest_ok packing
  obtain ⟨here, -, -, directories, regular'⟩ := writeManifest_puts clean writing
  obtain ⟨n, publishing, discarding⟩ := ensuring_ok rest₂
  obtain ⟨k, -, packing', moving⟩ := publishArchive_steps packed (reporting_ok publishing)
  obtain ⟨items, sound, here', file, -, directories', -⟩ :=
    pack_items clean clean' (regular' regular (fits manifest packed')) packing'
  obtain ⟨here'', directories''⟩ := Files.moveFile_directories sound (here' ▸ file) moving
  obtain ⟨here₃, left⟩ := discard_keeps discarding
  rw [here'', here', here] at here₃ left
  refine ⟨here₃, (left _ (outlives.way _ ⟨path, .refl _, rfl⟩)).1 ?_⟩
  rw [directories'', directories', directories]
  exact stands

end Archive

/-- The library stands at a path as the tree `held`: as that directory, or packed with each entry once,
under its own name. -/
inductive Committed (w : LibraryWriter) (fs : FileSystem) (path : Path) (held : Location → Option Entry) :
    Prop where
  | directory : w.unpacked = true → fs.stat path.text = .ok .directory →
      (∀ steps, fs.entry? (spot fs.here path.text ++ steps) = held steps) → Committed w fs path held
  | archive (content : Bytes) (items : List Tar.Item) : w.unpacked = false →
      fs.stat path.text = .ok (.file content) → Packed.read? content = some items →
      (items.map (·.name)).Nodup →
      (∀ item, item ∈ items ↔ ∃ steps entry, held steps = some entry ∧
        item = ⟨itemName w.output.name steps, entry.content?⟩) → Committed w fs path held

section Commit
variable (clean : w.staging.Clean) (clean' : w.output.Clean) (regular : s.files.Regular)
  (fits : ∀ bytes, MessagePack.pack (.table w.manifest) = .ok bytes → bytes.length < twoTo 63)
  (outlives : w.Outlives s.files.here path)
include clean clean' regular fits outlives

/-- Committing publishes exactly what was laid out, with the manifest, whatever was there before and in
both modes the same tree, unless a packed library is moved into a directory that stands at its path; and
what is published is not dropped with the layout. -/
theorem commit_publishes_iff (ran : w.commit s = .ok path t) :
    ∃ manifest, MessagePack.pack (.table w.manifest) = .ok manifest ∧
      (w.Committed t.files path (w.published s.files manifest) ↔
        (w.unpacked = false → s.files.entry? (spot s.files.here path.text) ≠ some .directory)) := by
  cases unpacked : w.unpacked with
  | true =>
      obtain ⟨manifest, packed, here, -, -, located, top, tree⟩ :=
        commit_tree clean clean' regular.toSound unpacked outlives ran
      have stands := (tree []).trans top
      rw [List.append_nil] at stands
      exact ⟨manifest, packed, iff_of_true
        (.directory unpacked (stat_of_locate located stands) (here ▸ tree)) (fun impossible => nomatch impossible)⟩
  | false =>
      by_cases taken : s.files.entry? (spot s.files.here path.text) = some .directory
      · obtain ⟨manifest, a, packing, -⟩ := bind_eq_ok.mp ran
        obtain ⟨packed, rfl⟩ := packedManifest_ok packing
        obtain ⟨here, stands⟩ := commit_directory clean clean' regular unpacked outlives fits taken ran
        refine ⟨manifest, packed, iff_of_false (fun committed => ?_) fun free => free rfl taken⟩
        cases committed with
        | directory impossible => exact absurd (unpacked.symm.trans impossible) (by simp)
        | archive content items _ status =>
            have file := (stat_ok status).2
            rw [here, stands] at file
            nomatch file
      · obtain ⟨manifest, items, packed, -, -, -, located, stands, storable, distinct, members⟩ :=
          commit_archive clean clean' regular unpacked outlives taken fits ran
        exact ⟨manifest, packed, iff_of_true (.archive _ items unpacked
          (stat_of_locate located stands) (Packed.read?_write storable) distinct members) fun _ => taken⟩

end Commit

section OverOldLibrary

/-- A library that is to replace an older one as a directory. -/
def replacement : LibraryWriter where
  output := .ofText "/w/lib"
  name := "lib"
  target := .linuxX64
  abiVersion := 1
  unpacked := true
  ownsStaging := false
  staging := .ofText "/s"

/-- A session in which the library is laid out and the older one stands. -/
def withReplacement : Session :=
  { Session.blank with files := { entries := [(["s"], .directory), (["s", "lib"], .directory),
      (["s", "lib", "new"], .file [1]), (["w"], .directory), (["w", "lib"], .directory),
      (["w", "lib", "old"], .file [2])] } }

theorem replacement_committed :
    replacement.commit.outcome? (fun _ => ()) withReplacement = some (replacement.output, ()) := by
  decide +kernel

theorem withReplacement_regular : withReplacement.files.Regular := by
  refine .of_entries (Sound.of_entries (by decide) (by decide)) (by decide) (by decide)
    fun entry member content same => ?_
  have short : ∀ entry ∈ withReplacement.files.entries, (entry.2.content?.getD []).length < twoTo 63 := by
    decide
  have fits := short entry member
  rw [same] at fits
  exact fits

theorem replacement_fits (bytes : Bytes)
    (packed : MessagePack.pack (.table replacement.manifest) = .ok bytes) : bytes.length < twoTo 63 := by
  have small : (MessagePack.pack (.table replacement.manifest)).toOption.map
      (fun bytes => decide (bytes.length < twoTo 63)) = some true := by
    decide +kernel
  rw [packed] at small
  simpa [Except.toOption] using small

theorem replacement_outlives : replacement.Outlives withReplacement.files.here replacement.output := by
  refine ⟨fun place leads => ?_, nofun⟩
  have outside : ∀ place ∈ replacement.output.parts.inits.map fun parts =>
      spot [] (Path.mk replacement.output.anchor parts).text,
      within (replacement.dropped []) place = false := by decide
  exact outside place (Path.leads_iff_mem.mp leads)

end OverOldLibrary

/-- A library takes the place of an older one, of which nothing is left. -/
theorem replacement_publishes : ∃ t manifest, replacement.commit withReplacement = .ok replacement.output t ∧
    MessagePack.pack (.table replacement.manifest) = .ok manifest ∧
    replacement.Committed t.files replacement.output
      (replacement.published withReplacement.files manifest) := by
  obtain ⟨t, ran, -⟩ := Run.outcome?_eq_some.mp replacement_committed
  obtain ⟨manifest, packed, committed⟩ := commit_publishes_iff (Path.ofText_clean _) (Path.ofText_clean _)
    withReplacement_regular replacement_fits replacement_outlives ran
  exact ⟨t, manifest, ran, packed, committed.mpr nofun⟩

/-- A session with a directory for staging. -/
def withShelf : Session :=
  { Session.blank with files := { entries := [(["s"], .directory)] } }

/-- A library for Linux is laid out in that directory and packed. What stood before at the path that is
returned is returned too. -/
def packOnShelf (output : String) : Run (Option Entry × Path) := do
  let w ← start output "lib" .linuxX64 1 false (some "/s")
  let before ← Files.current
  let path ← w.commit
  pure (before.entry? (spot before.here path.text), path)

theorem packOnShelf_ok {output : String} {look : Session → β}
    (ran : (packOnShelf output).outcome? look withShelf = some ((stood, path), seen)) :
    ∃ w s t, start output "lib" .linuxX64 1 false (some "/s") withShelf = .ok w s ∧
      s.files.entry? (spot s.files.here path.text) = stood ∧ w.commit s = .ok path t ∧
      look t = seen := by
  obtain ⟨t, ran, same⟩ := Run.outcome?_eq_some.mp ran
  obtain ⟨w, s, started, ran⟩ := bind_eq_ok.mp ran
  obtain ⟨before, u, found, ran⟩ := bind_eq_ok.mp ran
  obtain ⟨rfl, rfl⟩ := Files.current_ok.mp found
  obtain ⟨p, v, committed, ran⟩ := bind_eq_ok.mp ran
  obtain ⟨pair, rfl⟩ := pure_eq_ok.mp ran
  obtain ⟨rfl, rfl⟩ := Prod.mk.inj pair
  exact ⟨w, _, _, started, rfl, committed, same⟩

theorem packed_besideLayout : (packOnShelf "/s/lib").outcome?
    (fun t => t.files.entry? (spot t.files.here "/s/lib.klib")) withShelf =
    some ((none, .ofText "/s/lib.klib"), none) := by
  decide +kernel

/-- Where a library is packed in the directory in which it is published, nothing is left at the path
that is returned. -/
theorem published_and_dropped : ∃ w s t,
    start "/s/lib" "lib" .linuxX64 1 false (some "/s") withShelf = .ok w s ∧
      w.commit s = .ok (.ofText "/s/lib.klib") t ∧
      t.files.entry? (spot t.files.here "/s/lib.klib") = none := by
  obtain ⟨w, s, t, started, -, committed, gone⟩ := packOnShelf_ok packed_besideLayout
  exact ⟨w, s, t, started, committed, gone⟩

theorem manifest_plain (plain : (Value.table w.properties).Plain) : (Value.table w.manifest).Plain := by
  have texts (names : List String) : (Value.array (names.map .text)).Plain := by
    refine .array _ fun item member => ?_
    obtain ⟨name, -, rfl⟩ := List.mem_map.mp member
    exact .text name
  refine .table _ (by simp [manifest, Table.keys]) fun entry member => ?_
  simp only [manifest, List.mem_cons, List.not_mem_nil, or_false] at member
  rcases member with rfl | rfl | rfl | rfl | rfl | rfl | rfl
  · exact .text _
  · exact .int _
  · exact .text _
  · exact .text _
  · exact texts _
  · exact texts _
  · exact plain

theorem unpack_manifest (plain : (Value.table w.properties).Plain) {manifest : Bytes}
    (packed : MessagePack.pack (.table w.manifest) = .ok manifest) (s : Session) :
    Manifest.unpack manifest s = .ok (.table w.manifest) s := by
  rw [Manifest.unpack, MessagePack.unpack?_pack (manifest_plain plain) packed]
  rfl

theorem published_manifest (clean : w.staging.Clean) (clean' : w.output.Clean) (fs : FileSystem)
    (manifest : Bytes) : w.published fs manifest [manifestName] = some (.file manifest) := by
  rw [published, if_neg (manifest_ne_archive clean clean'), if_pos rfl]

theorem published_proper {manifest : Bytes} {steps : Location} {entry : Entry}
    (regular : s.files.Regular) (held : w.published s.files manifest steps = some entry) :
    Proper steps := by
  unfold published at held
  split at held
  · cases held
  · split at held
    · rename_i same
      have proper : Proper [manifestName] := by decide
      exact same ▸ proper
    · exact fun step member => regular.proper _ (Option.isSome_of_eq_some held) step
        (List.mem_append_right _ member)

/-- In an archive of what is published, the manifest is found, and no other item has its name. -/
theorem inArchive_published {items : List Tar.Item} {manifest : Bytes} (clean : w.staging.Clean)
    (clean' : w.output.Clean) (regular : s.files.Regular)
    (name : IsName w.output.name ∨ w.output.name = "..")
    (storable : ∀ item ∈ items, item.Storable)
    (members : ∀ item, item ∈ items ↔ ∃ steps entry,
      w.published s.files manifest steps = some entry ∧
        item = ⟨itemName w.output.name steps, entry.content?⟩) :
    Manifest.inArchive (Packed.write items) = .ok (some manifest) := by
  have held := published_manifest clean clean' s.files manifest
  have proper : Proper [manifestName] := by decide
  refine Manifest.inArchive_write storable ?_ fun item member names => ?_
  · exact ⟨⟨itemName w.output.name [manifestName], some manifest⟩,
      (members _).mpr ⟨_, _, held, rfl⟩, (Manifest.names_itemName name proper).mpr rfl⟩
  · obtain ⟨steps, entry, held', rfl⟩ := (members item).mp member
    obtain rfl := (Manifest.names_itemName name (published_proper regular held')).mp names
    rw [held] at held'
    rw [← Option.some.inj held']
    rfl

/-- From a library that was committed, the manifest is read that was current then, unless a packed library
was moved into a directory that stood at its path, or what was published was dropped with the layout, or
the path of the manifest in a directory is longer than paths may be. -/
theorem read_of_commit (clean : w.staging.Clean) (clean' : w.output.Clean) (regular : s.files.Regular)
    (fits : ∀ bytes, MessagePack.pack (.table w.manifest) = .ok bytes → bytes.length < twoTo 63)
    (plain : (Value.table w.properties).Plain) (outlives : w.Outlives s.files.here path)
    (free : w.unpacked = false → s.files.entry? (spot s.files.here path.text) ≠ some .directory)
    (short : w.unpacked = true → (path.child manifestName).text.utf8ByteSize < pathLimit)
    (ran : w.commit s = .ok path t) :
    Manifest.read path t = .ok (.table w.manifest) t := by
  cases unpacked : w.unpacked with
  | true =>
      obtain ⟨manifest, packed, here, nonempty, whole, located, top, tree⟩ :=
        commit_tree clean clean' regular.toSound unpacked outlives ran
      have stands := (tree []).trans top
      rw [List.append_nil] at stands
      have file := (tree [manifestName]).trans (published_manifest clean clean' s.files manifest)
      have named : IsName manifestName := by decide
      have found := locate_child nonempty named (by decide) (short unpacked) located stands
      have content : Files.read (path.child manifestName).text t = .ok manifest t :=
        Files.read_of_locate (Files.holdsZero_child (by decide) whole) found file
      rw [Manifest.read, bind_of_ok (Files.lookStrictly_of_locate whole located), stands]
      exact (bind_of_ok content).trans (unpack_manifest plain packed t)
  | false =>
      obtain ⟨manifest, items, packed, name, here, whole, located, stands, storable, -, members⟩ :=
        commit_archive clean clean' regular unpacked outlives (free unpacked) fits ran
      have found := inArchive_published clean clean' regular name storable members
      have content : Files.read path.text t = .ok (Packed.write items) t :=
        Files.read_of_locate whole located stands
      rw [Manifest.read, bind_of_ok (Files.lookStrictly_of_locate whole located), stands]
      refine (bind_of_ok content).trans ?_
      simp only [found]
      exact unpack_manifest plain packed t

/-- From a library that took the place of an older one its own manifest is read. -/
theorem replacement_read : ∃ t, replacement.commit withReplacement = .ok replacement.output t ∧
    Manifest.read replacement.output t = .ok (.table replacement.manifest) t := by
  obtain ⟨t, ran, -⟩ := Run.outcome?_eq_some.mp replacement_committed
  exact ⟨t, ran, read_of_commit (Path.ofText_clean _) (Path.ofText_clean _) withReplacement_regular
    replacement_fits (.table _ List.nodup_nil fun _ member => absurd member List.not_mem_nil)
    replacement_outlives nofun (fun _ => by decide) ran⟩

theorem packed_inLayout : (packOnShelf "/s/lib/lib").outcome?
    (Manifest.read (.ofText "/s/lib/lib.klib")).failure? withShelf =
    some ((none, .ofText "/s/lib/lib.klib"),
      some (.refusal (.system .noEntry (.text "/s/lib/lib.klib")))) := by
  decide +kernel

/-- Where a library is published in its own layout, no manifest can be read from the path that is
returned. -/
theorem no_manifest_to_read : Path.ofText "/s" ≠ (Path.ofText "/s/lib/lib").parent ∧ ∃ w s t,
    start "/s/lib/lib" "lib" .linuxX64 1 false (some "/s") withShelf = .ok w s ∧
      s.files.entry? (spot s.files.here "/s/lib/lib.klib") = none ∧
      w.commit s = .ok (.ofText "/s/lib/lib.klib") t ∧
      ∀ value u, Manifest.read (.ofText "/s/lib/lib.klib") t ≠ .ok value u := by
  refine ⟨by decide, ?_⟩
  obtain ⟨w, s, t, started, free, committed, seen⟩ := packOnShelf_ok packed_inLayout
  refine ⟨w, s, t, started, free, committed, fun value u read => ?_⟩
  rw [Run.failure?, read] at seen
  cases seen

end LibraryWriter

end Foundry
