import Foundry.Proofs.FileSystem.Reach
import Foundry.Proofs.Files.Frame
import Foundry.Proofs.Files.Relation

/-! Where files and directories under drawn names are made, and that nothing was there before. -/
namespace Foundry.Files
open Run FileSystem

variable {s t : Session}

/-- A name around digits is a name. -/
theorem isName_around {stem digits tail : String} (cleanStem : '/' ∉ stem.toList)
    (cleanTail : '/' ∉ tail.toList) (some : digits.toList ≠ [])
    (all : ∀ c ∈ digits.toList, c.isDigit = true) : IsName (stem ++ digits ++ tail) := by
  obtain ⟨digit, member⟩ := List.exists_mem_of_ne_nil _ some
  have isDigit := all digit member
  have inside : digit ∈ (stem ++ digits ++ tail).toList := by simp [member]
  have notSlash : '/' ∉ digits.toList := fun slash => by
    have := all _ slash
    contradiction
  refine .of_mem inside ?_ (by simp [cleanStem, cleanTail, notSlash])
  rintro rfl
  contradiction

theorem isDigit_of_mem_number {number : Nat} (member : c ∈ (toString number).toList) : c.isDigit = true := by
  rw [Nat.toString_eq_repr, Nat.toList_repr] at member
  exact Nat.isDigit_of_mem_toDigits (by decide) (by decide) member

theorem slash_not_mem_number (number : Nat) : '/' ∉ (toString number).toList := fun member =>
  absurd (isDigit_of_mem_number member) (by decide)

theorem isName_drawn {stem tail : String} (cleanStem : '/' ∉ stem.toList)
    (cleanTail : '/' ∉ tail.toList) (number : Nat) : IsName (stem ++ toString number ++ tail) := by
  refine isName_around cleanStem cleanTail ?_ fun c => isDigit_of_mem_number
  rw [Nat.toString_eq_repr, Nat.toList_repr]
  exact Nat.toDigits_ne_nil

/-- A name that ends with the number that was drawn. -/
theorem isName_numbered {stem : String} (clean : '/' ∉ stem.toList) (number : Nat) :
    IsName (stem ++ toString number) := by
  have drawn : IsName (stem ++ toString number ++ "") := isName_drawn clean (by simp) number
  rwa [String.append_empty] at drawn

/-- If the next name that is drawn is free, it is taken. -/
theorem makeDrawn_next {make : FileSystem → String → Except Errno FileSystem} (limit : Nat)
    (whole : holdsZero (name (toString (s.draws + 1))) = false)
    (free : make s.files (name (toString (s.draws + 1))) = .ok fs) :
    makeDrawn name make (limit + 1) s =
      .ok (name (toString (s.draws + 1))) { s with files := fs, draws := s.draws + 1 } := by
  simp only [makeDrawn, draw, checked, current, replace, bind, EStateM.bind, get_apply, modify_apply, pure,
    EStateM.pure, whole, free, Bool.false_eq_true, if_false]

/-- What is made under a drawn name is made under the number that was drawn last. -/
theorem makeDrawn_last {make : FileSystem → String → Except Errno FileSystem}
    (ran : makeDrawn name make limit s = .ok path t) :
    ∃ fs, path = name (toString t.draws) ∧ s.draws < t.draws ∧ holdsZero path = false ∧
      make s.files path = .ok fs ∧ t = { s with files := fs, draws := t.draws } := by
  induction limit generalizing s with
  | zero => cases ran
  | succ limit ih =>
      obtain ⟨number, u, drawn, rest⟩ := bind_eq_ok.mp ran
      obtain ⟨rfl, rfl⟩ : toString (s.draws + 1) = number ∧ { s with draws := s.draws + 1 } = u := by
        simpa [draw, bind, EStateM.bind, pure, EStateM.pure] using drawn
      obtain ⟨_, v, clean, making⟩ := bind_eq_ok.mp rest
      obtain ⟨rfl, whole⟩ := checked_ok clean
      obtain ⟨fs, w, found, made⟩ := bind_eq_ok.mp making
      obtain ⟨rfl, rfl⟩ := current_ok.mp found
      cases done : make s.files (name (toString (s.draws + 1))) with
      | ok fs =>
          simp only [done] at made
          obtain ⟨_, x, replaced, given⟩ := bind_eq_ok.mp made
          obtain rfl := replace_ok.mp replaced
          obtain ⟨rfl, rfl⟩ := pure_eq_ok.mp given
          exact ⟨fs, rfl, Nat.lt_succ_self _, whole, done, rfl⟩
      | error errno =>
          cases errno with
          | alreadyExists =>
              simp only [done] at made
              obtain ⟨fs, named, later, whole, done, same⟩ := ih made
              exact ⟨fs, named, Nat.lt_of_succ_lt later, whole, done, same⟩
          | _ =>
              simp only [done] at made
              cases made

/-- What is made under a drawn name is made in one step, under one number. -/
theorem makeDrawn_ok {make : FileSystem → String → Except Errno FileSystem}
    (ran : makeDrawn name make limit s = .ok path t) :
    ∃ (number : Nat) (fs : FileSystem) (draws : Nat), path = name (toString number) ∧
      holdsZero path = false ∧ make s.files path = .ok fs ∧
      t = { s with files := fs, draws := draws } := by
  obtain ⟨fs, named, -, whole, done, same⟩ := makeDrawn_last ran
  exact ⟨t.draws, fs, t.draws, named, whole, done, same⟩

/-- If no name is free, nothing is made. -/
theorem makeDrawn_failed {make : FileSystem → String → Except Errno FileSystem}
    (failed : makeDrawn name make limit s = .error e t) : t.files = s.files := by
  induction limit generalizing s with
  | zero =>
      cases failed
      rfl
  | succ limit ih =>
      have still (u : Session) (number : String) (drawn : draw s = .ok number u) : u.files = s.files :=
        (draw_still s).of_ok drawn
      rcases bind_eq_error.mp failed with failed | ⟨number, u, drawn, rest⟩
      · exact (draw_still s).of_error failed
      rcases bind_eq_error.mp rest with refused | ⟨_, v, clean, making⟩
      · exact ((checked_still _ u).of_error refused).trans (still u number drawn)
      obtain rfl := (checked_ok clean).1
      rcases bind_eq_error.mp making with impossible | ⟨fs, w, found, made⟩
      · cases impossible
      obtain ⟨rfl, rfl⟩ := current_ok.mp found
      rw [← still v number drawn]
      cases done : make v.files (name number) with
      | ok fs =>
          simp only [done] at made
          rcases bind_eq_error.mp made with impossible | ⟨_, x, replaced, given⟩
          · cases impossible
          · cases given
      | error errno =>
          cases errno with
          | alreadyExists =>
              simp only [done] at made
              exact ih made
          | _ =>
              simp only [done] at made
              cases made
              rfl

theorem makeTemporaryDirectory_apply (stem : String) (s : Session) :
    makeTemporaryDirectory stem s =
      makeDrawn (fun number => joinPaths s.host.temporary (stem ++ number)) FileSystem.makeDirectory drawLimit s :=
  bind_of_ok (get_apply s)

/-- A fresh directory stands where nothing was, under a drawn name in the directory for temporary
files. -/
theorem makeTemporaryDirectory_ok (ran : makeTemporaryDirectory stem s = .ok path t) :
    ∃ (number : Nat) (fs : FileSystem) (draws : Nat),
      path = joinPaths s.host.temporary (stem ++ toString number) ∧ holdsZero path = false ∧
      s.files.makeDirectory path = .ok fs ∧ t = { s with files := fs, draws := draws } := by
  rw [makeTemporaryDirectory_apply] at ran
  exact makeDrawn_ok ran

/-- If no directory can be made, nothing changes. -/
theorem makeTemporaryDirectory_failed (failed : makeTemporaryDirectory stem s = .error e t) :
    t.files = s.files := by
  rw [makeTemporaryDirectory_apply] at failed
  exact makeDrawn_failed failed

theorem absolute_ok {path result : Path} (ran : absolute path s = .ok result t) :
    result = ⟨((Path.mk .root s.files.here).join path).anchor,
      (path.resolve ⟨.root, s.files.here⟩).parts⟩ ∧ t = s := by
  obtain ⟨rfl, rfl⟩ : _ = result ∧ s = t := by
    simpa [absolute, here, bind, EStateM.bind, pure, EStateM.pure] using ran
  exact ⟨rfl, rfl⟩

/-- The absolute form of a path that goes on by names goes on by them too. -/
theorem absolute_append {path directory : Path} {names : List String} (proper : Proper s.files.here)
    (clean : path.Clean) (named : Proper names) (some : names ≠ [])
    (found : absolute path s = .ok directory s) :
    ∃ result, absolute (Path.mk path.anchor (path.parts ++ names)) s = .ok result s ∧
      result.text = joinPaths directory.text (String.intercalate "/" names) := by
  obtain ⟨rfl, -⟩ := absolute_ok found
  refine ⟨_, rfl, ?_⟩
  have rooted := Path.join_rooted s.files.here path
  have anchor : ((Path.mk .root s.files.here).join (Path.mk path.anchor (path.parts ++ names))).anchor =
      ((Path.mk .root s.files.here).join path).anchor := by
    simp only [Path.join]
    split <;> rfl
  have there : Proper (spot s.files.here path.text) := proper.spot path.text
  have above := Path.clean_of_proper ((Path.mk .root s.files.here).join path).anchor there
  rw [anchor, Path.parts_resolve proper clean, Path.parts_resolve proper (Path.append_clean clean named),
    Path.spot_append_names _ clean named]
  generalize ((Path.mk .root s.files.here).join path).anchor = start at rooted above ⊢
  exact @Path.text_append ⟨start, _⟩ names rooted above named some

/-- Where an absolute path leads to does not depend on the files that are there. -/
theorem absolute_of_here {path result : Path} (here : t.files.here = s.files.here)
    (found : absolute path s = .ok result s) : absolute path t = .ok result t := by
  obtain ⟨rfl, -⟩ := absolute_ok found
  rw [← here]
  rfl

/-- The absolute form of a path leads to the same location, wherever it is read. -/
theorem absolute_spot {path result : Path} (proper : Proper s.files.here) (clean : path.Clean)
    (ran : absolute path s = .ok result t) :
    spot s.files.here result.text = spot s.files.here path.text ∧
      Text.startsWith result.text "/" = true ∧ t = s := by
  obtain ⟨rfl, rfl⟩ := absolute_ok ran
  have parts := Path.parts_resolve proper clean
  have rooted := Path.join_rooted t.files.here path
  rw [parts]
  refine ⟨?_, Path.startsWith_text rooted, rfl⟩
  have whole : Proper (spot t.files.here path.text) := proper.spot path.text
  rw [Path.spot_text _ (Path.clean_of_proper _ whole), walk_proper _ whole, Path.start, if_neg rooted,
    List.nil_append]

theorem makeDrawn_relating {R : FileSystem → FileSystem → Prop} [Relates R] {here : Location}
    {make : FileSystem → String → Except Errno FileSystem}
    (relates : ∀ (number : Nat) (fs fs' : FileSystem), fs.here = here →
      make fs (name (toString number)) = .ok fs' → R fs fs') :
    Obeys (relating here R) (makeDrawn name make limit) := by
  intro s same
  cases ran : makeDrawn name make limit s with
  | ok path t =>
      obtain ⟨number, fs, draws, rfl, -, done, rfl⟩ := makeDrawn_ok ran
      rw [after_of_ok ran]
      exact relates number _ _ same done
  | error e t =>
      rw [after_of_error ran, makeDrawn_failed ran]
      exact Relates.refl _

/-- A fresh file is made in its directory or not at all. -/
theorem makeTemporaryFile_relating {R : FileSystem → FileSystem → Prop} [Relates R] {here : Location}
    {directory stem tail : String} (proper : Proper here) (cleanStem : '/' ∉ stem.toList)
    (cleanTail : '/' ∉ tail.toList)
    (relates : ∀ (path name : String), spot here path = spot here directory ++ [name] →
      ∀ fs fs' : FileSystem, fs.here = here → fs.create path = .ok fs' → R fs fs') :
    Obeys (relating here R) (makeTemporaryFile directory stem tail) := by
  intro s same
  have still : Obeys (relating here R) (absolute (.ofText directory)) := (absolute_still _).relating
  refine (still s).bind (fun above t found => ?_) same
  obtain ⟨there, -, rfl⟩ := absolute_spot (same ▸ proper) (Path.ofText_clean directory) found
  rw [Path.spot_ofText, same] at there
  refine ((makeDrawn_relating fun number fs fs' same' done => ?_).bind fun drawn => ?_) t
  · refine relates _ (stem ++ toString number ++ tail) ?_ fs fs' same' done
    rw [spot_joinPaths_name _ _ (isName_drawn cleanStem cleanTail number), there]
  · exact (absolute_still _).relating.bind fun _ => obeys_pure _

/-- A fresh file is made in a place where nothing was, under a drawn name in its directory. -/
theorem makeTemporaryFile_drawn {directory stem tail path : String} (proper : Proper s.files.here)
    (cleanStem : '/' ∉ stem.toList) (cleanTail : '/' ∉ tail.toList)
    (ran : makeTemporaryFile directory stem tail s = .ok path t) :
    ∃ (number : Nat) (fs : FileSystem) (draws : Nat),
      Text.baseName path = stem ++ toString number ++ tail ∧ Text.startsWith path "/" = true ∧
      spot s.files.here path =
        spot s.files.here directory ++ [stem ++ toString number ++ tail] ∧
      s.files.entry? (spot s.files.here path) = none ∧
      fs = s.files.put (spot s.files.here path) (.file []) ∧
      s.files.Extends (· = spot s.files.here path) fs ∧
      t = { s with files := fs, draws := draws } := by
  obtain ⟨above, u, resolved, rest⟩ := bind_eq_ok.mp ran
  obtain ⟨there, -, rfl⟩ := absolute_spot proper (Path.ofText_clean directory) resolved
  obtain ⟨drawn, v, making, rest⟩ := bind_eq_ok.mp rest
  have made : makeDrawn (fun number => joinPaths above.text (stem ++ number ++ tail))
      FileSystem.create drawLimit u = .ok drawn v := making
  obtain ⟨number, fs, draws, named, -, created, rfl⟩ :=
    makeDrawn_ok made
  obtain ⟨whole, w, resolved', given⟩ := bind_eq_ok.mp rest
  obtain ⟨rfl, rfl⟩ := pure_eq_ok.mp given
  obtain ⟨-, free, written⟩ := create_ok created
  have kept : fs.here = u.files.here := by rw [written]; rfl
  have clean := Path.ofText_clean drawn
  obtain ⟨same, -⟩ := absolute_ok resolved'
  obtain ⟨there', rooted, rfl⟩ := absolute_spot (kept ▸ proper) clean resolved'
  rw [Path.spot_ofText] at there there'
  have place : spot u.files.here drawn = spot u.files.here directory ++
      [stem ++ toString number ++ tail] := by
    rw [named, spot_joinPaths_name _ _ (isName_drawn cleanStem cleanTail number), there]
  have shown : spot u.files.here whole.text = spot u.files.here drawn := kept ▸ there'
  have grown : u.files.Extends (· = spot u.files.here drawn) fs := create_extends created rfl
  refine ⟨number, fs, draws, ?_, rooted, shown.trans place, shown ▸ free, shown ▸ written,
    shown ▸ grown, rfl⟩
  have parts := Path.parts_resolve (kept ▸ proper : Proper fs.here) clean
  rw [Path.spot_ofText, kept, place] at parts
  have proper' : Proper (spot u.files.here directory ++ [stem ++ toString number ++ tail]) :=
    place ▸ proper.spot drawn
  rw [same]
  simp only [kept, parts]
  exact Path.baseName_text (Path.clean_of_proper _ proper') rfl

/-- A fresh file is made in its directory, and nothing else changes. -/
theorem makeTemporaryFile_ok {directory stem tail path : String} (proper : Proper s.files.here)
    (cleanStem : '/' ∉ stem.toList) (cleanTail : '/' ∉ tail.toList)
    (ran : makeTemporaryFile directory stem tail s = .ok path t) :
    ∃ (name : String) (fs : FileSystem) (draws : Nat),
      spot s.files.here path = spot s.files.here directory ++ [name] ∧
      Text.startsWith path "/" = true ∧
      s.files.Extends (· = spot s.files.here directory ++ [name]) fs ∧
      t = { s with files := fs, draws := draws } := by
  obtain ⟨number, fs, draws, -, rooted, place, -, -, grown, rfl⟩ :=
    makeTemporaryFile_drawn proper cleanStem cleanTail ran
  exact ⟨_, fs, draws, place, rooted, place ▸ grown, rfl⟩

/-- The numbers that are drawn do not go back. -/
def counting : Contract := fun _ s t => s.draws ≤ t.draws

instance : counting.Composes := ⟨fun _ => Nat.le_refl _, Nat.le_trans⟩

theorem makeDrawn_counting (name : String → String) (make : FileSystem → String → Except Errno FileSystem)
    (limit : Nat) : Obeys counting (makeDrawn name make limit) := by
  induction limit with
  | zero => exact fun _ => Nat.le_refl _
  | succ limit ih =>
      have drawn : Obeys counting draw := fun s => Nat.le_succ s.draws
      have clean (path : String) : Obeys counting (checked path) := by
        unfold checked
        split
        · exact fun _ => Nat.le_refl _
        · exact obeys_pure _
      refine drawn.bind fun _ => (clean _).bind fun _ => Obeys.bind (fun _ => Nat.le_refl _) fun fs => ?_
      split
      · exact Obeys.bind (fun _ => Nat.le_refl _) fun _ => obeys_pure _
      · exact ih
      · exact fun _ => Nat.le_refl _

/-- An absolute path of names is its own absolute form. -/
theorem absolute_of_rooted {path : Path} (proper : Proper s.files.here) (rooted : path.anchor ≠ .none)
    (names : Proper path.parts) : absolute path s = .ok path s := by
  have clean : path.Clean := Path.clean_of_proper path.anchor names
  have anchor : ((Path.mk .root s.files.here).join path).anchor = path.anchor := by
    rw [Path.join, if_neg rooted]
  have parts : (path.resolve ⟨.root, s.files.here⟩).parts = path.parts := by
    rw [Path.parts_resolve proper clean, Path.spot_text _ clean, walk_proper _ names, Path.start,
      if_neg rooted, List.nil_append]
  have same : absolute path s = .ok ⟨((Path.mk .root s.files.here).join path).anchor,
      (path.resolve ⟨.root, s.files.here⟩).parts⟩ s := rfl
  rw [same, anchor, parts]

/-- A fresh file can be looked at under the path that is given for it. -/
theorem stat_of_makeTemporaryFile {directory stem tail path : String} (proper : Proper s.files.here)
    (cleanStem : '/' ∉ stem.toList) (cleanTail : '/' ∉ tail.toList)
    (ran : makeTemporaryFile directory stem tail s = .ok path t) : t.files.stat path = .ok (.file []) := by
  obtain ⟨above, u, resolved, rest⟩ := bind_eq_ok.mp ran
  obtain ⟨same, rfl⟩ := absolute_ok resolved
  obtain ⟨drawn, v, making, rest⟩ := bind_eq_ok.mp rest
  obtain ⟨number, fs, draws, named, -, created, rfl⟩ := makeDrawn_ok making
  obtain ⟨whole, w, resolved', given⟩ := bind_eq_ok.mp rest
  obtain ⟨rfl, rfl⟩ := pure_eq_ok.mp given
  have rooted : above.anchor ≠ .none := by
    rw [same]
    exact Path.join_rooted _ _
  have names : Proper above.parts := by
    rw [same]
    exact (Path.parts_resolve proper (Path.ofText_clean directory)).symm ▸ proper.spot _
  have fresh := isName_drawn cleanStem cleanTail number
  have longer : Proper (above.parts ++ [stem ++ toString number ++ tail]) := fun name member =>
    (List.mem_append.mp member).elim (names name) fun last => List.mem_singleton.mp last ▸ fresh
  have text : (Path.mk above.anchor (above.parts ++ [stem ++ toString number ++ tail])).text = drawn := by
    rw [named, Path.text_append rooted (Path.clean_of_proper _ names) _ (List.cons_ne_nil _ []),
      String.intercalate_singleton]
    exact fun name member => List.mem_singleton.mp member ▸ fresh
  have here : fs.here = u.files.here := by
    rw [(create_ok created).2.2]
    rfl
  have itself : absolute ⟨above.anchor, above.parts ++ [stem ++ toString number ++ tail]⟩
      { u with files := fs, draws := draws } = .ok _ _ :=
    absolute_of_rooted (here ▸ proper) rooted longer
  rw [← text, Path.ofText_text (Path.clean_of_proper _ longer), itself] at resolved'
  cases resolved'
  rw [text]
  exact stat_of_create created

theorem makeTemporaryFile_counting (directory stem tail : String) :
    Obeys counting (makeTemporaryFile directory stem tail) := by
  have resolved (path : Path) : Obeys counting (absolute path) := fun _ => Nat.le_refl _
  exact (resolved _).bind fun _ => (makeDrawn_counting _ _ _).bind fun _ =>
    (resolved _).bind fun _ => obeys_pure _

/-- If no fresh file can be made, names were drawn in vain. -/
theorem makeTemporaryFile_failed {directory stem tail : String}
    (failed : makeTemporaryFile directory stem tail s = .error e t) :
    t = { s with draws := t.draws } ∧ s.draws ≤ t.draws := by
  have still : t.files = s.files := by
    rcases bind_eq_error.mp failed with impossible | ⟨above, u, resolved, rest⟩
    · cases impossible
    obtain ⟨-, rfl⟩ := absolute_ok resolved
    rcases bind_eq_error.mp rest with failed | ⟨drawn, v, -, rest⟩
    · have failed : makeDrawn (fun number => joinPaths above.text (stem ++ number ++ tail))
          FileSystem.create drawLimit u = .error e t := failed
      exact makeDrawn_failed failed
    · rcases bind_eq_error.mp rest with impossible | ⟨_, _, _, impossible⟩
      · cases impossible
      · cases impossible
  have same := (((makeTemporaryFile_filesOnly _ _ _).obeys s).of_error failed).1
  rw [still] at same
  exact ⟨same, (makeTemporaryFile_counting _ _ _ s).of_error failed⟩

end Foundry.Files
