import Foundry.Proofs.Diagnostic.Template
import Foundry.Proofs.Properties.Reading

/-! How loading properties fails. A file that cannot be read, or that is no TOML, is blamed by its name in a
fault of the configuration; everything else that can go wrong with the same files escapes as it is. -/
namespace Foundry.Properties

open Run FileSystem Table

/-- The main file that is asked for, or taken by default, gives this table. -/
structure Begins (s : Session) (path : Option Path) (main : Path) (data : Table) : Prop where
  asked : path.elim (defaultPath s.host) .ok = .ok main
  given : Gives s.files main data

/-- The main file gives `data`, and these are the files over it. -/
structure Finds (s : Session) (path user : Option Path) (main : Path) (data : Table) (files : List Path) :
    Prop where
  begins : Begins s path main data
  found : ∃ home, homePath s.host data = .ok home ∧
    (¬∃ e, Unlisted s.files home (user.getD (userHome s.host)) e) ∧
    Overlays s.files home (user.getD (userHome s.host)) files

/-- The file is to be read next: it is the main one, or all files that come before it give their tables. -/
inductive ComesTo (s : Session) (path user : Option Path) : Path → Prop where
  | main (main) : path.elim (defaultPath s.host) .ok = .ok main → ComesTo s path user main
  | overlay (main data) (before : List (Path × Table)) (file after) :
      Finds s path user main data (before.map (·.1) ++ file :: after) → AllGive s.files before →
      ComesTo s path user file

/-- All files give their tables, which make up this one. -/
inductive Merges (s : Session) (path user : Option Path) : Table → Prop where
  | intro (main data) (layers : List (Path × Table)) : Finds s path user main data (layers.map (·.1)) →
      AllGive s.files layers → Merges s path user ((layers.map (·.2)).foldl merge data)

/-- What the properties say of the profiles of the dependencies. -/
def profiles (data : Table) : Value := (data.get? "dependency_profiles").getD .null

/-- What loading blames, and for what reason: the first file that is to blame, or the profiles if they are
to be restricted. -/
inductive Blames (s : Session) (path user : Option Path) (onlyDefaultProfiles : Bool) :
    String → String → Prop where
  | file (file reason) : ComesTo s path user file → Invalid s.files file reason →
      Blames s path user onlyDefaultProfiles file.text reason
  | profiles (merged) : Merges s path user merged → onlyDefaultProfiles = true →
      (profiles merged).isText "default alt" = false →
      Blames s path user onlyDefaultProfiles "dependency_profiles"
        s!"expected 'default alt', got '{(profiles merged).plain}'"

/-- How loading fails without blaming anything. -/
inductive Escapes (s : Session) (path user : Option Path) (onlyDefaultProfiles : Bool) : Failure → Prop where
  /-- The path of the main file starts with a home directory that nobody knows. -/
  | noPath (e) : path.elim (defaultPath s.host) .ok = .error e → Escapes s path user onlyDefaultProfiles e
  | file (file e) : ComesTo s path user file → Unreported s.files file e →
      Escapes s path user onlyDefaultProfiles e
  /-- What the main file says of the distribution is no table, or its home is no text. -/
  | home (main data e) : Begins s path main data → homePath s.host data = .error e →
      Escapes s path user onlyDefaultProfiles e
  | listing (main data home e) : Begins s path main data → homePath s.host data = .ok home →
      Unlisted s.files home (user.getD (userHome s.host)) e → Escapes s path user onlyDefaultProfiles e
  /-- What the last file says of the distribution is no table. -/
  | distribution (merged) : Merges s path user merged →
      (onlyDefaultProfiles = true → (profiles merged).isText "default alt" = true) →
      ¬ merged.HasTable "distribution" → Escapes s path user onlyDefaultProfiles .lacksMember

variable {s : Session} {path user : Option Path} {main file : Path} {data merged : Table} {files : List Path}
  {onlyDefaultProfiles : Bool} {runtime : Option String}

theorem load_of_begins (begins : Begins s path main data) :
    load path user onlyDefaultProfiles runtime s =
      layOver s.host main user onlyDefaultProfiles runtime data s := by
  rw [load_apply, bind_of_ok (ofExcept_eq_ok.mpr ⟨begins.asked, rfl⟩), bind_of_ok begins.given.readFile_eq]

theorem load_of_finds (distinct : (s.files.entries.map (·.1)).Nodup)
    (finds : Finds s path user main data files) :
    load path user onlyDefaultProfiles runtime s =
      (layFiles data files >>= settle s.host main files onlyDefaultProfiles runtime) s := by
  obtain ⟨home, homed, listed, ranked⟩ := finds.found
  have found : Run.ofExcept (homePath s.host data) s = .ok home s := ofExcept_eq_ok.mpr ⟨homed, rfl⟩
  rw [load_of_begins finds.begins, layOver, bind_of_ok found,
    bind_of_ok (ranked.platformFiles_eq distinct listed)]

/-- A file that cannot be had when its turn comes decides how loading fails. -/
theorem ComesTo.load_error (distinct : (s.files.entries.map (·.1)).Nodup) (comes : ComesTo s path user file)
    (failed : readFile file.text s = .error e s) :
    load path user onlyDefaultProfiles runtime s = .error e s := by
  cases comes with
  | main _ asked =>
      rw [load_apply, bind_of_ok (ofExcept_eq_ok.mpr ⟨asked, rfl⟩)]
      exact bind_eq_error.mpr (.inl failed)
  | overlay main data before _ after finds given =>
      rw [load_of_finds distinct finds]
      refine bind_eq_error.mpr (.inl ?_)
      rw [layFiles_append given, layFiles]
      exact bind_eq_error.mpr (.inl failed)

/-- A section can be asked for its members unless something else than a table is in its place. -/
theorem member_of_hasTable {key : String} (has : data.HasTable key) (name : String) :
    member (sectionOf data key) name = .ok ((data.subtable key).get? name) := by
  rcases has.cases with ⟨unset, empty⟩ | set
  · rw [sectionOf, unset, empty]
    rfl
  · rw [sectionOf, set]
    rfl

theorem member_of_not_hasTable {key : String} (other : ¬ data.HasTable key) (name : String) :
    member (sectionOf data key) name = .error .lacksMember := by
  rw [HasTable] at other
  rw [sectionOf]
  cases found : data.get? key with
  | none => simp [found] at other
  | some value => cases value <;> first | rfl | simp [found, Value.table?] at other

theorem ofData_cases (host : Host) (data : Table) (path : String) (runtime : Option String)
    (sources : List String) :
    ((∃ p, ofData host data path runtime sources = .ok p) ∧ data.HasTable "distribution") ∨
      ofData host data path runtime sources = .error .lacksMember ∧ ¬ data.HasTable "distribution" := by
  by_cases has : data.HasTable "distribution"
  · refine .inl ⟨?_, has⟩
    simp only [ofData, distributionOf, member_of_hasTable has, Except.map, bind, Except.bind, pure,
      Except.pure]
    by_cases given : runtime.getD "" = ""
    · exact ⟨_, by rw [if_pos given]⟩
    · exact ⟨_, by rw [if_neg given]⟩
  · refine .inr ⟨?_, has⟩
    simp only [ofData, distributionOf, member_of_not_hasTable has, Except.map, bind, Except.bind]

theorem keepOnlyDefaultProfiles_apply (data : Table) : keepOnlyDefaultProfiles data =
    if (profiles data).isText "default alt" then
      .ok ((data.set "dependency_profiles" (.text "default")).set "use_fixed_xcode_version" (.text "9.2"))
    else .error (.fault (.badProperties "dependency_profiles"
      s!"expected 'default alt', got '{(profiles data).plain}'")) := rfl

/-- Restricting the profiles leaves what is said of the distribution. -/
theorem keepOnlyDefaultProfiles_hasTable (kept : keepOnlyDefaultProfiles data = .ok merged) :
    merged.HasTable "distribution" ↔ data.HasTable "distribution" := by
  rw [keepOnlyDefaultProfiles_apply] at kept
  split at kept
  · cases kept
    simp [HasTable, get?_set]
  · cases kept

/-- With the profiles as they may be, only the distribution can still be no table. -/
theorem settle_cases (host : Host) (main : Path) (files : List Path) (runtime : Option String) (s : Session)
    (allowed : onlyDefaultProfiles = true → (profiles data).isText "default alt" = true) :
    ((∃ p, settle host main files onlyDefaultProfiles runtime data s = .ok p s) ∧
        data.HasTable "distribution") ∨
      settle host main files onlyDefaultProfiles runtime data s = .error .lacksMember s ∧
        ¬ data.HasTable "distribution" := by
  have settled {kept : Table} (same : kept.HasTable "distribution" ↔ data.HasTable "distribution")
      (ran : settle host main files onlyDefaultProfiles runtime data s =
        Run.ofExcept (ofData host kept main.text runtime (main.text :: files.map Path.text)) s) :
      ((∃ p, settle host main files onlyDefaultProfiles runtime data s = .ok p s) ∧
          data.HasTable "distribution") ∨
        settle host main files onlyDefaultProfiles runtime data s = .error .lacksMember s ∧
          ¬ data.HasTable "distribution" := by
    rw [ran, ← same]
    rcases ofData_cases host kept main.text runtime (main.text :: files.map Path.text) with
      ⟨⟨p, made⟩, has⟩ | ⟨failed, other⟩
    · exact .inl ⟨⟨p, ofExcept_eq_ok.mpr ⟨made, rfl⟩⟩, has⟩
    · exact .inr ⟨ofExcept_eq_error.mpr ⟨failed, rfl⟩, other⟩
  cases onlyDefaultProfiles with
  | false => exact settled .rfl rfl
  | true =>
      have kept := keepOnlyDefaultProfiles_apply data
      rw [if_pos (allowed rfl)] at kept
      exact settled (keepOnlyDefaultProfiles_hasTable kept) (bind_of_ok (ofExcept_eq_ok.mpr ⟨kept, rfl⟩))

theorem settle_profiles (host : Host) (main : Path) (files : List Path) (runtime : Option String) (s : Session)
    (other : (profiles data).isText "default alt" = false) :
    settle host main files true runtime data s = .error (.fault (.badProperties "dependency_profiles"
      s!"expected 'default alt', got '{(profiles data).plain}'")) s := by
  have refused := keepOnlyDefaultProfiles_apply data
  rw [if_neg (by simp [other])] at refused
  exact bind_eq_error.mpr (.inl (ofExcept_eq_error.mpr ⟨refused, rfl⟩))

/-- The data of all files decide what loading comes to. -/
theorem load_of_merges (distinct : (s.files.entries.map (·.1)).Nodup) (merges : Merges s path user merged) :
    ∃ main files, load path user onlyDefaultProfiles runtime s =
      settle s.host main files onlyDefaultProfiles runtime merged s := by
  obtain ⟨main, data, layers, finds, given⟩ := merges
  have laid := layFiles_append given data []
  rw [List.append_nil] at laid
  exact ⟨main, _, by rw [load_of_finds distinct finds, bind_of_ok (laid.trans rfl)]⟩

theorem Blames.load_error {file reason : String} (distinct : (s.files.entries.map (·.1)).Nodup)
    (blames : Blames s path user onlyDefaultProfiles file reason) :
    load path user onlyDefaultProfiles runtime s = .error (.fault (.badProperties file reason)) s := by
  cases blames with
  | file file _ comes invalid => exact comes.load_error distinct invalid.readFile_eq
  | profiles merged merges restricted other =>
      subst restricted
      obtain ⟨main, files, same⟩ := load_of_merges distinct merges
      rw [same, settle_profiles _ _ _ _ _ other]

/-- Where the profiles are not restricted, a file is to blame. -/
theorem Blames.of_file {name reason : String} (blames : Blames s path user onlyDefaultProfiles name reason)
    (free : onlyDefaultProfiles = false) :
    ∃ file, ComesTo s path user file ∧ Invalid s.files file reason ∧ file.text = name := by
  cases blames with
  | file file _ comes invalid => exact ⟨file, comes, invalid, rfl⟩
  | profiles _ _ restricted _ => cases free.symm.trans restricted

theorem Escapes.load_error (runtime : Option String) (distinct : (s.files.entries.map (·.1)).Nodup)
    (escapes : Escapes s path user onlyDefaultProfiles e) :
    ∃ t, load path user onlyDefaultProfiles runtime s = .error e t := by
  cases escapes with
  | noPath _ failed =>
      rw [load_apply]
      exact ⟨s, bind_eq_error.mpr (.inl (ofExcept_eq_error.mpr ⟨failed, rfl⟩))⟩
  | file file _ comes unreported => exact ⟨s, comes.load_error distinct unreported.readFile_eq⟩
  | home main data _ begins failed =>
      rw [load_of_begins begins]
      exact ⟨s, bind_eq_error.mpr (.inl (ofExcept_eq_error.mpr ⟨failed, rfl⟩))⟩
  | listing main data home _ begins homed unlisted =>
      have found : Run.ofExcept (homePath s.host data) s = .ok home s := ofExcept_eq_ok.mpr ⟨homed, rfl⟩
      rw [load_of_begins begins, layOver, bind_of_ok found]
      exact bind_fails_iff.mpr (.inl ((platformFiles_fails_iff distinct).mpr unlisted))
  | distribution merged merges allowed other =>
      obtain ⟨main, files, same⟩ := load_of_merges distinct merges
      rw [same]
      rcases settle_cases s.host main files runtime s allowed with ⟨-, has⟩ | ⟨failed, -⟩
      · exact absurd has other
      · exact ⟨s, failed⟩

theorem merged_cases (distinct : (s.files.entries.map (·.1)).Nodup) (merges : Merges s path user merged) :
    (∃ p t, load path user onlyDefaultProfiles runtime s = .ok p t) ∨
      (∃ file reason, Blames s path user onlyDefaultProfiles file reason) ∨
      ∃ e, Escapes s path user onlyDefaultProfiles e := by
  by_cases allowed : onlyDefaultProfiles = true → (profiles merged).isText "default alt" = true
  · obtain ⟨main, files, same⟩ := load_of_merges distinct merges
    rw [same]
    rcases settle_cases s.host main files runtime s allowed with ⟨⟨p, settled⟩, -⟩ | ⟨-, other⟩
    · exact .inl ⟨p, s, settled⟩
    · exact .inr (.inr ⟨_, .distribution merged merges allowed other⟩)
  · obtain ⟨restricted, other⟩ := Classical.not_imp.mp allowed
    exact .inr (.inl ⟨_, _, .profiles merged merges restricted (Bool.not_eq_true _ ▸ other)⟩)

/-- Loading gives properties, or something is to blame, or nothing is blamed. -/
theorem load_cases (distinct : (s.files.entries.map (·.1)).Nodup) (path user : Option Path)
    (onlyDefaultProfiles : Bool) (runtime : Option String) :
    (∃ p t, load path user onlyDefaultProfiles runtime s = .ok p t) ∨
      (∃ file reason, Blames s path user onlyDefaultProfiles file reason) ∨
      ∃ e, Escapes s path user onlyDefaultProfiles e := by
  have bad {file : Path} (comes : ComesTo s path user file)
      (why : (∃ reason, Invalid s.files file reason) ∨ ∃ e, Unreported s.files file e) :
      (∃ file reason, Blames s path user onlyDefaultProfiles file reason) ∨
        ∃ e, Escapes s path user onlyDefaultProfiles e := by
    rcases why with ⟨reason, invalid⟩ | ⟨e, unreported⟩
    · exact .inl ⟨_, reason, .file file reason comes invalid⟩
    · exact .inr ⟨e, .file file e comes unreported⟩
  cases asked : path.elim (defaultPath s.host) .ok with
  | error e => exact .inr (.inr ⟨e, .noPath e asked⟩)
  | ok main =>
      rcases file_cases s.files main with ⟨data, given⟩ | why
      · have begins : Begins s path main data := ⟨asked, given⟩
        cases homed : homePath s.host data with
        | error e => exact .inr (.inr ⟨e, .home main data e begins homed⟩)
        | ok home =>
            rcases platformFiles_cases distinct home user with ⟨e, unlisted⟩ | ⟨files, listed, ranked⟩
            · exact .inr (.inr ⟨e, .listing main data home e begins homed unlisted⟩)
            · have finds : Finds s path user main data files := ⟨begins, home, homed, listed, ranked⟩
              rcases files_cases s.files files with
                ⟨layers, rfl, given⟩ | ⟨before, file, after, rfl, given, why⟩
              · exact merged_cases distinct (.intro main data layers finds given)
              · exact .inr (bad (.overlay main data before file after finds given) why)
      · exact .inr (bad (.main main asked) why)

theorem Escapes.ofProperties (escapes : Escapes s path user onlyDefaultProfiles e) : e.IsOfProperties := by
  cases escapes with
  | noPath _ failed =>
      cases path with
      | some path => nomatch failed
      | none => exact defaultPath_failsAs _ _ failed ▸ trivial
  | file _ _ _ unreported => cases unreported <;> trivial
  | home _ _ _ _ failed => exact homePath_failsAs _ _ _ failed
  | listing _ _ _ _ _ _ unlisted => cases unlisted <;> trivial
  | distribution => trivial

/-- Loading blames exactly what is to blame. -/
theorem load_blames_iff {file reason : String} (distinct : (s.files.entries.map (·.1)).Nodup) :
    (∃ t, load path user onlyDefaultProfiles runtime s = .error (.fault (.badProperties file reason)) t) ↔
      Blames s path user onlyDefaultProfiles file reason := by
  refine ⟨fun ⟨t, failed⟩ => ?_, fun blames => ⟨s, blames.load_error distinct⟩⟩
  rcases load_cases distinct path user onlyDefaultProfiles runtime with
    ⟨p, u, loaded⟩ | ⟨file', reason', blames⟩ | ⟨e, escapes⟩
  · cases failed.symm.trans loaded
  · cases failed.symm.trans (blames.load_error distinct)
    exact blames
  · obtain ⟨u, other⟩ := escapes.load_error runtime distinct
    cases failed.symm.trans other
    exact escapes.ofProperties.elim

/-- Loading gives properties or reports a fault of the configuration, unless it fails in one of the ways that
nothing is blamed for; and the first file that cannot be read, or that is no TOML, is the one that is
named. -/
theorem load_blames_unless_escapes (distinct : (s.files.entries.map (·.1)).Nodup) :
    ((∃ p t, load path user onlyDefaultProfiles runtime s = .ok p t) ∨
        (∃ f t, load path user onlyDefaultProfiles runtime s = .error (.fault f) t ∧ f.code = "CE4007") ↔
      ¬∃ e, Escapes s path user onlyDefaultProfiles e) ∧
    (∀ e, (∃ t, load path user onlyDefaultProfiles runtime s = .error e t) ∧ ¬ e.IsFault ↔
      Escapes s path user onlyDefaultProfiles e) ∧
    ∀ file reason, ComesTo s path user file → Invalid s.files file reason →
      ∃ f t, load path user onlyDefaultProfiles runtime s = .error (.fault f) t ∧ f.code = "CE4007" ∧
        f.message = "invalid properties file '" ++ file.text ++ "': " ++ reason := by
  have escaping (e : Failure) : (∃ t, load path user onlyDefaultProfiles runtime s = .error e t) ∧ ¬ e.IsFault ↔
      Escapes s path user onlyDefaultProfiles e := by
    refine ⟨fun ⟨⟨t, failed⟩, other⟩ => ?_, fun escapes => ⟨escapes.load_error runtime distinct, fun fault => ?_⟩⟩
    · rcases load_cases distinct path user onlyDefaultProfiles runtime with
        ⟨p, u, loaded⟩ | ⟨file, reason, blames⟩ | ⟨e', escapes⟩
      · cases failed.symm.trans loaded
      · cases failed.symm.trans (blames.load_error distinct)
        exact absurd trivial other
      · obtain ⟨u, failed'⟩ := escapes.load_error runtime distinct
        cases failed.symm.trans failed'
        exact escapes
    · have kind := escapes.ofProperties
      cases e <;> first | exact fault | exact kind
  refine ⟨⟨?_, fun none => ?_⟩, escaping, fun file reason comes invalid => ?_⟩
  · rintro ended ⟨e, escapes⟩
    obtain ⟨⟨t, failed⟩, other⟩ := (escaping e).mpr escapes
    rcases ended with ⟨p, u, loaded⟩ | ⟨f, u, failed', -⟩
    · cases failed.symm.trans loaded
    · cases failed.symm.trans failed'
      exact other trivial
  · rcases load_cases distinct path user onlyDefaultProfiles runtime with
      loaded | ⟨file, reason, blames⟩ | escapes
    · exact .inl loaded
    · exact .inr ⟨_, s, blames.load_error distinct, rfl⟩
    · exact absurd escapes none
  · exact ⟨_, s, (Blames.file file reason comes invalid).load_error distinct, rfl,
      Fault.message_badProperties _ _⟩

/-- A session with a main file and two files over it, of which the second one has this content. -/
def withSecondOverlay (content : Bytes) : Session :=
  { Session.blank with
    files := {
      entries := [(["h"], .directory), (["h", "platforms"], .directory),
        (["h", "kiln.toml"], .file (Utf8.encode "distribution.home = \"/h\"\n")),
        (["h", "platforms", "a.toml"], .file (Utf8.encode "[targets.wasm32]\n")),
        (["h", "platforms", "b.toml"], .file content)] } }

/-- A session in which the second file over the main one is no TOML. -/
def withBrokenOverlay : Session := withSecondOverlay (Utf8.encode "[targets.wasm32\n")

/-- The second file over the main one is named, though the main one and the first one are fine. -/
theorem broken_overlay_named : ∃ file f t,
    ComesTo withBrokenOverlay (some (.ofText "/h/kiln.toml")) (some (.ofText "/u")) file ∧
      load (some (.ofText "/h/kiln.toml")) (some (.ofText "/u")) false none withBrokenOverlay =
        .error (.fault f) t ∧
      f.code = "CE4007" ∧
      f.message = "invalid properties file '" ++ file.text ++ "': " ++ notToml ∧
      file.text = "/h/platforms/b.toml" := by
  have distinct : (withBrokenOverlay.files.entries.map (·.1)).Nodup := by decide
  have failed : (load (some (.ofText "/h/kiln.toml")) (some (.ofText "/u")) false none).defeat? (fun _ => ())
      withBrokenOverlay = some (.fault (.badProperties "/h/platforms/b.toml" notToml), ()) := by
    decide +kernel
  obtain ⟨t, failed, -⟩ := defeat?_eq_some.mp failed
  obtain ⟨file, comes, invalid, same⟩ := ((load_blames_iff distinct).mp ⟨t, failed⟩).of_file rfl
  obtain ⟨f, u, blamed, code, message⟩ := (load_blames_unless_escapes distinct).2.2 file _ comes invalid
  exact ⟨file, f, u, comes, blamed, code, message, same⟩

/-- Where the second file is not even text, the failure names no file. -/
theorem garbled_overlay_unnamed : ∃ t,
    load (some (.ofText "/h/kiln.toml")) (some (.ofText "/u")) false none (withSecondOverlay [0xFF]) =
      .error .notUtf8 t := by
  have failed : (load (some (.ofText "/h/kiln.toml")) (some (.ofText "/u")) false none).defeat? (fun _ => ())
      (withSecondOverlay [0xFF]) = some (.notUtf8, ()) := by
    decide +kernel
  obtain ⟨t, failed, -⟩ := defeat?_eq_some.mp failed
  exact ⟨t, failed⟩

end Foundry.Properties
