import Foundry.Proofs.Properties.Layers

/-! What reading the files of properties comes to: one file, the search for the files over a main one, and
all of them in their order. -/
namespace Foundry.Properties

open Run FileSystem Table

/-! ### What becomes of one file -/

/-- The file can be asked for and read, and this is in it. -/
structure Opens (fs : FileSystem) (file : Path) (content : Bytes) : Prop where
  whole : Files.holdsZero file.text = false
  read : fs.read file.text = .ok content

/-- The file can be asked for, and holds this table. -/
def Gives (fs : FileSystem) (file : Path) (table : Table) : Prop :=
  ∃ content, Opens fs file content ∧ parseBytes content = .ok table

/-- The file cannot be read, or its text is no TOML, which is a reason to blame it. -/
inductive Invalid (fs : FileSystem) (file : Path) : String → Prop where
  | unreadable (errno) : Files.holdsZero file.text = false → fs.read file.text = .error errno →
      Invalid fs file errno.text
  | notToml (content text) : Opens fs file content → Utf8.decode? content = some text →
      Toml.read text = .error .malformed → Invalid fs file notToml

/-- The file cannot be had, and nothing blames it for that. -/
inductive Unreported (fs : FileSystem) (file : Path) : Failure → Prop where
  | zeroInPath : Files.holdsZero file.text = true → Unreported fs file .zeroInPath
  | notUtf8 (content) : Opens fs file content → Utf8.decode? content = none →
      Unreported fs file .notUtf8
  | integerTooLong (content text digits) : Opens fs file content → Utf8.decode? content = some text →
      Toml.read text = .error (.integerTooLong digits) → Unreported fs file (.integerTooLong digits)

/-- Each file gives the table that stands with it. -/
abbrev AllGive (fs : FileSystem) (layers : List (Path × Table)) : Prop :=
  ∀ layer ∈ layers, Gives fs layer.1 layer.2

variable {s t : Session} {fs : FileSystem} {file : Path} {table : Table}

/-- A file gives its table, or is blamed, or is had in vain without being blamed. -/
theorem file_cases (fs : FileSystem) (file : Path) :
    (∃ table, Gives fs file table) ∨ (∃ reason, Invalid fs file reason) ∨ ∃ e, Unreported fs file e := by
  cases whole : Files.holdsZero file.text with
  | true => exact .inr (.inr ⟨_, .zeroInPath whole⟩)
  | false =>
      cases read : fs.read file.text with
      | error errno => exact .inr (.inl ⟨_, .unreadable errno whole read⟩)
      | ok content =>
          have opened : Opens fs file content := ⟨whole, read⟩
          cases parsed : parseBytes content with
          | ok table => exact .inl ⟨table, content, opened, parsed⟩
          | error e =>
              obtain ⟨garbled, -⟩ | ⟨text, decoded, ⟨malformed, -⟩ | ⟨digits, long, -⟩⟩ :=
                parseBytes_eq_error.mp parsed
              · exact .inr (.inr ⟨_, .notUtf8 content opened garbled⟩)
              · exact .inr (.inl ⟨_, .notToml content text opened decoded malformed⟩)
              · exact .inr (.inr ⟨_, .integerTooLong content text digits opened decoded long⟩)

theorem Gives.readFile_eq (given : Gives s.files file table) : readFile file.text s = .ok table s := by
  obtain ⟨content, opened, parsed⟩ := given
  simp [readFile_apply, opened.whole, opened.read, parsed]

theorem Invalid.readFile_eq {reason : String} (invalid : Invalid s.files file reason) :
    readFile file.text s = .error (.fault (.badProperties file.text reason)) s := by
  cases invalid with
  | unreadable errno whole refused => simp [readFile_apply, whole, refused]
  | notToml content text opened decoded malformed =>
      have parsed := parseBytes_eq_error.mpr (.inr ⟨text, decoded, .inl ⟨malformed, rfl⟩⟩)
      simp [readFile_apply, opened.whole, opened.read, parsed]

theorem Unreported.readFile_eq (unreported : Unreported s.files file e) :
    readFile file.text s = .error e s := by
  cases unreported with
  | zeroInPath zero => simp [readFile_apply, zero]
  | notUtf8 content opened garbled =>
      have parsed := parseBytes_eq_error.mpr (.inl ⟨garbled, rfl⟩)
      simp [readFile_apply, opened.whole, opened.read, parsed]
  | integerTooLong content text digits opened decoded long =>
      have parsed := parseBytes_eq_error.mpr (.inr ⟨text, decoded, .inr ⟨digits, long, rfl⟩⟩)
      simp [readFile_apply, opened.whole, opened.read, parsed]

/-! ### Which files lie over the main one -/

/-- How finding the files over a main file ends with a failure. -/
inductive Unlisted (fs : FileSystem) (home user : Path) : Failure → Prop where
  | zeroInPath : Files.holdsZero user.text = true ∨ Files.holdsZero home.text = true →
      Unlisted fs home user .zeroInPath
  | home : Files.holdsZero user.text = false → Files.holdsZero home.text = false →
      fs.stat (platforms home).text = .error .nameTooLong →
      Unlisted fs home user (.refusal (.system .nameTooLong (.text (platforms home).text)))
  | user : Files.holdsZero user.text = false → Files.holdsZero home.text = false →
      fs.stat (platforms home).text ≠ .error .nameTooLong →
      user.resolve ⟨.root, fs.here⟩ ≠ home.resolve ⟨.root, fs.here⟩ →
      fs.stat (platforms user).text = .error .nameTooLong →
      Unlisted fs home user (.refusal (.system .nameTooLong (.text (platforms user).text)))

theorem PlatformNames.unique {root : Path} {names names' : List String} (first : PlatformNames fs root names)
    (second : PlatformNames fs root names') : names = names' :=
  first.ordered.eq_of_mem_iff second.ordered fun name => (first.mem name).trans (second.mem name).symm

theorem Overlays.unique {home user : Path} {files files' : List Path} (first : Overlays fs home user files)
    (second : Overlays fs home user files') : files = files' := by
  obtain ⟨names, others, named, apart, rfl⟩ := first
  obtain ⟨names', others', named', apart', rfl⟩ := second
  obtain rfl := named.unique named'
  split at apart
  · rename_i same
    rw [if_pos same] at apart'
    rw [apart, apart']
  · rename_i different
    rw [if_neg different] at apart'
    rw [apart.unique apart']

theorem platformFilesIn_fails_iff {root : Path} (whole : Files.holdsZero root.text = false) :
    (∃ t, platformFilesIn root s = .error e t) ↔
      s.files.stat (platforms root).text = .error .nameTooLong ∧
        e = .refusal (.system .nameTooLong (.text (platforms root).text)) := by
  have wholeBelow : Files.holdsZero (platforms root).text = false := Files.holdsZero_child (by decide) whole
  rw [platformFilesIn, bind_fails_iff, or_iff_left, Files.names_fails_iff]
  · exact and_iff_right wholeBelow
  · rintro ⟨names, t, -, u, ⟨⟩⟩

/-- The files of two directories whose names can be asked for. -/
theorem platformFiles_of_whole {home : Path} {user : Option Path}
    (wholeUser : Files.holdsZero (user.getD (userHome s.host)).text = false)
    (whole : Files.holdsZero home.text = false) :
    platformFiles home user s = (do
      let first ← platformFilesIn home
      let second ← if (user.getD (userHome s.host)).resolve ⟨.root, s.files.here⟩ ≠
          home.resolve ⟨.root, s.files.here⟩ then platformFilesIn (user.getD (userHome s.host))
        else pure []
      return first ++ second) s := by
  rw [platformFiles, bind_of_ok (get_apply s), bind_of_ok (Files.resolve_of_whole wholeUser s),
    bind_of_ok (Files.resolve_of_whole whole s)]

theorem platformFiles_fails_of_zero {home : Path} {user : Option Path}
    (zero : Files.holdsZero (user.getD (userHome s.host)).text = true ∨ Files.holdsZero home.text = true) :
    (∃ t, platformFiles home user s = .error e t) ↔ e = .zeroInPath := by
  rw [platformFiles, bind_of_ok (get_apply s), bind_fails_iff, Files.resolve_fails_iff]
  cases zeroUser : Files.holdsZero (user.getD (userHome s.host)).text with
  | true =>
      refine ⟨?_, fun same => .inl ⟨rfl, same⟩⟩
      rintro (⟨-, rfl⟩ | ⟨place, u, resolved, -⟩)
      · rfl
      · cases zeroUser.symm.trans (Files.resolve_ok resolved).2.1
  | false =>
      have zeroHome : Files.holdsZero home.text = true := zero.resolve_left (by simp [zeroUser])
      constructor
      · rintro (⟨⟨⟩, -⟩ | ⟨place, u, resolved, failed⟩)
        rcases bind_fails_iff.mp failed with failed | ⟨place', v, resolved', -⟩
        · exact (Files.resolve_fails_iff.mp failed).2
        · cases zeroHome.symm.trans (Files.resolve_ok resolved').2.1
      · rintro rfl
        exact .inr ⟨_, s, Files.resolve_of_whole zeroUser s,
          bind_fails_iff.mpr (.inl (Files.resolve_fails_iff.mpr ⟨zeroHome, rfl⟩))⟩

theorem platformFiles_fails_iff {home : Path} {user : Option Path}
    (distinct : (s.files.entries.map (·.1)).Nodup) :
    (∃ t, platformFiles home user s = .error e t) ↔
      Unlisted s.files home (user.getD (userHome s.host)) e := by
  by_cases zero : Files.holdsZero (user.getD (userHome s.host)).text = true ∨
      Files.holdsZero home.text = true
  · rw [platformFiles_fails_of_zero zero]
    refine ⟨?_, fun unlisted => ?_⟩
    · rintro rfl
      exact .zeroInPath zero
    · cases unlisted with
      | zeroInPath => rfl
      | home wholeUser whole => simp [wholeUser, whole] at zero
      | user wholeUser whole => simp [wholeUser, whole] at zero
  · obtain ⟨wholeUser, whole⟩ : Files.holdsZero (user.getD (userHome s.host)).text = false ∧
        Files.holdsZero home.text = false := by simpa using zero
    rw [platformFiles_of_whole wholeUser whole, bind_fails_iff, platformFilesIn_fails_iff whole]
    constructor
    · rintro (⟨long, rfl⟩ | ⟨first, t, listed, failed⟩)
      · exact .home wholeUser whole long
      · have short : s.files.stat (platforms home).text ≠ .error .nameTooLong := by
          intro long
          obtain ⟨u, failed⟩ := (platformFilesIn_fails_iff whole).mpr ⟨long, rfl⟩
          cases listed.symm.trans failed
        obtain ⟨rfl, -⟩ := platformFilesIn_ok distinct whole listed
        split at failed
        · rename_i apart
          rcases bind_fails_iff.mp failed with failed | ⟨_, _, -, _, ⟨⟩⟩
          obtain ⟨long, rfl⟩ := (platformFilesIn_fails_iff wholeUser).mp failed
          exact .user wholeUser whole short apart long
        · obtain ⟨_, ⟨⟩⟩ := failed
    · intro unlisted
      cases unlisted with
      | zeroInPath zeros => exact absurd zeros zero
      | home _ _ long => exact .inl ⟨long, rfl⟩
      | user _ _ short apart long =>
          cases listed : platformFilesIn home s with
          | error e t => exact absurd ((platformFilesIn_fails_iff whole).mp ⟨t, listed⟩).1 short
          | ok first t =>
              obtain ⟨rfl, -⟩ := platformFilesIn_ok distinct whole listed
              refine .inr ⟨first, t, rfl, ?_⟩
              rw [if_pos apart, bind_fails_iff]
              exact .inl ((platformFilesIn_fails_iff wholeUser).mpr ⟨long, rfl⟩)

/-- Unless a directory cannot be looked at, the files are found. -/
theorem platformFiles_cases (distinct : (s.files.entries.map (·.1)).Nodup) (home : Path)
    (user : Option Path) :
    (∃ e, Unlisted s.files home (user.getD (userHome s.host)) e) ∨
      ∃ files, (¬∃ e, Unlisted s.files home (user.getD (userHome s.host)) e) ∧
        Overlays s.files home (user.getD (userHome s.host)) files := by
  simp only [← platformFiles_fails_iff distinct]
  cases ran : platformFiles home user s with
  | error e t => exact .inl ⟨e, t, rfl⟩
  | ok files t => exact .inr ⟨files, by simp, (platformFiles_ok distinct ran).2⟩

theorem Overlays.platformFiles_eq {home : Path} {user : Option Path} {files : List Path}
    (distinct : (s.files.entries.map (·.1)).Nodup)
    (ranked : Overlays s.files home (user.getD (userHome s.host)) files)
    (listed : ¬∃ e, Unlisted s.files home (user.getD (userHome s.host)) e) :
    platformFiles home user s = .ok files s := by
  cases ran : platformFiles home user s with
  | error e t => exact absurd ⟨e, (platformFiles_fails_iff distinct).mp ⟨t, ran⟩⟩ listed
  | ok found t =>
      obtain ⟨rfl, ranked'⟩ := platformFiles_ok distinct ran
      rw [ranked.unique ranked']

/-! ### All files in their order -/

/-- Files that give their tables are laid over what came before them, and what follows them goes on from
there. -/
theorem layFiles_append {layers : List (Path × Table)} (given : AllGive s.files layers) (base : Table)
    (rest : List Path) :
    layFiles base (layers.map (·.1) ++ rest) s =
      layFiles ((layers.map (·.2)).foldl merge base) rest s := by
  induction layers generalizing base with
  | nil => rfl
  | cons layer layers ih =>
      rw [List.map_cons, List.cons_append, layFiles, bind_of_ok (given layer (by simp)).readFile_eq,
        ih fun other member => given other (List.mem_cons_of_mem _ member)]
      rfl

/-- Either all files give their tables, or there is a first one that does not. -/
theorem files_cases (fs : FileSystem) (files : List Path) :
    (∃ layers, files = layers.map (·.1) ∧ AllGive fs layers) ∨
    ∃ before file after, files = before.map (·.1) ++ file :: after ∧ AllGive fs before ∧
      ((∃ reason, Invalid fs file reason) ∨ ∃ e, Unreported fs file e) := by
  induction files with
  | nil => exact .inl ⟨[], rfl, nofun⟩
  | cons file rest ih =>
      rcases file_cases fs file with ⟨table, given⟩ | bad
      · rcases ih with ⟨layers, rfl, each⟩ | ⟨before, other, after, rfl, each, bad⟩
        · exact .inl ⟨(file, table) :: layers, rfl, List.forall_mem_cons.mpr ⟨given, each⟩⟩
        · exact .inr ⟨(file, table) :: before, other, after, rfl, List.forall_mem_cons.mpr ⟨given, each⟩, bad⟩
      · exact .inr ⟨[], file, rest, rfl, nofun, bad⟩

end Foundry.Properties
