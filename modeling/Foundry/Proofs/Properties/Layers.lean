import Foundry.Proofs.Document.Toml
import Foundry.Proofs.FileSystem.Extension
import Foundry.Proofs.Files.Listing
import Foundry.Proofs.Process.History
import Foundry.Proofs.Properties.Load
import Mathlib.Data.List.Induction

/-! Properties as layers of files. Which files are loaded and in what order is read off the file
system; what a property of a target is comes from the last of them that sets it. -/
namespace Foundry

namespace Table

/-- The table at a key, which is empty if the key is not set. -/
def subtable (data : Table) (key : String) : Table := ((data.get? key).bind Value.table?).getD []

/-- What stands at a key, if anything, is a table. -/
def HasTable (data : Table) (key : String) : Prop :=
  (data.get? key).all (·.table?.isSome) = true

instance (data : Table) (key : String) : Decidable (data.HasTable key) :=
  inferInstanceAs (Decidable (_ = true))

variable {base overlay : Table} {key : String}

theorem HasTable.cases (has : base.HasTable key) :
    (base.get? key = none ∧ base.subtable key = []) ∨
      base.get? key = some (.table (base.subtable key)) := by
  cases found : base.get? key with
  | none => exact .inl ⟨rfl, by simp [subtable, found]⟩
  | some value =>
      cases value with
      | table entries => exact .inr (by simp [subtable, found, Value.table?])
      | _ => simp [HasTable, found, Value.table?] at has

theorem WellFormed.subtable (formed : WellFormed base) (key : String) :
    WellFormed (base.subtable key) := by
  cases found : base.get? key with
  | none => simpa [Table.subtable, found] using wellFormed_nil
  | some value =>
      cases value with
      | table entries =>
          simpa [Table.subtable, found, Value.table?] using wellFormed_iff.mp (formed.get? found)
      | _ => simpa [Table.subtable, found, Value.table?] using wellFormed_nil

theorem set_of_not_mem {table : Table} (new : key ∉ table.keys) (value : Value) :
    table.set key value = table ++ [(key, value)] := by
  induction table with
  | nil => rfl
  | cons entry rest ih =>
      simp only [keys, List.map_cons, List.mem_cons, not_or] at new
      rw [set, if_neg (Ne.symm new.1), ih new.2, List.cons_append]

/-- Laid over a table that shares no key with it, a table is appended. -/
theorem merge_of_disjoint (distinct : overlay.keys.Nodup) (new : ∀ key ∈ overlay.keys, key ∉ base.keys) :
    base.merge overlay = base ++ overlay := by
  unfold merge
  induction overlay generalizing base with
  | nil => simp [mergeEntries]
  | cons entry rest ih =>
      obtain ⟨first, value⟩ := entry
      obtain ⟨single, later⟩ := List.nodup_cons.mp distinct
      have unset : first ∉ base.keys := new first List.mem_cons_self
      rw [mergeEntries, get?_eq_none_iff.mpr unset, Value.mergeOver_replaces rfl,
        set_of_not_mem unset, ih later, List.append_assoc]
      · rfl
      · intro other member inside
        rw [keys, List.map_append, List.mem_append] at inside
        rcases inside with inside | inside
        · exact new other (List.mem_cons_of_mem _ member) inside
        · obtain rfl : other = first := by simpa using inside
          exact single member

/-- Where both have a table at a key, the tables are merged. -/
theorem subtable_merge (formed : WellFormed overlay) (lower : base.HasTable key)
    (upper : overlay.HasTable key) :
    (base.merge overlay).subtable key = (base.subtable key).merge (overlay.subtable key) ∧
      (base.merge overlay).HasTable key := by
  have found := get?_merge formed.distinct base key
  rcases upper.cases with ⟨unset, empty⟩ | set
  · have same : (base.merge overlay).get? key = base.get? key := by simpa [unset] using found
    refine ⟨?_, by rwa [HasTable, same]⟩
    rw [empty, subtable, same]
    rfl
  · rcases lower.cases with ⟨unset, empty⟩ | below
    · have same : (base.merge overlay).get? key = some (.table (overlay.subtable key)) := by
        simpa [set, unset, Value.mergeOver_replaces] using found
      have whole : merge [] (overlay.subtable key) = overlay.subtable key :=
        merge_of_disjoint (formed.subtable key).distinct (by simp [keys])
      refine ⟨?_, by simp [HasTable, same, Value.table?]⟩
      rw [empty, whole, subtable, same]
      rfl
    · have same : (base.merge overlay).get? key =
          some (.table ((base.subtable key).merge (overlay.subtable key))) := by
        simpa [set, below, Value.mergeOver_tables] using found
      refine ⟨?_, by simp [HasTable, same, Value.table?]⟩
      rw [subtable, same]
      rfl

/-- By induction from the last table on: the last one that sets a key decides it, unless it sets a
table there. -/
theorem get?_foldl_merge {tables : List Table} (formed : ∀ table ∈ tables, WellFormed table) (name : String) :
    (∀ value, (base :: tables).reverse.findSome? (·.get? name) = some value → value.table? = none →
      (tables.foldl merge base).get? name = some value) ∧
    ((base :: tables).reverse.findSome? (·.get? name) = none →
      (tables.foldl merge base).get? name = none) := by
  induction tables using List.reverseRecOn with
  | nil => exact ⟨fun value same _ => by simpa using same, fun unset => by simpa using unset⟩
  | append_singleton front last ih =>
      have kept := ih fun table member => formed table (List.mem_append_left _ member)
      have found := get?_merge (formed last (by simp)).distinct (front.foldl merge base) name
      rw [← List.cons_append, List.reverse_append, List.reverse_singleton, List.singleton_append,
        List.findSome?_cons, List.foldl_concat, found]
      cases set : last.get? name with
      | none => exact kept
      | some value =>
          refine ⟨fun other same plain => ?_, by simp⟩
          obtain rfl := Option.some.inj same
          simp [Value.mergeOver_other plain]

end Table

namespace Properties

open Run FileSystem Table

/-! ### What a target's properties come from -/

/-- What a table of properties sets for a target. -/
def settings (target : Target) (data : Table) : Table := (data.subtable "targets").subtable target.name

/-- Neither `targets` nor what it says of the target is anything but a table. -/
structure Sectioned (target : Target) (data : Table) : Prop where
  targets : data.HasTable "targets"
  target : (data.subtable "targets").HasTable target.name

instance (target : Target) (data : Table) : Decidable (Sectioned target data) :=
  decidable_of_iff (data.HasTable "targets" ∧ (data.subtable "targets").HasTable target.name)
    ⟨fun ⟨targets, target⟩ => ⟨targets, target⟩, fun ⟨targets, target⟩ => ⟨targets, target⟩⟩

/-- What the last table that sets a property of a target sets it to. -/
def lastSetting (target : Target) (tables : List Table) (name : String) : Option Value :=
  tables.reverse.findSome? fun table => (settings target table).get? name

theorem settings_merge {target : Target} {base overlay : Table} (formed : WellFormed overlay)
    (lower : Sectioned target base) (upper : Sectioned target overlay) :
    settings target (base.merge overlay) = (settings target base).merge (settings target overlay) ∧
      Sectioned target (base.merge overlay) := by
  obtain ⟨outer, hasTargets⟩ := subtable_merge formed lower.targets upper.targets
  obtain ⟨inner, hasTarget⟩ := subtable_merge (formed.subtable "targets") lower.target upper.target
  exact ⟨by rw [settings, outer, inner, settings, settings], hasTargets, outer ▸ hasTarget⟩

theorem settings_foldl {target : Target} {base : Table} {tables : List Table}
    (formed : ∀ table ∈ tables, WellFormed table) (lower : Sectioned target base)
    (upper : ∀ table ∈ tables, Sectioned target table) :
    settings target (tables.foldl merge base) =
        (tables.map (settings target)).foldl merge (settings target base) ∧
      Sectioned target (tables.foldl merge base) := by
  induction tables generalizing base with
  | nil => exact ⟨rfl, lower⟩
  | cons table rest ih =>
      obtain ⟨same, kept⟩ := settings_merge (formed table (by simp)) lower (upper table (by simp))
      have further := ih (fun other member => formed other (List.mem_cons_of_mem _ member)) kept
        fun other member => upper other (List.mem_cons_of_mem _ member)
      rwa [same] at further

/-- The last layer that sets a property decides it; where none does, it is not set. -/
theorem get?_layered {target : Target} {base : Table} {tables : List Table}
    (formed : ∀ table ∈ tables, WellFormed table)
    (sections : ∀ table ∈ base :: tables, Sectioned target table) (name : String) :
    (∀ value, lastSetting target (base :: tables) name = some value → value.table? = none →
      (settings target (tables.foldl merge base)).get? name = some value) ∧
    (lastSetting target (base :: tables) name = none →
      (settings target (tables.foldl merge base)).get? name = none) := by
  obtain ⟨same, -⟩ := settings_foldl formed (sections base List.mem_cons_self)
    fun table member => sections table (List.mem_cons_of_mem _ member)
  have each : ∀ table ∈ tables.map (settings target), WellFormed table := by
    intro table member
    obtain ⟨layer, inside, rfl⟩ := List.mem_map.mp member
    exact ((formed layer inside).subtable _).subtable _
  have asked : lastSetting target (base :: tables) name =
      (settings target base :: tables.map (settings target)).reverse.findSome? (·.get? name) := by
    rw [← List.map_cons, ← List.map_reverse, List.findSome?_map]
    rfl
  rw [same, asked]
  exact get?_foldl_merge each name

theorem lastSetting_wellFormed {target : Target} {tables : List Table}
    (formed : ∀ table ∈ tables, WellFormed table) (last : lastSetting target tables name = some value) :
    value.WellFormed := by
  obtain ⟨table, member, set⟩ := List.exists_of_findSome?_eq_some last
  exact (((formed table (List.mem_reverse.mp member)).subtable _).subtable _).get? set

/-! ### Which files are loaded -/

/-- The directory of the files for platforms below a root. -/
def platforms (root : Path) : Path := root.child "platforms"

/-- The names of the files for platforms below a root: all that stand there, in their order. -/
structure PlatformNames (fs : FileSystem) (root : Path) (names : List String) : Prop where
  ordered : names.Pairwise (· < ·)
  mem : ∀ name, name ∈ names ↔ Text.endsWith name ".toml" = true ∧
    fs.stat (platforms root).text = .ok .directory ∧
    (fs.entry? (spot fs.here (platforms root).text ++ [name])).isSome = true

/-- The files over a main file: those of the distribution's home, and after them those of the user's
directory, unless that is the same directory. -/
def Overlays (fs : FileSystem) (home user : Path) (files : List Path) : Prop :=
  ∃ first second, PlatformNames fs home first ∧
    (if user.resolve ⟨.root, fs.here⟩ = home.resolve ⟨.root, fs.here⟩ then second = []
      else PlatformNames fs user second) ∧
    files = first.map (platforms home).child ++ second.map (platforms user).child

/-- The file is there, and holds this table. -/
def Holds (fs : FileSystem) (file : Path) (table : Table) : Prop :=
  ∃ content, fs.read file.text = .ok content ∧ parseBytes content = .ok table

/-- The files that are loaded in a session: the main file that is asked for, or else the one that is
taken by default, and the files over it, each with the table it holds. -/
structure Layers (s : Session) (path user : Option Path) where
  main : Path
  data : Table
  home : Path
  overlays : List (Path × Table)
  asked : path.elim (defaultPath s.host) .ok = .ok main
  held : Holds s.files main data
  homed : homePath s.host data = .ok home
  ranked : Overlays s.files home (user.getD (userHome s.host)) (overlays.map (·.1))
  heldOver : ∀ layer ∈ overlays, Holds s.files layer.1 layer.2

namespace Layers

variable {s : Session} {path user : Option Path} (layers : Layers s path user)

/-- The files with the tables they hold, first the main one. -/
def all : List (Path × Table) := (layers.main, layers.data) :: layers.overlays

/-- The files in their order. -/
def files : List Path := layers.all.map (·.1)

/-- The tables in the order of the files. -/
def tables : List Table := layers.all.map (·.2)

/-- All tables in one. -/
def merged : Table := (layers.overlays.map (·.2)).foldl merge layers.data

end Layers

theorem Holds.wellFormed (held : Holds fs file table) : WellFormed table := by
  obtain ⟨content, -, parsed⟩ := held
  unfold parseBytes at parsed
  split at parsed
  · unfold parse at parsed
    split at parsed
    · rename_i read
      cases parsed
      exact Toml.read_wellFormed read
    · cases parsed
    · cases parsed
  · cases parsed

theorem Layers.held_all {s : Session} {path user : Option Path} (layers : Layers s path user) :
    ∀ layer ∈ layers.all, Holds s.files layer.1 layer.2 :=
  List.forall_mem_cons.mpr ⟨layers.held, layers.heldOver⟩

theorem Layers.wellFormed {s : Session} {path user : Option Path} (layers : Layers s path user) :
    ∀ table ∈ layers.tables, WellFormed table := by
  intro table member
  obtain ⟨layer, inside, rfl⟩ := List.mem_map.mp member
  exact (layers.held_all layer inside).wellFormed

variable {s t : Session}

theorem readFile_ok {file : Path} {table : Table} (ran : readFile file.text s = .ok table t) :
    t = s ∧ Holds s.files file table := by
  rw [readFile_apply] at ran
  split at ran
  · cases ran
  · cases read : s.files.read file.text with
    | error errno =>
        rw [read] at ran
        cases ran
    | ok content =>
        simp only [read] at ran
        cases parsed : parseBytes content with
        | ok other =>
            rw [parsed] at ran
            cases ran
            exact ⟨rfl, content, read, parsed⟩
        | error e =>
            rw [parsed] at ran
            cases e <;> cases ran

theorem layFiles_ok {base result : Table} {files : List Path}
    (ran : layFiles base files s = .ok result t) :
    t = s ∧ ∃ overlays : List (Path × Table), overlays.map (·.1) = files ∧
      (∀ layer ∈ overlays, Holds s.files layer.1 layer.2) ∧
      result = (overlays.map (·.2)).foldl merge base := by
  induction files generalizing base with
  | nil =>
      obtain ⟨rfl, rfl⟩ := pure_eq_ok.mp ran
      exact ⟨rfl, [], rfl, by simp, rfl⟩
  | cons file rest ih =>
      obtain ⟨table, u, read, further⟩ := bind_eq_ok.mp ran
      obtain ⟨rfl, held⟩ := readFile_ok read
      obtain ⟨rfl, overlays, same, heldAll, rfl⟩ := ih further
      refine ⟨rfl, (file, table) :: overlays, by simp [same], fun layer member => ?_, rfl⟩
      rcases List.mem_cons.mp member with rfl | member
      · exact held
      · exact heldAll layer member

theorem platformFilesIn_ok {root : Path} {files : List Path}
    (distinct : (s.files.entries.map (·.1)).Nodup) (whole : Files.holdsZero root.text = false)
    (ran : platformFilesIn root s = .ok files t) :
    t = s ∧ ∃ names, PlatformNames s.files root names ∧ files = names.map (platforms root).child := by
  obtain ⟨found, u, listed, given⟩ := bind_eq_ok.mp ran
  obtain ⟨rfl, ordered, mem⟩ := Files.names_ok distinct
    (Files.holdsZero_child (by decide) whole) listed
  obtain ⟨rfl, rfl⟩ := pure_eq_ok.mp given
  refine ⟨rfl, found.filter (Text.endsWith · ".toml"), ⟨ordered.filter _, fun name => ?_⟩, rfl⟩
  rw [List.mem_filter, mem, and_comm]
  rfl

theorem platformFiles_ok {home : Path} {user : Option Path} {files : List Path}
    (distinct : (s.files.entries.map (·.1)).Nodup) (ran : platformFiles home user s = .ok files t) :
    t = s ∧ Overlays s.files home (user.getD (userHome s.host)) files := by
  obtain ⟨_, _, got, rest⟩ := bind_eq_ok.mp ran
  cases got
  obtain ⟨resolved, u, first, rest⟩ := bind_eq_ok.mp rest
  obtain ⟨rfl, whole, rfl⟩ := Files.resolve_ok first
  obtain ⟨resolved', v, second, rest⟩ := bind_eq_ok.mp rest
  obtain ⟨rfl, whole', rfl⟩ := Files.resolve_ok second
  obtain ⟨ofHome, w, listed, rest⟩ := bind_eq_ok.mp rest
  obtain ⟨rfl, names, named, rfl⟩ := platformFilesIn_ok distinct whole' listed
  by_cases same : (user.getD (userHome w.host)).resolve ⟨.root, w.files.here⟩ =
      home.resolve ⟨.root, w.files.here⟩
  · simp only [same, ne_eq, not_true_eq_false, if_false] at rest
    obtain ⟨rfl, rfl⟩ := pure_eq_ok.mp rest
    exact ⟨rfl, names, [], named, by rw [if_pos same], by simp⟩
  · simp only [same, ne_eq, not_false_eq_true, if_true] at rest
    obtain ⟨ofUser, x, listed', given⟩ := bind_eq_ok.mp rest
    obtain ⟨rfl, names', named', rfl⟩ := platformFilesIn_ok distinct whole listed'
    obtain ⟨rfl, rfl⟩ := pure_eq_ok.mp given
    exact ⟨rfl, names, names', named, by rwa [if_neg same], rfl⟩

/-- Only the dependencies are restricted. -/
theorem keepOnlyDefaultProfiles_ok {data result : Table}
    (kept : keepOnlyDefaultProfiles data = .ok result) : result.get? "targets" = data.get? "targets" := by
  simp only [keepOnlyDefaultProfiles] at kept
  split at kept
  · cases kept
    simp [get?_set]
  · cases kept

/-- What is loaded are the layers, and nothing else of them counts for the properties of targets. -/
theorem load_ok {path user : Option Path} {onlyDefaultProfiles : Bool} {runtime : Option String}
    {p : Properties} (distinct : (s.files.entries.map (·.1)).Nodup)
    (ran : load path user onlyDefaultProfiles runtime s = .ok p t) :
    ∃ layers : Layers s path user, p.sources = layers.files.map Path.text ∧
      p.data.get? "targets" = layers.merged.get? "targets" := by
  rw [load_apply] at ran
  obtain ⟨main, u, given, rest⟩ := bind_eq_ok.mp ran
  obtain ⟨asked, rfl⟩ := ofExcept_eq_ok.mp given
  obtain ⟨table, u, read, rest⟩ := bind_eq_ok.mp rest
  obtain ⟨rfl, held⟩ := readFile_ok read
  obtain ⟨home, v, found, rest⟩ := bind_eq_ok.mp rest
  obtain ⟨homed, rfl⟩ := ofExcept_eq_ok.mp found
  obtain ⟨files, w, discovered, rest⟩ := bind_eq_ok.mp rest
  obtain ⟨rfl, ranked⟩ := platformFiles_ok distinct discovered
  obtain ⟨merged, x, laid, rest⟩ := bind_eq_ok.mp rest
  obtain ⟨rfl, overlays, rfl, heldOver, rfl⟩ := layFiles_ok laid
  have counted {result : Table} (made : Run.ofExcept (ofData x.host result main.text runtime
        (main.text :: (overlays.map (·.1)).map Path.text)) x = .ok p t)
      (same : result.get? "targets" = ((overlays.map (·.2)).foldl merge table).get? "targets") :
      ∃ layers : Layers x path user, p.sources = layers.files.map Path.text ∧
        p.data.get? "targets" = layers.merged.get? "targets" := by
    obtain ⟨given, rfl⟩ := ofExcept_eq_ok.mp made
    obtain ⟨distribution, -, whole⟩ := except_bind_eq_ok.mp given
    cases whole
    exact ⟨⟨main, table, home, overlays, asked, held, homed, ranked, heldOver⟩, rfl, same⟩
  unfold settle at rest
  split at rest
  · obtain ⟨result, y, restricted, made⟩ := bind_eq_ok.mp rest
    obtain ⟨kept, rfl⟩ := ofExcept_eq_ok.mp restricted
    exact counted made (keepOnlyDefaultProfiles_ok kept)
  · exact counted rest rfl

/-! ### No file twice -/

theorem userHome_clean (host : Host) : (userHome host).Clean :=
  Path.child_clean (Path.ofText_clean _) _

theorem homePath_clean {host : Host} {data : Table} {home : Path} (found : homePath host data = .ok home) :
    home.Clean := by
  obtain ⟨value, -, given⟩ := except_bind_eq_ok.mp found
  split at given
  · cases given
    exact userHome_clean host
  · cases given
    exact Path.ofText_clean _
  · cases given

variable {fs : FileSystem} {root : Path} {names : List String}

theorem PlatformNames.spots (named : PlatformNames fs root names) (sound : fs.Sound) (clean : root.Clean) :
    (names.map (platforms root).child).map (fun file => spot fs.here file.text) =
      names.map fun name => spot fs.here root.text ++ ["platforms", name] := by
  rw [List.map_map]
  refine List.map_congr_left fun name member => ?_
  obtain ⟨-, -, stands⟩ := (named.mem name).mp member
  have proper : IsName name := sound.proper _ stands name (by simp)
  have below : spot fs.here (platforms root).text = spot fs.here root.text ++ ["platforms"] :=
    Path.spot_child _ clean (by decide)
  have child : spot fs.here ((platforms root).child name).text =
      spot fs.here (platforms root).text ++ [name] :=
    Path.spot_child _ (Path.child_clean clean _) proper
  rw [Function.comp, child, below, List.append_assoc]
  rfl

/-- The files over a main file lie in different places. -/
theorem Overlays.apart {home user : Path} {files : List Path} (laid : Overlays fs home user files)
    (sound : fs.Sound) (clean : home.Clean) (clean' : user.Clean) :
    (files.map fun file => spot fs.here file.text).Nodup := by
  obtain ⟨first, second, named, others, rfl⟩ := laid
  have each {root : Path} {names : List String} (named : PlatformNames fs root names) :
      (names.map fun name => spot fs.here root.text ++ ["platforms", name]).Nodup := by
    have different : names.Nodup := named.ordered.imp fun before => String.ne_of_lt before
    exact different.map fun _ _ same => by simpa using same
  rw [List.map_append, named.spots sound clean]
  split at others
  · subst others
    simpa using each named
  · rename_i elsewhere
    rw [others.spots sound clean']
    refine List.nodup_append.mpr ⟨each named, each others, ?_⟩
    rintro place inFirst _ inSecond rfl
    obtain ⟨name, -, there⟩ := List.mem_map.mp inFirst
    obtain ⟨name', -, same⟩ := List.mem_map.mp inSecond
    rw [← there] at same
    have roots := (List.append_inj' same (by simp)).1
    rw [← Path.parts_resolve sound.here clean', ← Path.parts_resolve sound.here clean] at roots
    exact elsewhere (congrArg (Path.mk .root) roots)

/-! ### The properties of a target -/

theorem forTarget_of_sectioned {p : Properties} {target : Target} {data : Table}
    (same : p.data.get? "targets" = data.get? "targets") (sections : Sectioned target data) :
    p.forTarget target = .ok ⟨target, .table (settings target data), p.distribution⟩ := by
  have outer : sectionOf p.data "targets" = .table (data.subtable "targets") := by
    rw [sectionOf, same]
    rcases sections.targets.cases with ⟨unset, empty⟩ | set
    · rw [unset, empty]
      rfl
    · rw [set]
      rfl
  have inner : ((data.subtable "targets").get? target.name).getD (.table []) =
      .table (settings target data) := by
    rcases sections.target.cases with ⟨unset, empty⟩ | set
    · rw [unset, settings, empty]
      rfl
    · rw [set]
      rfl
  rw [forTarget, outer, ← inner]
  rfl

end Properties

namespace TargetProperties

variable {props : TargetProperties} {entries : Table} {name : String}

theorem read_of_set (table : props.table = .table entries) {value : Value}
    (set : Table.get? entries name = some value) (given : value ≠ .null) :
    props.text name = .ok (textOf value) ∧ props.list name = .ok (listOf value) := by
  have found : props.value? name = .ok (some value) := by simp [value?, table, set]
  rw [text, list, found]
  cases value <;> first | contradiction | exact ⟨rfl, rfl⟩

theorem read_of_unset (table : props.table = .table entries) (unset : Table.get? entries name = none) :
    props.text name = .error (.fault (.missingProperty name props.target)) ∧
      props.list name = .ok [] := by
  have found : props.value? name = .ok none := by simp [value?, table, unset]
  rw [text, list, found]
  exact ⟨rfl, rfl⟩

end TargetProperties

namespace Properties

open Table FileSystem

variable {s t : Session} {path user : Option Path} {onlyDefaultProfiles : Bool} {runtime : Option String}
  {p : Properties}

/-- The properties that are loaded come from the main file and the files over it, of which none is
taken twice. A property of a target is what the last of them makes it, if that is no table, and it
is missing if none of them sets it. -/
theorem load_layers (sound : s.files.Sound) (distinct : (s.files.entries.map (·.1)).Nodup)
    (clean : ∀ root, user = some root → root.Clean)
    (loaded : load path user onlyDefaultProfiles runtime s = .ok p t) :
    ∃ layers : Layers s path user,
      p.sources = layers.files.map Path.text ∧
      (layers.overlays.map fun layer => spot s.files.here layer.1.text).Nodup ∧
      ∀ target, (∀ table ∈ layers.tables, Sectioned target table) →
        ∃ props, p.forTarget target = .ok props ∧ ∀ name,
          (∀ value, lastSetting target layers.tables name = some value → value.table? = none →
            props.text name = .ok (TargetProperties.textOf value) ∧
              props.list name = .ok (TargetProperties.listOf value)) ∧
          (lastSetting target layers.tables name = none →
            props.text name = .error (.fault (.missingProperty name target)) ∧
              props.list name = .ok []) := by
  obtain ⟨layers, sources, targets⟩ := load_ok distinct loaded
  have cleanUser : (user.getD (userHome s.host)).Clean := by
    cases user with
    | none => exact userHome_clean s.host
    | some root => exact clean root rfl
  have apart := layers.ranked.apart sound (homePath_clean layers.homed) cleanUser
  rw [List.map_map] at apart
  refine ⟨layers, sources, apart, fun target sections => ?_⟩
  have formed := layers.wellFormed
  have formedOver : ∀ table ∈ layers.overlays.map (·.2), WellFormed table :=
    fun table member => formed table (List.mem_cons_of_mem _ member)
  obtain ⟨-, whole⟩ := settings_foldl formedOver (sections _ List.mem_cons_self)
    fun table member => sections table (List.mem_cons_of_mem _ member)
  refine ⟨_, forTarget_of_sectioned targets whole, fun name => ?_⟩
  obtain ⟨set, unset⟩ := get?_layered formedOver sections name
  refine ⟨fun value last plain => ?_, fun none => TargetProperties.read_of_unset rfl (unset none)⟩
  -- a null would be read as if the property was not set, but no file can hold one
  have given : value ≠ .null := by
    rintro rfl
    cases lastSetting_wellFormed formed last
  exact TargetProperties.read_of_set rfl (set value last plain) given

/-- A session with a main file, a file over it in its home, and one in a user's directory. -/
def withOverlays : Session :=
  { Session.blank with
    files := {
      entries := [(["h"], .directory), (["h", "platforms"], .directory), (["u"], .directory),
        (["u", "platforms"], .directory),
        (["h", "kiln.toml"], .file (Utf8.encode
          "distribution.home = \"/h\"\n[targets.wasm32]\nclang_flags = \"-O1\"\n")),
        (["h", "platforms", "b.toml"], .file (Utf8.encode "[targets.wasm32]\nclang_flags = [\"-O2\"]\n")),
        (["u", "platforms", "a.toml"], .file (Utf8.encode
          "[targets.wasm32]\nclang_flags = \"-O3 -g\"\n"))] } }

theorem Holds.check {fs : FileSystem} {file : Path} {table : Table} (held : Holds fs file table)
    (check : Table → Bool)
    (all : ((fs.read file.text).toOption.bind fun content => (parseBytes content).toOption).all check = true) :
    check table = true := by
  obtain ⟨content, readable, parsed⟩ := held
  simpa [readable, parsed, Except.toOption] using all

/-- The files of that session as they are loaded. -/
def overlaid : List String := ["/h/kiln.toml", "/h/platforms/b.toml", "/u/platforms/a.toml"]

/-- Each of them has a table for the target, and none has flags for an assembler. -/
def plainSections (table : Table) : Bool :=
  decide (Sectioned .wasm32 table) && ((settings .wasm32 table).get? "s2wasm_flags").isNone

/-- The user's file comes last and decides, though its name comes first. -/
theorem user_overlay_decides : ∃ p t props,
    load (some (.ofText "/h/kiln.toml")) (some (.ofText "/u")) false none withOverlays = .ok p t ∧
      p.sources = overlaid ∧ p.forTarget .wasm32 = .ok props ∧
      props.list "clang_flags" = .ok ["-O3", "-g"] ∧ props.list "s2wasm_flags" = .ok [] := by
  have ran : ((Properties.sources <$> load (some (.ofText "/h/kiln.toml")) (some (.ofText "/u")) false
      none).outcome? (fun _ => ()) withOverlays) = some (overlaid, ()) := by
    decide +kernel
  obtain ⟨t, ran, -⟩ := Run.outcome?_eq_some.mp ran
  rw [← bind_pure_comp] at ran
  obtain ⟨p, u, loaded, given⟩ := Run.bind_eq_ok.mp ran
  obtain ⟨listed, rfl⟩ := Run.pure_eq_ok.mp given
  have sound : withOverlays.files.Sound := Sound.of_entries (by decide) (by decide)
  obtain ⟨layers, sources, -, targets⟩ := load_layers sound (by decide)
    (fun root same => Option.some.inj same ▸ Path.ofText_clean _) loaded
  have named : layers.all.map (fun layer => layer.1.text) = overlaid := by
    rw [← listed, sources, Layers.files, List.map_map]
    rfl
  have plain : ∀ layer ∈ layers.all, plainSections layer.2 = true := by
    intro layer member
    have each : ∀ name ∈ overlaid, ((withOverlays.files.read name).toOption.bind fun content =>
        (parseBytes content).toOption).all plainSections = true := by
      decide +kernel
    exact (layers.held_all layer member).check plainSections
      (each _ (named ▸ List.mem_map_of_mem member))
  have sections : ∀ table ∈ layers.tables, Sectioned .wasm32 table := by
    intro table member
    obtain ⟨layer, inside, rfl⟩ := List.mem_map.mp member
    have both := plain layer inside
    simp only [plainSections, Bool.and_eq_true, decide_eq_true_eq] at both
    exact both.1
  have flags : lastSetting .wasm32 layers.tables "clang_flags" = some (.text "-O3 -g") := by
    obtain ⟨front, rest, whole, -, tail⟩ := List.map_eq_append_iff.mp
      (named.trans (show overlaid = overlaid.dropLast ++ ["/u/platforms/a.toml"] from rfl))
    obtain ⟨last, rfl, user⟩ := List.map_eq_singleton_iff.mp tail
    have held := layers.held_all last (by simp [whole])
    have set : ((settings .wasm32 last.2).get? "clang_flags").any (·.isText "-O3 -g") = true := by
      refine held.check (fun table => ((settings .wasm32 table).get? "clang_flags").any _) ?_
      rw [user]
      decide +kernel
    have decides : (settings .wasm32 last.2).get? "clang_flags" = some (.text "-O3 -g") := by
      cases found : (settings .wasm32 last.2).get? "clang_flags" with
      | none => simp [found] at set
      | some value => cases value <;> simp_all [Value.isText]
    simp [lastSetting, Layers.tables, whole, decides]
  have none : lastSetting .wasm32 layers.tables "s2wasm_flags" = none := by
    refine List.findSome?_eq_none_iff.mpr fun table member => ?_
    obtain ⟨layer, inside, rfl⟩ := List.mem_map.mp (List.mem_reverse.mp member)
    have both := plain layer inside
    simp only [plainSections, Bool.and_eq_true, Option.isNone_iff_eq_none] at both
    exact both.2
  obtain ⟨props, found, values⟩ := targets .wasm32 sections
  exact ⟨p, _, props, loaded, listed, found, ((values _).1 _ flags rfl).2, ((values _).2 none).2⟩

end Properties

end Foundry
