import Foundry.Build.Compile
import Foundry.Proofs.Document.Merge
import Foundry.Proofs.Link.LateProperties
import Foundry.Proofs.Text.Words
import Mathlib.Data.List.Forall2

/-! Two spellings of a property of a target: a list of words, and one text with the words and single
blanks between them. Nothing that is read of a table tells them apart, and so nothing that is made of
what is read. -/
namespace Foundry

open Text

/-- Values that spell the same property: one value, or a list of words and the text of these words. -/
inductive Value.Respells : Value → Value → Prop where
  | same (value) : Respells value value
  | joined {words : List String} : (∀ word ∈ words, IsWord word) →
      Respells (.array (words.map .text)) (.text (String.intercalate " " words))
  | parted {words : List String} : (∀ word ∈ words, IsWord word) →
      Respells (.text (String.intercalate " " words)) (.array (words.map .text))

namespace Table

/-- Tables with the same keys in the same order, any of whose values may be spelled otherwise. -/
def Respelled (table other : Table) : Prop :=
  List.Forall₂ (fun entry entry' => entry.1 = entry'.1 ∧ entry.2.Respells entry'.2) table other

variable {table other : Table}

theorem Respelled.refl (table : Table) : Respelled table table :=
  List.forall₂_same.mpr fun entry _ => ⟨rfl, .same entry.2⟩

/-- One value may be spelled otherwise. -/
theorem respelled_set {name : String} {value value' : Value} (set : table.get? name = some value)
    (respells : value.Respells value') : Respelled table (table.set name value') := by
  induction table with
  | nil => cases set
  | cons entry rest ih =>
      rw [get?_cons] at set
      rw [Table.set]
      by_cases here : entry.1 = name
      · rw [if_pos here.symm] at set
        rw [if_pos here]
        exact .cons ⟨here, Option.some.inj set ▸ respells⟩ (Respelled.refl rest)
      · rw [if_neg (Ne.symm here)] at set
        rw [if_neg here]
        exact .cons ⟨rfl, .same entry.2⟩ (ih set)

theorem Respelled.get? (respelled : table.Respelled other) (name : String) :
    (table.get? name = none ∧ other.get? name = none) ∨
      ∃ value value', table.get? name = some value ∧ other.get? name = some value' ∧
        value.Respells value' := by
  induction respelled with
  | nil => exact .inl ⟨rfl, rfl⟩
  | cons first _ ih =>
      rw [get?_cons, get?_cons, ← first.1]
      split
      · exact .inr ⟨_, _, rfl, rfl, first.2⟩
      · exact ih

end Table

namespace TargetProperties

theorem plain_words (words : List String) : words.map (Value.plain ∘ Value.text) = words :=
  List.map_id words

theorem textOf_respells {value value' : Value} (respells : value.Respells value') :
    textOf value' = textOf value := by
  cases respells with
  | same => rfl
  | joined => simp [textOf, List.map_map, plain_words, Value.plain]
  | parted => simp [textOf, List.map_map, plain_words, Value.plain]

theorem listOf_respells {value value' : Value} (respells : value.Respells value') :
    listOf value' = listOf value := by
  cases respells with
  | same => rfl
  | joined proper => simp [listOf, plain_words, Value.plain, words_intercalate proper]
  | parted proper => simp [listOf, plain_words, Value.plain, words_intercalate proper]

/-- Properties of one target of which the same is read under every name. -/
structure ReadsAlike (p q : TargetProperties) : Prop where
  target : q.target = p.target
  distribution : q.distribution = p.distribution
  text : ∀ name, q.text name = p.text name
  text? : ∀ name, q.text? name = p.text? name
  list : ∀ name, q.list name = p.list name

theorem readsAlike_of_respelled {entries entries' : Table} (respelled : entries.Respelled entries')
    (target : Target) (distribution : Distribution) :
    ReadsAlike ⟨target, .table entries, distribution⟩ ⟨target, .table entries', distribution⟩ := by
  have read (name : String) := respelled.get? name
  have text (name : String) : TargetProperties.text ⟨target, .table entries', distribution⟩ name =
      TargetProperties.text ⟨target, .table entries, distribution⟩ name := by
    simp only [TargetProperties.text, value?, bind, Except.bind]
    rcases read name with ⟨unset, unset'⟩ | ⟨value, value', set, set', respells⟩
    · rw [unset, unset']
    · rw [set, set']
      cases respells with
      | same => rfl
      | joined proper => exact congrArg Except.ok (textOf_respells (.joined proper))
      | parted proper => exact congrArg Except.ok (textOf_respells (.parted proper))
  refine ⟨rfl, rfl, text, fun name => ?_, fun name => ?_⟩
  · have has : Table.has entries' name = Table.has entries name := by
      rcases read name with ⟨unset, unset'⟩ | ⟨value, value', set, set', -⟩
      · simp only [Table.has, unset, unset']
      · simp only [Table.has, set, set', Option.isSome_some]
    simp only [TargetProperties.text?, has, text name]
  · simp only [TargetProperties.list, value?, bind, Except.bind]
    rcases read name with ⟨unset, unset'⟩ | ⟨value, value', set, set', respells⟩
    · rw [unset, unset']
    · rw [set, set']
      cases respells with
      | same => rfl
      | joined proper => exact congrArg Except.ok (listOf_respells (.joined proper))
      | parted proper => exact congrArg Except.ok (listOf_respells (.parted proper))

end TargetProperties

theorem except_map_bind {first : Except ε α} {next : α → Except ε β} {f : β → γ} :
    (first >>= next).map f = first >>= fun a => (next a).map f := by
  cases first <;> rfl

namespace Platform

variable {p q : TargetProperties}

/-- What is made of properties holds nothing of them but what is read. -/
theorem ofProperties_alike (alike : p.ReadsAlike q) :
    ofProperties q = (ofProperties p).map fun platform => { platform with properties := q } := by
  have recipe (sysroot : String) : recipeFor q sysroot = recipeFor p sysroot := by
    simp only [recipeFor, alike.target, alike.distribution, alike.text, alike.list]
  simp only [ofProperties, TargetProperties.flags, TargetProperties.toolchain,
    TargetProperties.sysroot, TargetProperties.absoluteLibffi?, TargetProperties.libffi?, alike.text,
    alike.text?, alike.list, alike.distribution, recipe, except_map_bind]
  rfl

theorem linkCommand_alike {platform : Platform} (alike : platform.properties.ReadsAlike q)
    (objects : List String) (output : String) (switches : Switches) (archives : List String) :
    { platform with properties := q }.linkCommand objects output switches archives =
      platform.linkCommand objects output switches archives := by
  have target : Platform.target { platform with properties := q } = platform.target := alike.target
  have gold : goldArguments { platform with properties := q } = goldArguments platform := by
    unfold goldArguments
    rw [target]
    rfl
  have version : osVersionFlags { platform with properties := q } = osVersionFlags platform := by
    simp only [osVersionFlags, TargetProperties.osVersionMin, alike.text]
  unfold linkCommand
  simp only [gold, version, alike.text]
  rfl

end Platform

namespace TargetProperties

/-- Whether properties of a target are spelled as lists or as texts does not matter: the same is read
under every name, or is missed, and so the platform made of them is the same, with the same link
commands and the same flags, or the same property is missing for it. -/
theorem spellings_interchangeable {entries entries' : Table} (respelled : entries.Respelled entries')
    (target : Target) (distribution : Distribution) :
    let p : TargetProperties := ⟨target, .table entries, distribution⟩
    let q : TargetProperties := ⟨target, .table entries', distribution⟩
    (∀ name, q.text name = p.text name ∧ q.text? name = p.text? name ∧ q.list name = p.list name) ∧
    (Platform.ofProperties q =
      (Platform.ofProperties p).map fun platform => { platform with properties := q }) ∧
    ∀ platform, Platform.ofProperties p = .ok platform →
      let platform' := { platform with properties := q }
      (∀ objects output switches archives, platform'.linkCommand objects output switches archives =
        platform.linkCommand objects output switches archives) ∧
      platform'.commandTail = platform.commandTail ∧
      (∀ set, platform'.flags set = platform.flags set) ∧
      ∀ setup : Setup, setup.platform = platform →
        { setup with platform := platform' }.codeFlags = setup.codeFlags := by
  intro p q
  have alike : p.ReadsAlike q := readsAlike_of_respelled respelled target distribution
  refine ⟨fun name => ⟨alike.text name, alike.text? name, alike.list name⟩,
    Platform.ofProperties_alike alike, fun platform made => ?_⟩
  have properties : platform.properties = p := (Platform.ofProperties_of_ok made).1
  have same : platform.properties.ReadsAlike q := properties ▸ alike
  refine ⟨Platform.linkCommand_alike same, rfl, fun _ => rfl, ?_⟩
  rintro setup rfl
  rfl

/-- Properties with their flags in a list. -/
def listed : Table :=
  [("target_toolchain", .text "gcc"), ("linker_kiln_flags", .array [.text "-lm", .text "-ldl"]),
    ("target_sysroot", .text "sysroot"), ("lib_gcc", .text "gcc")]

/-- The flags are written as a text instead, and the platform stays the same. -/
theorem flags_as_text :
    listed.Respelled (listed.set "linker_kiln_flags" (.text "-lm -ldl")) ∧
    (⟨.linuxX64, .table (listed.set "linker_kiln_flags" (.text "-lm -ldl")), { home := "/k", llvmHome := "/l" }⟩ :
      TargetProperties).list "linker_kiln_flags" = .ok ["-lm", "-ldl"] ∧
    (Platform.ofProperties ⟨.linuxX64, .table (listed.set "linker_kiln_flags" (.text "-lm -ldl")),
      { home := "/k", llvmHome := "/l" }⟩).map (·.flags .linkAlways) = .ok ["-lm", "-ldl"] := by
  have proper : ∀ word ∈ ["-lm", "-ldl"], IsWord word := by decide
  have set : listed.get? "linker_kiln_flags" = some (.array (["-lm", "-ldl"].map .text)) := rfl
  have respelled : listed.Respelled (listed.set "linker_kiln_flags" (.text "-lm -ldl")) :=
    Table.respelled_set set (.joined proper)
  obtain ⟨same, made, -⟩ :=
    spellings_interchangeable respelled .linuxX64 { home := "/k", llvmHome := "/l" }
  refine ⟨respelled, (same _).2.2, ?_⟩
  rw [made]
  rfl

end TargetProperties

end Foundry
