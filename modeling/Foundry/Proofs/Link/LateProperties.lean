import Foundry.Build.Link
import Foundry.Proofs.Run

/-! Required properties that are not read with the platform but with its link command. They are the
only ones whose absence the platform of a target does not tell. -/
namespace Foundry

namespace TargetProperties

/-- Whether a required property has no value. -/
def isUnset (p : TargetProperties) (name : String) : Bool :=
  match p.value? name with
  | .ok none | .ok (some .null) => true
  | _ => false

theorem text_error_iff {p : TargetProperties} (tabled : p.table = .table entries) (name : String) :
    p.text name = .error e ↔
      p.isUnset name ∧ e = .fault (.missingProperty name p.target) := by
  have given : p.value? name = .ok (Table.get? entries name) := by simp only [value?, tabled]
  simp only [text, isUnset, given, bind, Except.bind]
  cases Table.get? entries name with
  | none => simp [eq_comm]
  | some value => cases value <;> simp [eq_comm]

theorem text_bind_error_iff {p : TargetProperties} (tabled : p.table = .table entries)
    (name : String) {next : String → Except Failure α} {P : Prop}
    (rest : ∀ text, next text = .error e ↔ P) :
    (p.text name >>= next) = .error e ↔
      if p.isUnset name then e = .fault (.missingProperty name p.target) else P := by
  have failing := text_error_iff (e := e) tabled name
  cases read : p.text name with
  | ok text =>
      have set : p.isUnset name = false := by
        have failing' := text_error_iff (e := .fault (.missingProperty name p.target)) tabled name
        simpa [read] using failing'
      simp [bind, Except.bind, rest, set]
  | error other =>
      obtain ⟨unset, rfl⟩ := (text_error_iff tabled name).mp read
      simp [bind, Except.bind, unset, eq_comm]

end TargetProperties

/-- The family of targets that is linked by the recipe. -/
def Recipe.family : Recipe → Family
  | .gold .. => .linux
  | .apple .. => .apple
  | .android => .android
  | .mingw => .mingw
  | .copy => .wasm

/-- The required properties that a recipe reads with the link command, first one first. -/
def Recipe.lateProperties : Recipe → List String
  | .gold .. => ["dynamic_linker"]
  | .apple .. => ["arch", "os_version_min_flag_ld", "os_version_min"]
  | .android | .mingw | .copy => []

namespace Platform

/-- The first required property that the link command needs and that has no value. -/
def unsetLate? (p : Platform) : Option String :=
  p.recipe.lateProperties.find? p.properties.isUnset

variable {p : Platform} {properties : TargetProperties}

theorem recipeFor_family {root : String} {recipe : Recipe}
    (chosen : recipeFor properties root = .ok recipe) : recipe.family = properties.target.family := by
  unfold recipeFor at chosen
  cases family : properties.target.family <;> simp only [family] at chosen
  case linux =>
    obtain ⟨libGcc, -, chosen⟩ := except_bind_eq_ok.mp chosen
    obtain ⟨pluginFlags, -, chosen⟩ := except_bind_eq_ok.mp chosen
    obtain ⟨specific, -, chosen⟩ := except_bind_eq_ok.mp chosen
    rw [← except_pure_eq_ok.mp chosen, Recipe.family]
  all_goals rw [← except_pure_eq_ok.mp chosen, Recipe.family]

/-- A platform can be had only from a table, and keeps the properties that it is made of. -/
theorem ofProperties_of_ok (made : ofProperties properties = .ok p) :
    p.properties = properties ∧ (∃ entries, properties.table = .table entries) ∧
      recipeFor properties p.sysroot = .ok p.recipe := by
  obtain ⟨plain, read, made⟩ := except_bind_eq_ok.mp made
  obtain ⟨_, _, made⟩ := except_bind_eq_ok.mp made
  obtain ⟨_, _, made⟩ := except_bind_eq_ok.mp made
  obtain ⟨_, _, made⟩ := except_bind_eq_ok.mp made
  obtain ⟨_, _, made⟩ := except_bind_eq_ok.mp made
  obtain ⟨_, _, made⟩ := except_bind_eq_ok.mp made
  obtain ⟨_, _, made⟩ := except_bind_eq_ok.mp made
  obtain ⟨_, _, made⟩ := except_bind_eq_ok.mp made
  obtain ⟨_, _, made⟩ := except_bind_eq_ok.mp made
  obtain ⟨_, _, made⟩ := except_bind_eq_ok.mp made
  obtain ⟨_, _, made⟩ := except_bind_eq_ok.mp made
  obtain ⟨sysroot, _, made⟩ := except_bind_eq_ok.mp made
  obtain ⟨_, _, made⟩ := except_bind_eq_ok.mp made
  obtain ⟨recipe, chosen, made⟩ := except_bind_eq_ok.mp made
  cases made
  refine ⟨rfl, ?_, chosen⟩
  unfold TargetProperties.flags TargetProperties.list TargetProperties.value? at read
  cases tabled : properties.table with
  | table entries => exact ⟨entries, rfl⟩
  | _ => simp [tabled, bind, Except.bind] at read

/-- The link command cannot be put together exactly where a property that it needs has no value, and
it is the first such property that is missed. -/
theorem linkCommand_error_iff (tabled : p.properties.table = .table entries)
    (objects : List String) (output : String) (switches : Switches) (archives : List String) :
    p.linkCommand objects output switches archives = .error e ↔
      ∃ name, p.unsetLate? = some name ∧ e = .fault (.missingProperty name p.target) := by
  have reading : ∀ name (next : String → Except Failure Command) (P : Prop),
      (∀ text, next text = .error e ↔ P) →
        ((p.properties.text name >>= next) = .error e ↔
          if p.properties.isUnset name then e = .fault (.missingProperty name p.target) else P) :=
    fun name _ _ => p.properties.text_bind_error_iff tabled name
  unfold linkCommand unsetLate?
  cases p.recipe with
  | gold llvmLib libGcc pluginFlags specificLibs =>
      rw [reading _ _ False (by simp [pure, Except.pure])]
      cases unset : p.properties.isUnset "dynamic_linker" <;>
        simp [Recipe.lateProperties, unset, target]
  | apple dsymutil libLto =>
      simp only [osVersionFlags, TargetProperties.osVersionMin, bind_assoc, pure_bind]
      rw [reading _ _ _ fun _ => reading _ _ _ fun _ => reading _ _ False fun _ => by
        simp [pure, Except.pure]]
      cases arch : p.properties.isUnset "arch" <;>
        cases flag : p.properties.isUnset "os_version_min_flag_ld" <;>
        cases version : p.properties.isUnset "os_version_min" <;>
        simp [Recipe.lateProperties, arch, flag, version, target]
  | android => simp [Recipe.lateProperties, pure, Except.pure]
  | mingw => simp [Recipe.lateProperties, pure, Except.pure]
  | copy => simp [Recipe.lateProperties, pure, Except.pure]

end Platform

end Foundry
