import Foundry.Proofs.Build.Scope
import Foundry.Proofs.Text.Split

/-! What a linker is told in place of arguments that a compiler would hand on to it. Such an argument holds,
with commas between them, the pieces that are meant for the linker, and a linker that is run by itself is told
these. All others are told as they are, and nothing that is told has to be taken apart once more. -/
namespace Foundry

/-- A compiler would hand the argument on to the linker. -/
def IsHandedOn (arg : String) : Prop := ∃ text, arg = handedOn ++ text

instance (arg : String) : Decidable (IsHandedOn arg) := decidable_of_iff _ Text.startsWith_iff

/-- What the linker is told by one argument: the argument itself, or the pieces that it holds. -/
inductive Tells : (arg : String) → (told : List String) → Prop where
  | own : ¬ IsHandedOn arg → Tells arg [arg]
  | pieces : pieces ≠ [] → (∀ piece ∈ pieces, ',' ∉ piece.toList) →
      Tells (handedOn ++ String.intercalate "," pieces) pieces

/-- What the linker is told by each of the arguments. -/
abbrev TellsEach (args : List String) (groups : List (List String)) : Prop := List.Forall₂ Tells args groups

section
variable {arg : String} {args told : List String} {groups : List (List String)}

/-- What marks an argument that is handed on ends in a comma. -/
theorem not_isHandedOn (clean : ',' ∉ arg.toList) : ¬ IsHandedOn arg := by
  rintro ⟨text, rfl⟩
  apply clean
  rw [String.toList_append]
  exact List.mem_append_left _ (by decide)

/-- An argument that is handed on holds all that stands between the commas behind the mark. -/
theorem tells_split (text : String) : Tells (handedOn ++ text) (Text.split ',' text) := by
  have tells := Tells.pieces (Text.split_nonempty ',' text) fun piece => Text.not_mem_of_mem_split
  rwa [Text.intercalate_split rfl] at tells

theorem exists_tells (arg : String) : ∃ told, Tells arg told := by
  by_cases handed : IsHandedOn arg
  · obtain ⟨text, rfl⟩ := handed
    exact ⟨_, tells_split text⟩
  · exact ⟨_, .own handed⟩

theorem exists_tellsEach (args : List String) : ∃ groups, TellsEach args groups := by
  induction args with
  | nil => exact ⟨[], .nil⟩
  | cons arg rest ih =>
      obtain ⟨told, tells⟩ := exists_tells arg
      obtain ⟨groups, each⟩ := ih
      exact ⟨told :: groups, .cons tells each⟩

/-- No piece is an argument to be handed on, even where the mark stands among the pieces again. -/
theorem Tells.not_isHandedOn (tells : Tells arg told) : ∀ piece ∈ told, ¬ IsHandedOn piece := by
  intro piece member
  cases tells with
  | own other => rwa [List.mem_singleton.mp member]
  | pieces _ clean => exact Foundry.not_isHandedOn (clean piece member)

theorem TellsEach.not_isHandedOn (each : TellsEach args groups) :
    ∀ piece ∈ groups.flatten, ¬ IsHandedOn piece := by
  induction each with
  | nil => exact fun _ => nofun
  | cons tells _ ih =>
      rw [List.flatten_cons, List.forall_mem_append]
      exact ⟨tells.not_isHandedOn, ih⟩

/-- Arguments that are not handed on tell themselves. -/
theorem tellsEach_own (own : ∀ arg ∈ args, ¬ IsHandedOn arg) : TellsEach args (args.map ([·])) := by
  induction args with
  | nil => exact .nil
  | cons arg rest ih =>
      obtain ⟨other, own⟩ := List.forall_mem_cons.mp own
      exact .cons (.own other) (ih own)

/-- The arguments that are not handed on stand in their order in what is told. -/
theorem TellsEach.own_sublist (each : TellsEach args groups) :
    (args.filter (¬ IsHandedOn ·)).Sublist groups.flatten := by
  induction each with
  | nil => exact List.Sublist.refl _
  | cons tells _ ih =>
      rw [List.flatten_cons]
      cases tells with
      | own other =>
          rw [List.filter_cons_of_pos (by simpa using other)]
          exact ih.cons_cons _
      | pieces _ _ =>
          rw [List.filter_cons_of_neg (by simpa using ⟨_, rfl⟩)]
          exact ih.trans (List.sublist_append_right _ _)

end

/-- Linkers are run by a compiler for Android and for Windows. -/
theorem Platform.linksByCompiler_iff {properties : TargetProperties} {p : Platform}
    (made : Platform.ofProperties properties = .ok p) : p.linksByCompiler = true ↔
      properties.target.family = .android ∨ properties.target.family = .mingw := by
  obtain ⟨-, -, chosen⟩ := Platform.ofProperties_of_ok made
  rw [← Platform.recipeFor_family chosen]
  cases recipe : p.recipe <;> simp [Platform.linksByCompiler, Recipe.family, recipe]

namespace Setup
variable {setup : Setup}

theorem linkerArguments_of_compiler (compiler : setup.platform.linksByCompiler = true) (args : List String) :
    setup.linkerArguments args = args := by
  rw [linkerArguments, if_pos compiler]

section Direct
variable (direct : setup.platform.linksByCompiler = false)
include direct

theorem linkerArguments_append (first second : List String) :
    setup.linkerArguments (first ++ second) =
      setup.linkerArguments first ++ setup.linkerArguments second := by
  simp only [linkerArguments, direct, Bool.false_eq_true, if_false, List.flatMap_append]

theorem linkerArguments_single {arg : String} {told : List String} (tells : Tells arg told) :
    setup.linkerArguments [arg] = told := by
  cases tells with
  | own other =>
      have unmarked : Text.startsWith arg handedOn = false :=
        Bool.eq_false_iff.mpr fun starts => other (Text.startsWith_iff.mp starts)
      simp [linkerArguments, direct, unmarked]
  | pieces nonempty clean =>
      have marked : Text.startsWith (handedOn ++ String.intercalate "," told) handedOn = true :=
        Text.startsWith_iff.mpr ⟨_, rfl⟩
      have parts := Text.split_intercalate (show ",".toList = [','] from rfl) nonempty clean
      simp [linkerArguments, direct, marked, Text.drop_append, parts]

/-- What is told in place of an argument that is handed on is, joined again, what it hands on. -/
theorem intercalate_linkerArguments (text : String) :
    String.intercalate "," (setup.linkerArguments [handedOn ++ text]) = text := by
  rw [linkerArguments_single direct (tells_split text), Text.intercalate_split rfl]

/-- What is told by all arguments is what is told by each of them, one after another. -/
theorem linkerArguments_flatten {args : List String} {groups : List (List String)}
    (each : TellsEach args groups) : setup.linkerArguments args = groups.flatten := by
  induction each with
  | nil => simp [linkerArguments]
  | cons tells _ ih =>
      rw [List.flatten_cons, ← ih, ← linkerArguments_single direct tells]
      exact linkerArguments_append direct [_] _

theorem linkerArguments_own {args : List String} (own : ∀ arg ∈ args, ¬ IsHandedOn arg) :
    setup.linkerArguments args = args := by
  rw [linkerArguments_flatten direct (tellsEach_own own), ← List.flatMap_def, List.flatMap_singleton']

end Direct

/-- A linker that a compiler runs, as one does for Android and for Windows, is told all arguments as they
are. One that is run by itself is told what the arguments tell one after another: the arguments that are not
handed on, in their order, and in the place of any other argument the pieces that it holds, which no comma
parts any more. So what is told stays as it is when it is taken apart again. -/
theorem arguments_taken_apart (setup : Setup) :
    (∀ job : Job, job.setup = .ok setup → (setup.platform.linksByCompiler = true ↔
      job.config.target.family = .android ∨ job.config.target.family = .mingw)) ∧
    (setup.platform.linksByCompiler = true → ∀ args, setup.linkerArguments args = args) ∧
    (setup.platform.linksByCompiler = false →
      (∀ first second, setup.linkerArguments (first ++ second) =
        setup.linkerArguments first ++ setup.linkerArguments second) ∧
      (∀ text, String.intercalate "," (setup.linkerArguments [handedOn ++ text]) = text) ∧
      ∀ args,
        (∀ arg ∈ setup.linkerArguments args, ¬ IsHandedOn arg) ∧
        setup.linkerArguments (setup.linkerArguments args) = setup.linkerArguments args ∧
        (args.filter (¬ IsHandedOn ·)).Sublist (setup.linkerArguments args) ∧
        ∃ groups, TellsEach args groups ∧ setup.linkerArguments args = groups.flatten) := by
  refine ⟨?families, linkerArguments_of_compiler, fun direct =>
    ⟨linkerArguments_append direct, intercalate_linkerArguments direct, fun args => ?apart⟩⟩
  case families =>
    intro job ready
    obtain ⟨-, properties, given, made⟩ := Job.setup_of_ok ready
    rw [Platform.linksByCompiler_iff made, Job.target_of_forTarget given]
  case apart =>
    obtain ⟨groups, each⟩ := exists_tellsEach args
    have told := linkerArguments_flatten direct each
    have plain : ∀ arg ∈ setup.linkerArguments args, ¬ IsHandedOn arg := by
      rw [told]
      exact each.not_isHandedOn
    have own : (args.filter (¬ IsHandedOn ·)).Sublist (setup.linkerArguments args) := by
      rw [told]
      exact each.own_sublist
    exact ⟨plain, linkerArguments_own direct plain, own, groups, each, told⟩

/-- A program for a target of which little is known. -/
def ofTarget (target : Target) : Job where
  config := { target, produce := .kind .program, outputName := "program" }
  properties := {
    data := [("targets", .table [(target.name, .table [
      ("target_toolchain", .text "toolchain"), ("target_sysroot", .text "sysroot")])])]
    path := "kiln.toml"
    sources := ["kiln.toml"]
    distribution := { home := "/home", llvmHome := "/llvm" } }

/-- Arguments with an empty piece, with nothing but the mark, and with the mark twice and a comma at the
end. -/
def markedArguments : List String := ["-Wl,-z,,now", "-lm", "-Wl,", "-Wl,-Wl,x,"]

/-- The linker of macOS is told the pieces, which are not taken apart again, and that of Android the
arguments. -/
theorem pieces_told_on_macos : ∃ direct compiler,
    (ofTarget .macosX64).setup = .ok direct ∧ (ofTarget .androidArm64).setup = .ok compiler ∧
    direct.linkerArguments markedArguments = ["-z", "", "now", "-lm", "", "-Wl", "x", ""] ∧
    direct.linkerArguments (direct.linkerArguments markedArguments) =
      direct.linkerArguments markedArguments ∧
    compiler.linkerArguments markedArguments = markedArguments := by
  have pieces : (ofTarget .macosX64).setup.map (·.linkerArguments markedArguments) =
      .ok ["-z", "", "now", "-lm", "", "-Wl", "x", ""] := by
    decide
  obtain ⟨direct, ready, told⟩ := except_map_eq_ok.mp pieces
  have android : (ofTarget .androidArm64).setup.map (fun _ => ()) = .ok () := by decide
  obtain ⟨compiler, ready', -⟩ := except_map_eq_ok.mp android
  obtain ⟨families, -, apart⟩ := arguments_taken_apart direct
  obtain ⟨families', whole, -⟩ := arguments_taken_apart compiler
  have byItself : direct.platform.linksByCompiler = false :=
    Bool.eq_false_iff.mpr ((families _ ready).not.mpr (by decide))
  have byCompiler : compiler.platform.linksByCompiler = true := (families' _ ready').mpr (by decide)
  obtain ⟨-, again, -⟩ := (apart byItself).2.2 markedArguments
  exact ⟨direct, compiler, ready, ready', told, again, whole byCompiler _⟩

end Setup
end Foundry
