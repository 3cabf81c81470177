import Foundry.Proofs.Target.Triple

/-! The two names of 64-bit ARM. They stand for the same target but on Linux without the ABI of Android. There
only the beginning of the name is looked at, and `arm64` starts like the names of 32-bit ARM. -/
namespace Foundry

/-- A target of 32-bit ARM. -/
def Target.isArm32 (target : Target) : Bool := target = .raspberryPi || target = .androidArm32

namespace Triple

/-- The same system on another architecture. -/
def on (t : Triple) (arch : String) : Triple := { t with arch }

/-- A Linux whose ABI is not Android's. -/
def IsPlainLinux (t : Triple) : Prop := t.os = "linux" ∧ Text.startsWith t.abi "android" = false

instance (t : Triple) : Decidable t.IsPlainLinux :=
  inferInstanceAs (Decidable (t.os = "linux" ∧ Text.startsWith t.abi "android" = false))

variable {t : Triple} {arch : String}

theorem isPlainLinux_on : (t.on arch).IsPlainLinux ↔ t.IsPlainLinux := Iff.rfl

/-- Apart from plain Linux both names of 64-bit ARM are looked for before anything else is. -/
theorem target?_on_arm64 (arm : isArm64 arch = true) (other : ¬ t.IsPlainLinux) :
    (t.on arch).target? =
      if t.os = "ios" then some .iosArm64 else if t.os = "linux" then some .androidArm64 else none := by
  have names : arch = "arm64" ∨ arch = "aarch64" := by simpa [isArm64] using arm
  have wasm : arch ≠ "wasm32" := by rcases names with rfl | rfl <;> decide
  have intel : arch ≠ "x86_64" := by rcases names with rfl | rfl <;> decide
  by_cases linux : t.os = "linux"
  · have android : Text.startsWith t.abi "android" = true := by
      by_contra plain
      exact other ⟨linux, by simpa using plain⟩
    simp [target?, on, wasm, linux, android, arm]
  · by_cases ios : t.os = "ios"
    · simp [target?, on, wasm, ios, arm]
    · simp [target?, on, wasm, intel, linux, ios]

theorem target?_on_plainLinux (plain : t.IsPlainLinux) :
    (t.on "arm64").target? = some .raspberryPi ∧ (t.on "aarch64").target? = none := by
  obtain ⟨linux, android⟩ := plain
  have arm : Text.startsWith "arm64" "arm" = true := by decide
  have other : Text.startsWith "aarch64" "arm" = false := by decide
  constructor
  · simp [target?, on, linux, android, arm]
  · simp [target?, on, linux, android, other]

/-- The two names stand for different targets exactly on plain Linux, and exactly there one of them stands for
32-bit ARM. -/
theorem names_of_arm64 (t : Triple) :
    ((t.on "arm64").target? = (t.on "aarch64").target? ↔ ¬ t.IsPlainLinux) ∧
    ((t.on "arm64").target?.any Target.isArm32 = true ↔ t.IsPlainLinux) ∧
    (t.on "aarch64").target?.any Target.isArm32 = false := by
  by_cases plain : t.IsPlainLinux
  · obtain ⟨first, second⟩ := target?_on_plainLinux plain
    simp [first, second, plain, Target.isArm32]
  · have wide : Option.any Target.isArm32 (if t.os = "ios" then some .iosArm64 else
        if t.os = "linux" then some .androidArm64 else none) = false := by
      split
      · rfl
      · split <;> rfl
    rw [target?_on_arm64 (by decide) plain, target?_on_arm64 (by decide) plain, wide]
    simp [plain]

theorem split_on (clean : '-' ∉ arch.toList) (rest : String) :
    Text.split '-' (arch ++ "-" ++ rest) = arch :: Text.split '-' rest := by
  rw [Text.split_joined rfl, Text.split_of_not_mem clean, List.singleton_append]

/-- The architecture of a text is what stands before its first hyphen, and nothing else is read from there. -/
theorem parse_on (clean : '-' ∉ arch.toList) (rest : String) :
    parse (arch ++ "-" ++ rest) = (parse ("" ++ "-" ++ rest)).on arch := by
  rw [parse, parse, split_on clean, split_on (by simp)]
  simp [on]

theorem resolve?_on (clean : '-' ∉ arch.toList) (rest : String) :
    Target.resolve? (arch ++ "-" ++ rest) = ((parse ("" ++ "-" ++ rest)).on arch).target? := by
  rw [Target.resolve?_of_hyphen (by simp), parse_on clean]

/-- Triples that differ in the name of 64-bit ARM only stand for the same target, and none of them for 32-bit
ARM, exactly where the system is not Linux without the ABI of Android; and so do texts that are such triples. -/
theorem arm64_named_alike_iff (t : Triple) (rest : String) :
    (((t.on "arm64").target? = (t.on "aarch64").target? ↔ ¬ t.IsPlainLinux) ∧
      ((t.on "arm64").target?.any Target.isArm32 = true ↔ t.IsPlainLinux) ∧
      (t.on "aarch64").target?.any Target.isArm32 = false) ∧
    (Target.resolve? ("arm64" ++ "-" ++ rest) = Target.resolve? ("aarch64" ++ "-" ++ rest) ↔
      ¬ (parse ("arm64" ++ "-" ++ rest)).IsPlainLinux) ∧
    ((Target.resolve? ("arm64" ++ "-" ++ rest)).any Target.isArm32 = true ↔
      (parse ("arm64" ++ "-" ++ rest)).IsPlainLinux) ∧
    (Target.resolve? ("aarch64" ++ "-" ++ rest)).any Target.isArm32 = false := by
  refine ⟨names_of_arm64 t, ?_⟩
  have arm64 : '-' ∉ "arm64".toList := by decide
  have aarch64 : '-' ∉ "aarch64".toList := by decide
  rw [resolve?_on arm64, resolve?_on aarch64, parse_on arm64, isPlainLinux_on]
  exact names_of_arm64 (parse ("" ++ "-" ++ rest))

/-- A 64-bit ARM Linux is taken for a 32-bit one under one name and refused under the other. -/
theorem arm64_linux_taken_for_arm32 :
    (Triple.mk "arm64" "unknown" "linux" "gnu").target? = some .raspberryPi ∧
    (Triple.mk "aarch64" "unknown" "linux" "gnu").target? = none ∧
    Target.resolve? "arm64-unknown-linux-gnu" = some .raspberryPi ∧
    Target.resolve? "aarch64-unknown-linux-gnu" = none := by
  decide +kernel

end Triple

end Foundry
