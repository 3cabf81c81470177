import Foundry.Document.Shown
import Foundry.Properties.Distribution
import Foundry.Text.Blank

/-! The properties of one target: texts and lists of texts by name. A list may be written as one
text with blanks between the items, and a text as a list. -/
namespace Foundry

/-- The table of a target's properties, which the properties file may have set to anything. -/
structure TargetProperties where
  target : Target
  table : Value
  distribution : Distribution

inductive FlagSet where
  | compilePlain
  | compileOptimized
  | compileDebug
  | entrySelector
  | linkOptimized
  | linkAlways
  | linkNoDebug
  | linkDynamic
  | assembler
  | clang
deriving DecidableEq, Repr

def FlagSet.property : FlagSet → String
  | compilePlain => "llvm_lto_noopt_flags"
  | compileOptimized => "llvm_lto_opt_flags"
  | compileDebug => "llvm_debug_opt_flags"
  | entrySelector => "entry_selector"
  | linkOptimized => "linker_optimization_flags"
  | linkAlways => "linker_kiln_flags"
  | linkNoDebug => "linker_no_debug_flags"
  | linkDynamic => "linker_dynamic_flags"
  | assembler => "s2wasm_flags"
  | clang => "clang_flags"

def FlagSet.all : List FlagSet :=
  [compilePlain, compileOptimized, compileDebug, entrySelector, linkOptimized, linkAlways,
    linkNoDebug, linkDynamic, assembler, clang]

def FlagSet.ofProperty? (name : String) : Option FlagSet := all.find? (·.property = name)

namespace TargetProperties

def value? (p : TargetProperties) (name : String) : Except Failure (Option Value) :=
  match p.table with
  | .table entries => .ok (Table.get? entries name)
  | _ => .error .lacksMember

/-- A property as a text. -/
def textOf : Value → String
  | .array items => String.intercalate " " (items.map Value.plain)
  | value => value.plain

/-- A property as a list. -/
def listOf : Value → List String
  | .array items => items.map Value.plain
  | value => Text.words value.plain

/-- A text property, which must be set. -/
def text (p : TargetProperties) (name : String) : Except Failure String := do
  match ← p.value? name with
  | none | some .null => .error (.fault (.missingProperty name p.target))
  | some value => .ok (textOf value)

/-- A text property, if it is set. -/
def text? (p : TargetProperties) (name : String) : Except Failure (Option String) :=
  match p.table with
  | .table entries => if Table.has entries name then (p.text name).map some else .ok none
  | .text s => if Text.contains s name then .error .lacksMember else .ok none
  | .array items => if items.any (·.isText name) then .error .lacksMember else .ok none
  | _ => .error .wrongKind

/-- A list property; it is empty if it is not set. -/
def list (p : TargetProperties) (name : String) : Except Failure (List String) := do
  match ← p.value? name with
  | none | some .null => .ok []
  | some value => .ok (listOf value)

def flags (p : TargetProperties) (set : FlagSet) : Except Failure (List String) :=
  p.list set.property

def toolchain (p : TargetProperties) : Except Failure String :=
  (p.text "target_toolchain").map p.distribution.absolute

def sysroot (p : TargetProperties) : Except Failure String :=
  (p.text "target_sysroot").map p.distribution.absolute

def libffi? (p : TargetProperties) : Except Failure (Option String) := p.text? "libffi_dir"

def absoluteLibffi? (p : TargetProperties) : Except Failure (Option String) :=
  p.libffi?.map fun dir => dir.map p.distribution.absolute

def osVersionMin (p : TargetProperties) : Except Failure String := p.text "os_version_min"

end TargetProperties

end Foundry
