import Foundry.Target.Basic

/-! Target triples, and the target that a name or a triple stands for. -/
namespace Foundry

/-- The parts of a triple. The operating system is without its version; `abi` may be empty. -/
structure Triple where
  arch : String
  vendor : String
  os : String
  abi : String
deriving DecidableEq, Repr

namespace Triple

def isVersionChar (c : Char) : Bool := c.isDigit || c = '.'

/-- The characters without a version at their end. A line feed after the version stays. -/
def dropVersion (chars : List Char) : List Char :=
  match chars.reverse with
  | '\n' :: body => (body.dropWhile isVersionChar).reverse ++ ['\n']
  | body => (body.dropWhile isVersionChar).reverse

/-- An operating system without its version, unless nothing else is there. -/
def withoutVersion (os : String) : String :=
  match dropVersion os.toList with
  | [] => os
  | chars => String.ofList chars

/-- Read a triple; parts that are not given are `unknown`, and what follows the fourth part is
ignored. -/
def parse (text : String) : Triple :=
  let parts := Text.split '-' text
  { arch := parts[0]?.getD "unknown"
    vendor := parts[1]?.getD "unknown"
    os := withoutVersion (parts[2]?.getD "unknown")
    abi := parts[3]?.getD "" }

def text (t : Triple) : String :=
  String.intercalate "-" ([t.arch, t.vendor, t.os] ++ if t.abi = "" then [] else [t.abi])

/-- Whether an architecture is 64-bit ARM, which has two names. -/
def isArm64 (arch : String) : Bool := arch = "arm64" || arch = "aarch64"

/-- The target that a triple describes, if it is one of ours. -/
def target? (t : Triple) : Option Target :=
  if t.arch = "wasm32" then some .wasm32
  else if t.os = "darwin" ∨ t.os = "macosx" ∨ t.os = "macos" then
    if t.arch = "x86_64" then some .macosX64 else none
  else if t.os = "ios" then
    if isArm64 t.arch then some .iosArm64
    else if t.arch = "x86_64" then some .iosX64
    else none
  else if t.os = "linux" then
    if Text.startsWith t.abi "android" then
      if isArm64 t.arch then some .androidArm64
      else if Text.startsWith t.arch "arm" then some .androidArm32
      else none
    else if t.arch = "x86_64" then some .linuxX64
    else if t.arch = "mips" then some .linuxMips32
    else if t.arch = "mipsel" then some .linuxMipsel32
    else if Text.startsWith t.arch "arm" then some .raspberryPi
    else none
  else if (t.os = "mingw" ∨ t.os = "windows") ∧ t.arch = "x86_64" then some .mingwX64
  else none

end Triple

namespace Target

/-- The target that a name in any case, or else a triple, stands for. Only a text with a hyphen is
read as a triple. -/
def resolve? (name : String) : Option Target :=
  match ofName? (Text.asciiLower name) with
  | some target => some target
  | none => if name.toList.contains '-' then (Triple.parse name).target? else none

end Target

end Foundry
