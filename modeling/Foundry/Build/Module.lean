import Foundry.Text.Utf8

/-! Bitcode modules. The compiler library that reads and links them is reduced to what a build can
tell of it: a module is its bitcode, linking puts modules together in order, and some modules are
refused. -/
namespace Foundry.Module

/-- Read a module from bitcode, or say why it is refused. -/
def parse (bitcode : Bytes) : Except String Bytes :=
  if (Utf8.encode "BAD").isPrefixOf bitcode then .error "bad module" else .ok bitcode

/-- Read a module from assembly text, or say why it is refused. -/
def assemble (text : String) : Except String Bytes :=
  (parse (Utf8.encode text)).map fun bitcode => Utf8.encode "asm:" ++ bitcode

/-- A module with another one linked into it, or why that one is refused. -/
def link (module other : Bytes) : Except String Bytes :=
  if (Utf8.encode "NOLINK").isPrefixOf other then .error "cannot link"
  else .ok (module ++ Utf8.encode "+" ++ other)

end Foundry.Module
