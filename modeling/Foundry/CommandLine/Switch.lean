import Foundry.Artifact.Kind

/-! The options of the command line: how each is spelled and whether it takes an argument. -/
namespace Foundry.CommandLine

inductive Switch where
  | help
  | version
  | out
  | target
  | produce
  | optimize
  | debug
  | noMain
  | noPack
  | linkerOption
  | nativeLibrary
  | defaultNativeLibrary
  | runtime
  | includeBinary
  | library
  | defaultLibrary
  | libraryLinkerOption
  | depends
  | manifest
  | linkData
  | adapter
  | properties
  | onlyDefaultProfiles
  | moduleName
  | verbose
  | libraryInfo
deriving DecidableEq, Repr

namespace Switch

/-- All options, in the order in which they are listed. -/
def all : List Switch :=
  [help, version, out, target, produce, optimize, debug, noMain, noPack, linkerOption,
    nativeLibrary, defaultNativeLibrary, runtime, includeBinary, library, defaultLibrary,
    libraryLinkerOption, depends, manifest, linkData, adapter, properties, onlyDefaultProfiles,
    moduleName, verbose, libraryInfo]

def spellings : Switch → List String
  | help => ["-h", "--help"]
  | version => ["--version"]
  | out => ["-o", "--out"]
  | target => ["--target"]
  | produce => ["--produce"]
  | optimize => ["--opt"]
  | debug => ["-g", "--debug"]
  | noMain => ["--nomain"]
  | noPack => ["--nopack"]
  | linkerOption => ["--linker-option"]
  | nativeLibrary => ["--native-library"]
  | defaultNativeLibrary => ["--default-native-library"]
  | runtime => ["--runtime"]
  | includeBinary => ["--include-binary"]
  | library => ["--library"]
  | defaultLibrary => ["--default-library"]
  | libraryLinkerOption => ["--library-linker-option"]
  | depends => ["--depends"]
  | manifest => ["--manifest"]
  | linkData => ["--link-data"]
  | adapter => ["--c-adapter"]
  | properties => ["--properties"]
  | onlyDefaultProfiles => ["--only-default-profiles"]
  | moduleName => ["--module-name"]
  | verbose => ["--verbose"]
  | libraryInfo => ["--lib-info"]

def takesArgument : Switch → Bool
  | help | version | optimize | debug | noMain | noPack | onlyDefaultProfiles | verbose => false
  | _ => true

/-- The name of an option in messages: all its spellings. -/
def name (switch : Switch) : String := String.intercalate "/" switch.spellings

def spelled : List (String × Switch) :=
  all.flatMap fun switch => switch.spellings.map fun spelling => (spelling, switch)

/-- The option that is spelled exactly so. -/
def ofSpelling? (spelling : String) : Option Switch := spelled.lookup spelling

end Switch

end Foundry.CommandLine
