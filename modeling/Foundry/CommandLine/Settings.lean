import Foundry.CommandLine.Switch

/-! What the options of a command line come to. -/
namespace Foundry.CommandLine

inductive Argument where
  | text (s : String)
  /-- A lone `--` that is attached to its option stands for no argument at all. -/
  | nothing
deriving DecidableEq, Repr

def Argument.text? : Argument → Option String
  | text s => some s
  | nothing => none

/-- The settings of a command line; options that can be repeated collect their arguments in
order. -/
structure Settings where
  source : Option String := none
  version : Bool := false
  out : Option Argument := none
  target : Option Argument := none
  produce : Argument := .text ArtifactKind.program.name
  optimize : Bool := false
  debug : Bool := false
  noMain : Bool := false
  noPack : Bool := false
  linkerOptions : List Argument := []
  nativeLibraries : List Argument := []
  defaultNativeLibraries : List Argument := []
  runtime : Option Argument := none
  includedBinaries : List Argument := []
  libraries : List Argument := []
  defaultLibraries : List Argument := []
  libraryLinkerOptions : List Argument := []
  depends : List Argument := []
  manifest : Option Argument := none
  linkData : Option Argument := none
  adapter : Option Argument := none
  properties : Option Argument := none
  onlyDefaultProfiles : Bool := false
  moduleName : Argument := .text "main"
  verbose : Bool := false
  libraryInfo : Option Argument := none
deriving DecidableEq, Repr

namespace Settings

/-- The settings with one more option. Of an option that cannot be repeated the last argument
counts; options without an argument ignore it. -/
def set (s : Settings) (switch : Switch) (argument : Argument) : Settings :=
  match switch with
  | .help => s
  | .version => { s with version := true }
  | .out => { s with out := some argument }
  | .target => { s with target := some argument }
  | .produce => { s with produce := argument }
  | .optimize => { s with optimize := true }
  | .debug => { s with debug := true }
  | .noMain => { s with noMain := true }
  | .noPack => { s with noPack := true }
  | .linkerOption => { s with linkerOptions := s.linkerOptions ++ [argument] }
  | .nativeLibrary => { s with nativeLibraries := s.nativeLibraries ++ [argument] }
  | .defaultNativeLibrary =>
    { s with defaultNativeLibraries := s.defaultNativeLibraries ++ [argument] }
  | .runtime => { s with runtime := some argument }
  | .includeBinary => { s with includedBinaries := s.includedBinaries ++ [argument] }
  | .library => { s with libraries := s.libraries ++ [argument] }
  | .defaultLibrary => { s with defaultLibraries := s.defaultLibraries ++ [argument] }
  | .libraryLinkerOption =>
    { s with libraryLinkerOptions := s.libraryLinkerOptions ++ [argument] }
  | .depends => { s with depends := s.depends ++ [argument] }
  | .manifest => { s with manifest := some argument }
  | .linkData => { s with linkData := some argument }
  | .adapter => { s with adapter := some argument }
  | .properties => { s with properties := some argument }
  | .onlyDefaultProfiles => { s with onlyDefaultProfiles := true }
  | .moduleName => { s with moduleName := argument }
  | .verbose => { s with verbose := true }
  | .libraryInfo => { s with libraryInfo := some argument }

end Settings

end Foundry.CommandLine
