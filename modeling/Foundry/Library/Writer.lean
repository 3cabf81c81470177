import Foundry.Archive.Packed
import Foundry.Document.MessagePack.Writer
import Foundry.Library.Release
import Foundry.Properties.Load

/-! Writing libraries.

A library is laid out as a directory in a staging directory, and only `commit` moves it, or packs
it, to the place where it is published. Until then nothing outside the staging directory changes. -/
namespace Foundry

/-- A library that is being laid out. -/
structure LibraryWriter where
  /-- The place of the library, without the suffix of packed ones. -/
  output : Path
  name : String
  target : Target
  abiVersion : Int
  /-- Whether the library is left as a directory. -/
  unpacked : Bool
  depends : List String := []
  nativeTargets : List String := []
  properties : Table := []
  /-- Whether the staging directory was made for this library alone. -/
  ownsStaging : Bool
  staging : Path

namespace LibraryWriter

/-- The directory that becomes the library. -/
def root (w : LibraryWriter) : Path := w.staging.child w.output.name

def linkData (w : LibraryWriter) : Path := w.root.child "linkdata"

def targetDirectory (w : LibraryWriter) : Path := (w.root.child "targets").child w.target.name

/-- Where the library's own bitcode is. -/
def programDirectory (w : LibraryWriter) : Path := w.targetDirectory.child "program"

def nativeDirectory (w : LibraryWriter) : Path := w.targetDirectory.child "native"

def includedDirectory (w : LibraryWriter) : Path := w.targetDirectory.child "included"

/-- The file of the library's own bitcode. -/
def mainBitcode (w : LibraryWriter) : Path := w.programDirectory.child "program.bc"

/-- The file that a packed library is published as, if the output has a name. -/
def packedPath? (w : LibraryWriter) : Option Path :=
  w.output.withName? (w.output.name ++ librarySuffix)

def packedPath (w : LibraryWriter) : Run Path :=
  match w.packedPath? with
  | some path => pure path
  | none => throw (.emptyName w.output)

/-- Turn refused file operations into the fault of a library that cannot be written. -/
def reporting (path : Path) (reason : Refusal → String) (body : Run α) : Run α :=
  tryCatch body fun
    | .refusal r => Run.fault (.libraryNotWritten path.text (reason r))
    | other => throw other

/-- Lay out an empty library in place of what is left of an older one. -/
def layOut (w : LibraryWriter) : Run Unit := do
  if (← Files.lookStrictly w.root.text).isSome then Files.removeTree (.typed w.root.text)
  [w.linkData, w.programDirectory, w.nativeDirectory, w.includedDirectory].forM
    Files.makeDirectories

def stagingStem : String := "klib-"

/-- The staging directory that is given, or else a new one. -/
def stagingDirectory : Option String → Run String
  | none | some "" => Files.makeTemporaryDirectory stagingStem
  | some directory => pure directory

/-- Begin a library. Without a staging directory one is made, which then belongs to the library. -/
def start (output name : String) (target : Target) (abiVersion : Int) (unpacked : Bool)
    (staging : Option String) : Run LibraryWriter := do
  let directory ← stagingDirectory staging
  let w : LibraryWriter := {
    output := .ofText (Text.dropTail output librarySuffix)
    name, target, abiVersion, unpacked
    ownsStaging := staging.isNone
    staging := .ofText directory }
  reporting w.root Refusal.reason w.layOut
  pure w

def writeFile (w : LibraryWriter) (path : Path) (content : Bytes) : Run Unit :=
  reporting w.root Refusal.reason (Files.write path.text content)

def writeModule (w : LibraryWriter) (bitcode : Bytes) : Run Unit :=
  w.writeFile w.mainBitcode bitcode

def addLinkData (w : LibraryWriter) (data : Bytes) : Run Unit :=
  w.writeFile (w.linkData.child "module") data

def addEscapeAnalysis (w : LibraryWriter) (data : Bytes) : Run Unit :=
  w.writeFile (w.linkData.child "escape_analysis") data

def addDataFlowGraph (w : LibraryWriter) (data : Bytes) : Run Unit :=
  w.writeFile (w.linkData.child "dataflow_graph") data

def copyInto (w : LibraryWriter) (source : String) (directory : Path) : Run Unit :=
  reporting w.root (fun r => s!"{source}: {r.reason}")
    (Files.copy source (.typed (directory.child (Path.ofText source).name).text))

def addNative (w : LibraryWriter) (library : String) : Run LibraryWriter := do
  w.copyInto library w.nativeDirectory
  pure { w with nativeTargets := w.nativeTargets ++ [(Path.ofText library).name] }

def addIncluded (w : LibraryWriter) (library : String) : Run Unit :=
  w.copyInto library w.includedDirectory

/-- Add the entries of the user's manifest. -/
def addManifest (w : LibraryWriter) (file : String) : Run LibraryWriter := do
  let bad (reason : String) : String := s!"bad manifest file: {reason}"
  let content ← reporting w.root (fun r => bad r.text) (Files.read file)
  match Properties.parseBytes content with
  | .ok table => pure { w with properties := w.properties.update table }
  | .error .notToml => Run.fault (.libraryNotWritten w.root.text (bad Properties.notToml))
  | .error other => throw other

def addGivenManifest (w : LibraryWriter) : Option String → Run LibraryWriter
  | none | some "" => pure w
  | some file => w.addManifest file

/-- Record libraries that this one depends on. -/
def addDepends (w : LibraryWriter) (names : List String) : LibraryWriter :=
  { w with depends := w.depends ++ names }

def manifest (w : LibraryWriter) : Table := [
  ("unique_name", .text w.name),
  ("abi_version", .int w.abiVersion),
  ("compiler_version", .text programVersion),
  ("target", .text w.target.name),
  ("depends", .array (w.depends.map .text)),
  ("native_targets", .array (w.nativeTargets.map .text)),
  ("properties", .table w.properties)]

def packedManifest (w : LibraryWriter) : Run Bytes :=
  match MessagePack.pack (.table w.manifest) with
  | .ok bytes => pure bytes
  | .error e => throw (.unpackable e)

/-- What is at a location and below it as items of an archive under a name, at most `depth` levels
deep and without the file at `apart`. The items of a directory follow it by name. -/
def itemsOf (fs : FileSystem) (apart : Location) (place : Location) (name : String) :
    Nat → List Tar.Item
  | 0 => []
  | depth + 1 =>
    if place = apart then []
    else match fs.entry? place with
      | none => []
      | some (.file content) => [⟨name, some content⟩]
      | some .directory =>
        ⟨name, none⟩ :: (fs.names place).flatMap fun child =>
          itemsOf fs apart (place ++ [child]) (joinPaths name child) depth

/-- The path by which an item of the library is read. -/
def itemPath (w : LibraryWriter) (item : Tar.Item) : String :=
  w.root.text ++ Text.drop item.name w.output.name.length

/-- The items of the library as an archive that is written to a file. -/
def items (w : LibraryWriter) (fs : FileSystem) (archive : Path) :
    Except Refusal (List Tar.Item) := do
  let refused (errno : Errno) : Refusal := .system errno (.text w.root.text)
  let place ← (fs.locate w.root.text).mapError refused
  let apart ← (fs.locate archive.text).mapError refused
  let depth := (fs.entries.map fun (other, _) => other.length).foldl max 0
  match fs.entry? place with
  | none => .error (refused .noEntry)
  | some _ =>
    let found := itemsOf fs apart place w.output.name (depth + 1)
    match found.find? fun item => FileSystem.pathLimit ≤ (w.itemPath item).utf8ByteSize with
    | some item => .error (.system .nameTooLong (.text (w.itemPath item)))
    | none => .ok found

/-- Pack the library into a file of the staging directory. -/
def pack (w : LibraryWriter) (archive : Path) : Run Unit := do
  Files.write archive.text []
  let fs ← Files.current
  let items ← Run.ofExcept ((w.items fs archive).mapError .refusal)
  Files.write archive.text (Packed.write items)

/-- Drop what is laid out. Only a staging directory of the library's own is removed itself. -/
def discard (w : LibraryWriter) : Run Unit := do
  if w.ownsStaging then Files.discardTree w.staging.text
  else
    Files.discardTree w.root.text
    let packed ← w.packedPath
    Files.discardFile (w.staging.child packed.name).text

/-- Publish the layout: move the directory, or pack it and move the archive. -/
def publish (w : LibraryWriter) : Run Path := do
  if w.unpacked then
    if (← Files.lookStrictly w.output.text).isSome then Files.removeTree (.typed w.output.text)
    Files.move w.root.text w.output.text
    pure w.output
  else
    let packed ← w.packedPath
    let archive := w.staging.child packed.name
    w.pack archive
    Files.move archive.text packed.text
    pure packed

/-- Write the manifest and publish the library; what is laid out is dropped then, published or
not. -/
def commit (w : LibraryWriter) : Run Path := do
  w.writeFile (w.root.child manifestName) (← w.packedManifest)
  Run.ensuring (reporting w.output Refusal.text w.publish) w.discard

/-- What a library is built from, but for the binaries that are compiled for it. -/
structure Parts where
  natives : List String := []
  included : List String := []
  needed : List String := []
  linkData : Bytes := []
  module : Bytes := []
  manifestFile : Option String := none
  escapeAnalysis : Option Bytes := none
  dataFlowGraph : Option Bytes := none

def addNatives (w : LibraryWriter) : List String → Run LibraryWriter
  | [] => pure w
  | library :: rest => do
    let w ← w.addNative library
    w.addNatives rest

def build (output name : String) (target : Target) (abiVersion : Int) (unpacked : Bool)
    (staging : Option String) (parts : Parts) : Run LibraryWriter := do
  let w ← start output name target abiVersion unpacked staging
  w.writeModule parts.module
  w.addLinkData parts.linkData
  let w ← w.addNatives parts.natives
  parts.included.forM w.addIncluded
  let w ← (w.addDepends parts.needed).addGivenManifest parts.manifestFile
  parts.escapeAnalysis.forM w.addEscapeAnalysis
  parts.dataFlowGraph.forM w.addDataFlowGraph
  pure w

end LibraryWriter

end Foundry
