import Foundry.Main
import Foundry.Process.Rehearsal
import Foundry.Proofs.Files.Frame
import Foundry.Proofs.Process.History
import Foundry.Proofs.Process.Executor
import Foundry.Proofs.Build.RunDirectory
import Foundry.Proofs.Library.Frame
import Foundry.Proofs.Build.Compile
import Foundry.Proofs.Build.Archives
import Foundry.Proofs.Build.FailStop
import Foundry.Proofs.Build.LateFailure
import Foundry.Proofs.Build.LibraryInputs
import Foundry.Proofs.Build.Scope
import Foundry.Proofs.Archive.Gzip
import Foundry.Proofs.Archive.Tar
import Foundry.Proofs.Build.LibraryConfinement
import Foundry.Proofs.Build.LibraryFailure
import Foundry.Proofs.Build.LibraryIntermediates
import Foundry.Proofs.Document.MessagePack
import Foundry.Proofs.FileSystem.Regular
import Foundry.Proofs.Library.Archive
import Foundry.Proofs.Build.FailedLink
import Foundry.Proofs.Build.Provenance
import Foundry.Proofs.Build.Reported
import Foundry.Proofs.CommandLine.ExitStatus
import Foundry.Proofs.Document.Merge
import Foundry.Proofs.Document.Toml
import Foundry.Proofs.Files.Listing
import Foundry.Proofs.Library.Committed
import Foundry.Proofs.Properties.Layers
import Foundry.Proofs.CommandLine.Verbosity
import Foundry.Proofs.Build.Escape
import Foundry.Proofs.CommandLine.Escape
import Foundry.Proofs.Text.Ascii
import Foundry.Proofs.Text.Line
import Foundry.Proofs.Process.Diagnostics
import Foundry.Proofs.Build.LinkCommand
import Foundry.Proofs.Build.NativeBitcode
import Foundry.Proofs.Files.Refusal
import Foundry.Proofs.Library.Building
import Foundry.Proofs.Library.Leaving
import Foundry.Proofs.Library.Contract
import Foundry.Proofs.Document.KeyPath
import Foundry.Proofs.Text.Words
import Foundry.Proofs.Properties.Spelling
import Foundry.Proofs.Properties.Blame
import Foundry.Proofs.Properties.NativeLibraries
import Foundry.Proofs.Target.Arm
import Foundry.Proofs.Artifact.Naming
import Foundry.Proofs.Library.Naming
import Foundry.Proofs.Link.Switches
import Foundry.Proofs.Build.WebAssembly
import Foundry.Proofs.Build.FrameworkLayout
import Foundry.Proofs.CommandLine.LibraryInfo
import Foundry.Proofs.CommandLine.LibraryOption
import Foundry.Proofs.Diagnostic.Emission
import Foundry.Proofs.Diagnostic.Color
import Foundry.Proofs.Build.Lifecycle
import Foundry.Proofs.Build.LinkerArguments
