import Vendoring.Failure
import Vendoring.Files.Tree
import Vendoring.Main
import Vendoring.Proofs.Archive.Links
import Vendoring.Proofs.Archive.Needed
import Vendoring.Proofs.Archive.Providers
import Vendoring.Proofs.Pom.Spellings
import Vendoring.Proofs.Pom.Written
import Vendoring.Proofs.Publication.Announced
import Vendoring.Proofs.Publication.Repeated
import Vendoring.Proofs.Subproject.Runs
import Vendoring.Proofs.Archive.Provenance
import Vendoring.Proofs.Configuration.Operations
import Vendoring.Proofs.Configuration.Registered
import Vendoring.Proofs.Packaging.Stages
import Vendoring.Proofs.Text.ByteOrder
import Vendoring.Proofs.Packaging.Provenance
import Vendoring.Proofs.Build.Stages
import Vendoring.Proofs.Build.FileNames
import Vendoring.Proofs.Build.Isolation
import Vendoring.Proofs.Build.Failures
import Vendoring.Proofs.Publication.Switching
import Vendoring.Proofs.Configuration.Repeated
import Vendoring.Proofs.Archive.Merged
import Vendoring.Proofs.Coordinate.Written
import Vendoring.Proofs.Json.Readback
import Vendoring.Proofs.Json.Decoded
import Vendoring.Proofs.Json.Spelling
import Vendoring.Proofs.Json.Records
import Vendoring.Proofs.Coordinate.Decoded
import Vendoring.Proofs.Archive.Names
import Vendoring.Proofs.Archive.Collisions
import Vendoring.Proofs.Archive.Settled
import Vendoring.Proofs.Archive.Untouched
import Vendoring.Proofs.Archive.Descriptors
import Vendoring.Proofs.Archive.Concatenated
import Vendoring.Proofs.Archive.Repeated
import Vendoring.Proofs.Configuration.Reported
import Vendoring.Proofs.Publication.Conflicts
import Vendoring.Proofs.Publication.Unnamed
import Vendoring.Proofs.Pom.Values
import Vendoring.Proofs.Archive.Minimized
import Vendoring.Proofs.Configuration.Installed
import Vendoring.Proofs.Xml.Nesting
import Vendoring.Proofs.Xml.Spelling
import Vendoring.Proofs.Pom.Outline
import Vendoring.Proofs.Pom.Declarations
import Vendoring.Proofs.Pom.Accepted
import Vendoring.Proofs.TestRun
import Vendoring.Proofs.Archive.NormalForm
import Vendoring.Proofs.Configuration.Listing
