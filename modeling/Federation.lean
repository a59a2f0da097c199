import Federation.Bytes.Base64
import Federation.Bytes.Hex
import Federation.Bytes.Sha256
import Federation.Bytes.Uuid
import Federation.Canonical
import Federation.Certificate.Basic
import Federation.Certificate.Bytes
import Federation.Certificate.Element
import Federation.Certificate.Extension
import Federation.Certificate.Gate
import Federation.Certificate.Name
import Federation.Certificate.ObjectId
import Federation.Certificate.ObjectName
import Federation.Certificate.Pem
import Federation.Certificate.Validity
import Federation.Command.Arguments
import Federation.Command.Basic
import Federation.Command.Failure
import Federation.Command.Generate
import Federation.Command.Judge
import Federation.Command.RegistryCheck
import Federation.Command.Settings
import Federation.Decimal.Binary64
import Federation.Decimal.Scaling
import Federation.Decimal.Shortest
import Federation.Document
import Federation.Error
import Federation.Generation.Content
import Federation.Generation.Generator
import Federation.Generation.Policy
import Federation.Generation.Versions
import Federation.Identity
import Federation.Json.Basic
import Federation.Json.Number
import Federation.Json.Printer
import Federation.Json.Reader
import Federation.Json.Token
import Federation.Main
import Federation.Pointer
import Federation.Proofs.Ascending
import Federation.Proofs.Bytes.Base64
import Federation.Proofs.Canonical
import Federation.Proofs.Canonical.Faithful
import Federation.Proofs.Canonical.Floats
import Federation.Proofs.Canonical.Subject
import Federation.Proofs.Certificate.Authority
import Federation.Proofs.Certificate.Blocks
import Federation.Proofs.Certificate.Encoding
import Federation.Proofs.Certificate.File
import Federation.Proofs.Certificate.Gate
import Federation.Proofs.Certificate.Layout
import Federation.Proofs.Certificate.Material
import Federation.Proofs.Certificate.ObjectIds
import Federation.Proofs.Certificate.PrefixFree
import Federation.Proofs.Certificate.SelfIssued
import Federation.Proofs.Certificate.Shown
import Federation.Proofs.Certificate.Sizes
import Federation.Proofs.Certificate.TextualForm
import Federation.Proofs.Command.DryRun
import Federation.Proofs.Command.RegistryCheck
import Federation.Proofs.Document
import Federation.Proofs.Generation.CertificateFields
import Federation.Proofs.Generation.CertificateHashes
import Federation.Proofs.Generation.Clock
import Federation.Proofs.Generation.Complete
import Federation.Proofs.Generation.Content
import Federation.Proofs.Generation.Documents
import Federation.Proofs.Generation.Edits
import Federation.Proofs.Generation.Forms
import Federation.Proofs.Generation.OperatorServers
import Federation.Proofs.Generation.Order
import Federation.Proofs.Generation.Passing
import Federation.Proofs.Generation.Policy
import Federation.Proofs.Generation.PrivateParameters
import Federation.Proofs.Generation.Refinement
import Federation.Proofs.Generation.Rendering
import Federation.Proofs.Generation.SharedParameters
import Federation.Proofs.Generation.Steady
import Federation.Proofs.Generation.Ties
import Federation.Proofs.Generation.WellFormed
import Federation.Proofs.Identity
import Federation.Proofs.Identity.Forms
import Federation.Proofs.Json.Compact
import Federation.Proofs.Json.Normal
import Federation.Proofs.Json.Number
import Federation.Proofs.Json.RoundTrip
import Federation.Proofs.Json.Scanner
import Federation.Proofs.Json.Without
import Federation.Proofs.Pointer
import Federation.Proofs.Publication.Bundle
import Federation.Proofs.Publication.Confined
import Federation.Proofs.Publication.Directory
import Federation.Proofs.Publication.Failures
import Federation.Proofs.Publication.Index
import Federation.Proofs.Publication.Names
import Federation.Proofs.Publication.Replacement
import Federation.Proofs.Publication.Writers
import Federation.Proofs.Reading.Accepted
import Federation.Proofs.Reading.Digest
import Federation.Proofs.Reading.Document
import Federation.Proofs.Reading.Record
import Federation.Proofs.Reading.WrittenBack
import Federation.Proofs.Registry.Occurrences
import Federation.Proofs.Registry.Printing
import Federation.Proofs.Registry.ReadBack
import Federation.Proofs.Rules.Broken
import Federation.Proofs.Rules.CertificateFields
import Federation.Proofs.Rules.Exact
import Federation.Proofs.Rules.Findings
import Federation.Proofs.Rules.Found
import Federation.Proofs.Rules.Items
import Federation.Proofs.Rules.Logged
import Federation.Proofs.Rules.Looking
import Federation.Proofs.Rules.Once
import Federation.Proofs.Rules.Operator
import Federation.Proofs.Rules.Places
import Federation.Proofs.Rules.Private
import Federation.Proofs.Rules.Seen
import Federation.Proofs.Rules.Shared
import Federation.Proofs.Run.Approval
import Federation.Proofs.Run.Calm
import Federation.Proofs.Run.Cancellation
import Federation.Proofs.Run.CurrentVersion
import Federation.Proofs.Run.Fate
import Federation.Proofs.Run.History
import Federation.Proofs.Run.Independence
import Federation.Proofs.Run.Lifecycle
import Federation.Proofs.Run.Reachable
import Federation.Proofs.Run.Replacement
import Federation.Proofs.Run.Report
import Federation.Proofs.Run.Safety
import Federation.Proofs.Run.Version
import Federation.Proofs.Run.WellFormed
import Federation.Proofs.Run.Writers
import Federation.Proofs.Schema.Acceptance
import Federation.Proofs.Schema.Depth
import Federation.Proofs.Schema.Identifiers
import Federation.Proofs.Schema.Numbers
import Federation.Proofs.Schema.Pattern
import Federation.Proofs.Schema.Places
import Federation.Proofs.Sorting
import Federation.Proofs.Storage.Confined
import Federation.Proofs.Storage.Failures
import Federation.Proofs.Storage.Program
import Federation.Proofs.Storage.Root
import Federation.Proofs.Storage.Tree
import Federation.Proofs.Storage.Turns
import Federation.Proofs.Table
import Federation.Proofs.Text
import Federation.Proofs.Ties
import Federation.Proofs.Time.Calendar
import Federation.Proofs.Time.Display
import Federation.Proofs.Time.Reader
import Federation.Proofs.Time.Timestamp
import Federation.Proofs.Validation
import Federation.Proofs.Version
import Federation.Publication.Basic
import Federation.Publication.Bundle
import Federation.Publication.Directory
import Federation.Reading.Fault
import Federation.Reading.Identity
import Federation.Reading.Record
import Federation.Refusal
import Federation.Registry.Basic
import Federation.Registry.Certificates
import Federation.Registry.File
import Federation.Rules.Basic
import Federation.Rules.Private
import Federation.Rules.Shared
import Federation.Run.Basic
import Federation.Run.Outcome
import Federation.Run.Report
import Federation.Schema.Basic
import Federation.Schema.Mismatch
import Federation.Schema.Parameters
import Federation.Schema.Pattern
import Federation.Storage.Path
import Federation.Storage.Program
import Federation.Storage.Tree
import Federation.Storage.World
import Federation.Table
import Federation.Text.Blank
import Federation.Text.Printable
import Federation.Text.Unicode
import Federation.Time.Calendar
import Federation.Time.Instant
import Federation.Time.Reader
import Federation.Validation
import Federation.Version
import Federation.Violation
import Federation.Yaml.Block
import Federation.Yaml.Event
import Federation.Yaml.Fold
import Federation.Yaml.Node
import Federation.Yaml.Scalar
import Federation.Yaml.Scan
import Federation.Yaml.Spot
import Federation.Yaml.Token
import Federation.Yaml.Typed
