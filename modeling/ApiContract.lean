import ApiContract.Binding.Binder
import ApiContract.Binding.Response
import ApiContract.Document.Loader
import ApiContract.Json.Parser
import ApiContract.Switches.Loader
import ApiContract.Proofs.Document.References
import ApiContract.Proofs.Document.Assemblies
import ApiContract.Proofs.Report
import ApiContract.Proofs.Entries
import ApiContract.Proofs.Schema.Passes
import ApiContract.Proofs.Schema.Normal
import ApiContract.Proofs.Schema.Unions
import ApiContract.Proofs.Schema.Keywords
import ApiContract.Proofs.Schema.Shapes
import ApiContract.Proofs.Schema.Places
import ApiContract.Proofs.Schema.Loading
import ApiContract.Proofs.Validation.Scalars
import ApiContract.Proofs.Value.Place
import ApiContract.Proofs.Validation.Origin
import ApiContract.Proofs.Binding.Classification
import ApiContract.Proofs.Validation.Acceptance
import ApiContract.Proofs.Validation.Bounds
import ApiContract.Proofs.Schema.Enumeration
import ApiContract.Proofs.Validation.Idempotence
import ApiContract.Proofs.Validation.ReadOnly
import ApiContract.Proofs.Validation.Provenance
import ApiContract.Proofs.Validation.Conformance
import ApiContract.Proofs.Validation.Branches
import ApiContract.Proofs.Validation.Stability
import ApiContract.Proofs.Validation.Retention
import ApiContract.Proofs.Validation.Nullability
import ApiContract.Proofs.Validation.View
import ApiContract.Proofs.Binding.Naming
import ApiContract.Proofs.Binding.Payload
import ApiContract.Proofs.Validation.Leniency
import ApiContract.Proofs.Value.Order
import ApiContract.Proofs.Validation.Agreement
import ApiContract.Proofs.Binding.Sending
import ApiContract.Proofs.Validation.Order
import ApiContract.Proofs.Validation.Termination
import ApiContract.Proofs.Document.Resolution
import ApiContract.Proofs.Validation.Aliases
import ApiContract.Proofs.Validation.Selection
import ApiContract.Proofs.Validation.Precedence
import ApiContract.Proofs.Validation.Members
import ApiContract.Proofs.Value.Merging
import ApiContract.Proofs.Validation.Merging
import ApiContract.Proofs.Validation.Failures
import ApiContract.Proofs.Validation.Requirement
import ApiContract.Proofs.Validation.Omission
import ApiContract.Proofs.Document.Pointers
import ApiContract.Proofs.Text.Percent
import ApiContract.Proofs.Document.Spelling
import ApiContract.Proofs.Document.Writable
import ApiContract.Proofs.Validation.Suppression
import ApiContract.Proofs.Binding.Withholding
import ApiContract.Proofs.Text.Cutting
import ApiContract.Proofs.Document.Escapes
import ApiContract.Proofs.Regex.Matching
import ApiContract.Proofs.Regex.Ending
import ApiContract.Proofs.Regex.Escapes
import ApiContract.Proofs.Regex.Items
import ApiContract.Proofs.Regex.Sets
import ApiContract.Proofs.Regex.Tokens
import ApiContract.Proofs.Regex.Runs
import ApiContract.Proofs.Regex.Anchoring
import ApiContract.Proofs.Schema.Pattern
import ApiContract.Proofs.Validation.Dates
import ApiContract.Proofs.Value.RoundTrip
import ApiContract.Proofs.Value.Serialization
import ApiContract.Proofs.Binding.Bodies
import ApiContract.Proofs.Binding.Positions
import ApiContract.Proofs.Binding.Parts
import ApiContract.Proofs.Binding.Presence
import ApiContract.Proofs.Text.Shortening
import ApiContract.Proofs.Binding.Discrimination
import ApiContract.Proofs.Text.Letters
import ApiContract.Proofs.Binding.Registration
import ApiContract.Proofs.Document.Checking
import ApiContract.Proofs.Binding.Lookups
