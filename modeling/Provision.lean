import Provision.Ascending
import Provision.Deployment.Basic
import Provision.Deployment.Call
import Provision.Deployment.Registration
import Provision.Deployment.Run
import Provision.Engine.Basic
import Provision.Engine.Inventory
import Provision.Engine.Local
import Provision.Engine.Manual
import Provision.Engine.Mock
import Provision.Failure
import Provision.File.Basic
import Provision.File.Document
import Provision.Host.Basic
import Provision.Host.Conversion
import Provision.Host.Notation
import Provision.Host.OfPlain
import Provision.Input.Basic
import Provision.Input.Serialization
import Provision.Json.Access
import Provision.Json.Basic
import Provision.Json.Codec
import Provision.Json.Reader
import Provision.Json.Writer
import Provision.Main
import Provision.Message.Basic
import Provision.Message.Document
import Provision.Number.Basic
import Provision.Number.Decimal
import Provision.Output.Basic
import Provision.Output.Data
import Provision.Output.Graph
import Provision.Plain.Basic
import Provision.Plain.OfValue
import Provision.Proofs.Deployment.Allotment
import Provision.Proofs.Deployment.Calls
import Provision.Proofs.Deployment.Changes
import Provision.Proofs.Deployment.Completion
import Provision.Proofs.Deployment.Course
import Provision.Proofs.Deployment.DependencyLists
import Provision.Proofs.Deployment.Exchanges
import Provision.Proofs.Deployment.Features
import Provision.Proofs.Deployment.Gains
import Provision.Proofs.Deployment.History
import Provision.Proofs.Deployment.Inheritance
import Provision.Proofs.Deployment.Lineage
import Provision.Proofs.Deployment.Lookups
import Provision.Proofs.Deployment.Ownership
import Provision.Proofs.Deployment.ProviderLists
import Provision.Proofs.Deployment.ProviderMap
import Provision.Proofs.Deployment.References
import Provision.Proofs.Deployment.Refusal
import Provision.Proofs.Deployment.Requests
import Provision.Proofs.Deployment.RunOutcome
import Provision.Proofs.Deployment.Runs
import Provision.Proofs.Deployment.Settlement
import Provision.Proofs.Deployment.Steps
import Provision.Proofs.Deployment.Uniformity
import Provision.Proofs.Deployment.UrnIndex
import Provision.Proofs.Deployment.Waiting
import Provision.Proofs.Engine.Arrival
import Provision.Proofs.Engine.Ids
import Provision.Proofs.Engine.Registrations
import Provision.Proofs.Engine.Serving
import Provision.Proofs.Fields
import Provision.Proofs.File.Payload
import Provision.Proofs.File.RoundTrip
import Provision.Proofs.Host.NestedOutput
import Provision.Proofs.Host.Noninterference
import Provision.Proofs.Host.Restorable
import Provision.Proofs.Host.RoundTrip
import Provision.Proofs.Input.Dependencies
import Provision.Proofs.Input.Features
import Provision.Proofs.Input.Secrecy
import Provision.Proofs.Input.Sending
import Provision.Proofs.Json.Codec
import Provision.Proofs.Message.RoundTrip
import Provision.Proofs.Number
import Provision.Proofs.Output.Evaluation
import Provision.Proofs.Output.Laws
import Provision.Proofs.Output.Lifetime
import Provision.Proofs.Output.Observations
import Provision.Proofs.Output.Outcome
import Provision.Proofs.Output.Runs
import Provision.Proofs.Output.Slots
import Provision.Proofs.Output.Sources
import Provision.Proofs.Plain.Lifting
import Provision.Proofs.Plain.Marks
import Provision.Proofs.Plain.Resolving
import Provision.Proofs.Resource.Aliases
import Provision.Proofs.Resource.Exclusion
import Provision.Proofs.Resource.Insertion
import Provision.Proofs.Resource.Links
import Provision.Proofs.Resource.Walk
import Provision.Proofs.Sample.Secrecy
import Provision.Proofs.Shape.Checking
import Provision.Proofs.Shape.Converting
import Provision.Proofs.Shape.Endings
import Provision.Proofs.Shape.Matching
import Provision.Proofs.Shape.Mismatch
import Provision.Proofs.Shape.Rejection
import Provision.Proofs.Shape.Soundness
import Provision.Proofs.Shape.Unions
import Provision.Proofs.Urn.Ancestry
import Provision.Proofs.Urn.Reading
import Provision.Proofs.Urn.Splitting
import Provision.Proofs.Value.Canonical
import Provision.Resource.Arena
import Provision.Resource.Basic
import Provision.Sample.Behaviour
import Provision.Sample.Program
import Provision.Sample.Resources
import Provision.Sample.Types
import Provision.Session.Basic
import Provision.Session.Document
import Provision.Session.Scope
import Provision.Settings
import Provision.Shape.Basic
import Provision.Shape.Conversion
import Provision.Shape.Document
import Provision.Shape.Validity
import Provision.Text.Quoted
import Provision.Text.Unprintable
import Provision.Urn
import Provision.Value.Basic
import Provision.Value.Document
