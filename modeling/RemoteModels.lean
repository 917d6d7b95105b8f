import RemoteModels.Barrier
import RemoteModels.Command.Arguments
import RemoteModels.Command.Dialogue
import RemoteModels.Command.Program
import RemoteModels.Command.Records
import RemoteModels.Config
import RemoteModels.Decimal.Binary64
import RemoteModels.Decimal.Shortest
import RemoteModels.Directory
import RemoteModels.Envelope
import RemoteModels.Envelope.Decoder
import RemoteModels.Files
import RemoteModels.Gateway
import RemoteModels.Http
import RemoteModels.Instance
import RemoteModels.Json.Cursor
import RemoteModels.Json.Numeral
import RemoteModels.Json.Parser
import RemoteModels.Json.Printer
import RemoteModels.Json.Skip
import RemoteModels.Json.Value
import RemoteModels.Loader
import RemoteModels.Log
import RemoteModels.Log.Filter
import RemoteModels.Main
import RemoteModels.Members
import RemoteModels.Registry
import RemoteModels.Rehearsal.Instances
import RemoteModels.Rehearsal.Script
import RemoteModels.Rehearsal.Sessions
import RemoteModels.Rehearsal.Waits
import RemoteModels.Session.Basic
import RemoteModels.Session.Lock
import RemoteModels.Specification.Basic
import RemoteModels.Specification.Descriptor
import RemoteModels.Specification.Error
import RemoteModels.Specification.Format
import RemoteModels.Specification.Name
import RemoteModels.Text.Blank
import RemoteModels.Text.Columns
import RemoteModels.Text.Hidden
import RemoteModels.Text.Lower
import RemoteModels.Text.Parts
import RemoteModels.Text.Quoted
import RemoteModels.Text.Upper
import RemoteModels.Text.Utf8
import RemoteModels.Toml.Document
import RemoteModels.Toml.Scalar
import RemoteModels.Toml.Text
import RemoteModels.Toml.Value
import RemoteModels.Transport
import RemoteModels.Tree
import RemoteModels.Url.Basic
import RemoteModels.Url.Encode
import RemoteModels.Url.Host
import RemoteModels.Url.Punycode
import RemoteModels.Yaml.Document
import RemoteModels.Yaml.Node
import RemoteModels.Yaml.Schema
import RemoteModels.Yaml.Source
import RemoteModels.Yaml.Token
import RemoteModels.Yaml.Token.Scalar
import RemoteModels.Yaml.Token.Scan
import RemoteModels.Proofs.Json.Proper
import RemoteModels.Proofs.Specification.Attainable
import RemoteModels.Proofs.Gateway.Call
import RemoteModels.Proofs.Instance.History
import RemoteModels.Proofs.Instance.Invariant
import RemoteModels.Proofs.Gateway.Contract
import RemoteModels.Proofs.Instance.Lifecycle
import RemoteModels.Proofs.Instance.Replay
import RemoteModels.Proofs.Session.Lock
import RemoteModels.Proofs.Session.Run
import RemoteModels.Proofs.Session.Exclusion
import RemoteModels.Proofs.Session.Readiness
import RemoteModels.Proofs.Session.Cell
import RemoteModels.Proofs.Session.SingleFlight
import RemoteModels.Proofs.Session.Register
import RemoteModels.Proofs.Json.Numbers
import RemoteModels.Proofs.Json.RoundTrip
import RemoteModels.Proofs.Envelope.RoundTrip
import RemoteModels.Proofs.Gateway.Wire
import RemoteModels.Proofs.Instance.Locals
import RemoteModels.Proofs.Rehearsal.Agreement
import RemoteModels.Proofs.Command.Dialogue
import RemoteModels.Proofs.Command.Records
import RemoteModels.Proofs.Files
import RemoteModels.Proofs.Config.Contexts
import RemoteModels.Proofs.Gateway.Addresses
import RemoteModels.Proofs.Registry.Precedence
import RemoteModels.Proofs.Session.Reloads
import RemoteModels.Proofs.Toml.Lines
import RemoteModels.Proofs.Config.RoundTrip
import RemoteModels.Proofs.Command.Discipline
import RemoteModels.Proofs.Text.Bytewise
import RemoteModels.Proofs.Tree.Coverage
import RemoteModels.Proofs.Tree.Cycles
import RemoteModels.Proofs.Tree.Preorder
import RemoteModels.Proofs.Registry.Views
import RemoteModels.Proofs.Registry.Order
import RemoteModels.Proofs.Specification.Monoid
import RemoteModels.Proofs.Faults
import RemoteModels.Proofs.Specification.Documents
import RemoteModels.Proofs.Specification.Names
import RemoteModels.Proofs.Registry.Refusal
import RemoteModels.Proofs.Directory.Files
import RemoteModels.Proofs.Specification.Layers
import RemoteModels.Proofs.Directory.Load
import RemoteModels.Proofs.Json.Locality
import RemoteModels.Proofs.Json.Spelling
import RemoteModels.Proofs.Gateway.Identity
import RemoteModels.Proofs.Command.Display
import RemoteModels.Proofs.Command.Course
import RemoteModels.Proofs.Command.Submission
import RemoteModels.Proofs.Command.Target
import RemoteModels.Proofs.Barrier
import RemoteModels.Proofs.Instance.Pending
import RemoteModels.Proofs.Specification.Segments
