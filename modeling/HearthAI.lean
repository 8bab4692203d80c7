import HearthAI.Core.Effect
import HearthAI.Contracts.Envelope
import HearthAI.Contracts.Artifact
import HearthAI.Contracts.Media
import HearthAI.Inspect.Decode
import HearthAI.Inspect.Detect
import HearthAI.Inspect.Normalize
import HearthAI.Inspect.Convert
import HearthAI.Inspect.Pipeline
import HearthAI.Inspect.Release
import HearthAI.Core.Hex
import HearthAI.Fetch.Policy
import HearthAI.Fetch.Resolve
import HearthAI.Fetch.Loop
import HearthAI.Fetch.Safety
import HearthAI.Core.LengthPrefix
import HearthAI.Core.Transition
import HearthAI.Contracts.Handoff
import HearthAI.Contracts.Authenticity
import HearthAI.Python.Text
import HearthAI.Memory.Frontmatter
import HearthAI.Memory.RoundTrip
import HearthAI.Core.Dict
import HearthAI.Memory.Store
import HearthAI.Memory.Steps
import HearthAI.Memory.Intermediate
import HearthAI.Memory.Create
import HearthAI.Memory.Encoding
import HearthAI.Memory.Failures
import HearthAI.Memory.Archive
import HearthAI.Memory.Intact
import HearthAI.Memory.AppendOnly
import HearthAI.Memory.Durable
import HearthAI.Memory.Verbatim
import HearthAI.Core.Script
import HearthAI.Inspect.Clearance
import HearthAI.Contracts.Gate
import HearthAI.Inspect.Deliver
import HearthAI.Inspect.Reports
import HearthAI.Inspect.Truthful
import HearthAI.Fetch.Results
import HearthAI.Inspect.Bundle
import HearthAI.Stages.Story
import HearthAI.Stages.Delivery
import HearthAI.Contracts.LastWrite
import HearthAI.Jobs.Contracts
import HearthAI.Jobs.WebFetch
import HearthAI.Contracts.Request
import HearthAI.Python.Document
import HearthAI.Inspect.Correlation
import HearthAI.Stages.Correlation
import HearthAI.Stages.Decoded
import HearthAI.Stages.Wire
import HearthAI.Stages.Admission
import HearthAI.Python.Json
import HearthAI.Jobs.Storage
import HearthAI.Jobs.Registry
import HearthAI.Jobs.Tools
import HearthAI.Jobs.Runs
import HearthAI.Jobs.Started
import HearthAI.Core.BigEndian
import HearthAI.Fetch.Ranges
import HearthAI.Fetch.Special
import HearthAI.Fetch.Denied
import HearthAI.Fetch.Literal
import HearthAI.Inspect.Chain
import HearthAI.Inspect.Origin
import HearthAI.Inspect.Entities
import HearthAI.Inspect.Budget
import HearthAI.Core.Logged
import HearthAI.Memory.Paths
import HearthAI.Memory.Isolation
import HearthAI.Python.Loads
import HearthAI.Python.Numbers
import HearthAI.Python.Indented
import HearthAI.Python.Loaded
import HearthAI.Skills.AddressBook
import HearthAI.Jobs.Envelope
import HearthAI.Jobs.FetchResult
import HearthAI.Jobs.GitChange
import HearthAI.Jobs.Research
import HearthAI.Jobs.Uncaught
import HearthAI.Jobs.Admitted
import HearthAI.Jobs.Invocations
import HearthAI.Jobs.Normal
import HearthAI.Jobs.Rebuilt
import HearthAI.Inspect.Structure
import HearthAI.Core.Runs
import HearthAI.Memory.Search
import HearthAI.Contracts.Placement
import HearthAI.Contracts.ContentType
import HearthAI.Core.History
import HearthAI.Jobs.Lifecycle
import HearthAI.Contracts.Device
import HearthAI.Fetch.Record
import HearthAI.Stages.FetchStage
import HearthAI.Contracts.Released
import HearthAI.Stages.InspectStage
import HearthAI.Stages.EndToEnd
import HearthAI.Memory.Server
import HearthAI.Stages.EnvelopeRead
import HearthAI.Stages.Texts
import HearthAI.Stages.Ingress
import HearthAI.Stages.Asked
import HearthAI.Stages.Taken
import HearthAI.Stages.ControlPlane
import HearthAI.Stages.RustGate
import HearthAI.Stages.Gates
