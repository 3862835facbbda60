import Tcam.Classifier
import Tcam.Config.Json
import Tcam.Device.Access
import Tcam.MacAddress
import Tcam.Shape.Text
import Tcam.Proofs.Bits.Packing
import Tcam.Proofs.Frame.Stream
import Tcam.Proofs.Frame.Headers
import Tcam.Proofs.Rule.RoundTrip
import Tcam.Proofs.Checks
import Tcam.Proofs.Frame.Wire
import Tcam.Proofs.Rule.Matching
import Tcam.Proofs.Command
import Tcam.Proofs.Geometry
import Tcam.Proofs.Slot.Image
import Tcam.Proofs.Slot.Storage
import Tcam.Proofs.Device.Access
import Tcam.Proofs.Device.Execute
import Tcam.Proofs.Table.Ends
import Tcam.Proofs.Table.Command
import Tcam.Proofs.Table.Operations
import Tcam.Proofs.SlotMap
import Tcam.Proofs.Table.Refinement
import Tcam.Proofs.Device.Evolution
import Tcam.Proofs.Rule.Fit
import Tcam.Proofs.Frame.Coverage
import Tcam.Proofs.Rule.Acceptance
import Tcam.Proofs.Rule.Images
import Tcam.Proofs.Table.Composition
import Tcam.Proofs.Table.Evolution
import Tcam.Proofs.Classifier.Operations
import Tcam.Proofs.Classifier.Reachable
import Tcam.Proofs.Classifier.Refusal
import Tcam.Proofs.Device.Content
import Tcam.Proofs.Device.Loading
import Tcam.Proofs.Classifier.Lookup
import Tcam.Proofs.Classifier.Interruption
import Tcam.Proofs.Classifier.Request
import Tcam.Proofs.Classifier.Continuation
import Tcam.Proofs.Classifier.Composition
import Tcam.Proofs.RuleMap
import Tcam.Proofs.Classifier.Refinement
import Tcam.Proofs.Device.History
import Tcam.Proofs.Table.History
import Tcam.Proofs.Classifier.History
import Tcam.Proofs.Recorder
import Tcam.Proofs.Table.Trace
import Tcam.Proofs.Classifier.FailFast
import Tcam.Proofs.Device.Alike
import Tcam.Proofs.Table.Noninterference
import Tcam.Proofs.Table.Accesses
import Tcam.Proofs.Classifier.Noninterference
import Tcam.Proofs.Device.Reload
import Tcam.Proofs.Table.Retry
import Tcam.Proofs.Classifier.Retry
import Tcam.Proofs.Device.Footprint
import Tcam.Proofs.Classifier.Footprint
import Tcam.Proofs.Classifier.Removal
import Tcam.Proofs.Classifier.Walk
import Tcam.Proofs.Table.Polling
import Tcam.Proofs.Classifier.Polling
import Tcam.Proofs.Table.Statistics
import Tcam.Proofs.Classifier.Statistics
import Tcam.Proofs.Classifier.Imitation
import Tcam.Proofs.Classifier.Configuration
import Tcam.Proofs.PortVector
import Tcam.Proofs.Table.Answers
import Tcam.Proofs.Classifier.Search
import Tcam.Proofs.Table.Interruption
import Tcam.Proofs.Device.Canonical
import Tcam.Proofs.Classifier.Ports
import Tcam.Proofs.Classifier.PortFaults
import Tcam.Proofs.Classifier.Arguments
import Tcam.Proofs.Frame.Extent
import Tcam.Proofs.Json.Grammar
import Tcam.Proofs.Json.Reading
import Tcam.Proofs.Config.Json
import Tcam.Proofs.Slot.Registers
import Tcam.Proofs.Device.Bounds
import Tcam.Proofs.Device.Driver
import Tcam.Proofs.Frame.Words
import Tcam.Proofs.Shape.Text
import Tcam.Proofs.MacAddress
