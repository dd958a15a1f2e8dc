import MaterialLowering.Folding
import MaterialLowering.Host.Builder
import MaterialLowering.Host.Document
import MaterialLowering.Host.DocumentJson
import MaterialLowering.Host.Graph
import MaterialLowering.Host.Kind
import MaterialLowering.Json.Basic
import MaterialLowering.Json.Decode
import MaterialLowering.Json.Numeral
import MaterialLowering.Json.Reader
import MaterialLowering.Json.Writer
import MaterialLowering.Lanes
import MaterialLowering.Literal
import MaterialLowering.Lowering.Declarative
import MaterialLowering.Lowering.Dispatch
import MaterialLowering.Lowering.Failure
import MaterialLowering.Lowering.Handler
import MaterialLowering.Lowering.Input
import MaterialLowering.Lowering.Key
import MaterialLowering.Lowering.Material
import MaterialLowering.Lowering.Notice
import MaterialLowering.Lowering.Plan
import MaterialLowering.Lowering.Walk
import MaterialLowering.Memo
import MaterialLowering.Native.Emission
import MaterialLowering.Native.Kind
import MaterialLowering.Native.Operator
import MaterialLowering.Native.Recording
import MaterialLowering.Native.RecordingJson
import MaterialLowering.Numeric.Binary
import MaterialLowering.Numeric.Elementary
import MaterialLowering.Numeric.Shortest
import MaterialLowering.Numeric.Single
import MaterialLowering.Options
import MaterialLowering.Proofs.Arithmetic.AppliedOperators
import MaterialLowering.Proofs.Arithmetic.BinaryFormats
import MaterialLowering.Proofs.Arithmetic.CombinedChannels
import MaterialLowering.Proofs.Arithmetic.EmittedArithmetic
import MaterialLowering.Proofs.Arithmetic.FoldedEmitted
import MaterialLowering.Proofs.Arithmetic.Interpretation
import MaterialLowering.Proofs.Arithmetic.Meaning
import MaterialLowering.Proofs.Arithmetic.Preservation
import MaterialLowering.Proofs.Arithmetic.WiredArithmetic
import MaterialLowering.Proofs.Documents.Bounds
import MaterialLowering.Proofs.Documents.Demand
import MaterialLowering.Proofs.Documents.Detours
import MaterialLowering.Proofs.Documents.DocumentGraph
import MaterialLowering.Proofs.Documents.FormalDefaults
import MaterialLowering.Proofs.Documents.HiddenLinks
import MaterialLowering.Proofs.Documents.Matchings
import MaterialLowering.Proofs.Documents.MissingImages
import MaterialLowering.Proofs.Documents.Presentations
import MaterialLowering.Proofs.Documents.Redirections
import MaterialLowering.Proofs.Documents.Renaming
import MaterialLowering.Proofs.Documents.Reroutes
import MaterialLowering.Proofs.Plans.ArithmeticPlans
import MaterialLowering.Proofs.Plans.Correspondence
import MaterialLowering.Proofs.Plans.PlansAlike
import MaterialLowering.Proofs.Plans.PlansLocal
import MaterialLowering.Proofs.Plans.TwinPlans
import MaterialLowering.Proofs.Plans.WiredPlans
import MaterialLowering.Proofs.Recordings.Growth
import MaterialLowering.Proofs.Recordings.ImageSharing
import MaterialLowering.Proofs.Recordings.Isomorphism
import MaterialLowering.Proofs.Recordings.RecordedOperations
import MaterialLowering.Proofs.Recordings.Relocation
import MaterialLowering.Proofs.Recordings.Unfolding
import MaterialLowering.Proofs.Rules.Accounts
import MaterialLowering.Proofs.Rules.ArithmeticRules
import MaterialLowering.Proofs.Rules.RuleCheck
import MaterialLowering.Proofs.Rules.RuleInstances
import MaterialLowering.Proofs.Rules.RuleOrder
import MaterialLowering.Proofs.Shaders.Elisions
import MaterialLowering.Proofs.Shaders.HandedOn
import MaterialLowering.Proofs.Shaders.MixedShaders
import MaterialLowering.Proofs.Shaders.SurfacePlans
import MaterialLowering.Proofs.Shaders.Surfaces
import MaterialLowering.Proofs.Texts.Decoding
import MaterialLowering.Proofs.Texts.DocumentRoundTrip
import MaterialLowering.Proofs.Texts.FiniteNumbers
import MaterialLowering.Proofs.Texts.JsonText
import MaterialLowering.Proofs.Texts.RecordingRoundTrip
import MaterialLowering.Proofs.Texts.RuleRoundTrip
import MaterialLowering.Proofs.Walks.Acyclicity
import MaterialLowering.Proofs.Walks.CallStack
import MaterialLowering.Proofs.Walks.Control
import MaterialLowering.Proofs.Walks.Depth
import MaterialLowering.Proofs.Walks.Derivation
import MaterialLowering.Proofs.Walks.Events
import MaterialLowering.Proofs.Walks.Histories
import MaterialLowering.Proofs.Walks.Lockstep
import MaterialLowering.Proofs.Walks.Memory
import MaterialLowering.Proofs.Walks.Moments
import MaterialLowering.Proofs.Walks.Operations
import MaterialLowering.Proofs.Walks.Promises
import MaterialLowering.Proofs.Walks.Readings
import MaterialLowering.Proofs.Walks.Reference
import MaterialLowering.Proofs.Walks.Restoration
import MaterialLowering.Proofs.Walks.Runs
import MaterialLowering.Proofs.Walks.Setbacks
import MaterialLowering.Proofs.Walks.Shares
import MaterialLowering.Proofs.Walks.SoundWalk
import MaterialLowering.Proofs.Walks.Stillness
import MaterialLowering.Proofs.Walks.Termination
import MaterialLowering.Proofs.Walks.Traces
import MaterialLowering.Proofs.Walks.Transparency
import MaterialLowering.Proofs.Walks.TwinWalks
import MaterialLowering.Rules.Basic
import MaterialLowering.Rules.Builtin
import MaterialLowering.Rules.Check
import MaterialLowering.Rules.Json
import MaterialLowering.SortedMap
import MaterialLowering.Text.Combining
import MaterialLowering.Text.Invisible
import MaterialLowering.Text.Quoted
import MaterialLowering.Text.Visible
import MaterialLowering.Value
