import InfoFlow.Heap.Operation
import InfoFlow.Monitor
import InfoFlow.Replay
import InfoFlow.Report.Json
import InfoFlow.Settings.Json
import InfoFlow.Trace.Json
import InfoFlow.Main
import InfoFlow.Proofs.Session.Rules
import InfoFlow.Proofs.Session.Step
import InfoFlow.Proofs.Session.Run
import InfoFlow.Proofs.Session.Confinement
import InfoFlow.Proofs.Session.SensitiveUpgrade
import InfoFlow.Proofs.Replay.Rules
import InfoFlow.Proofs.Session.Commit
import InfoFlow.Proofs.Replay.CallChain
import InfoFlow.Proofs.Session.Observer
import InfoFlow.Proofs.Replay.Noninterference
import InfoFlow.Proofs.Session.Reading
import InfoFlow.Proofs.Replay.LegalPart
import InfoFlow.Proofs.Replay.Stopping
import InfoFlow.Proofs.Replay.Failure
import InfoFlow.Proofs.Replay.Provenance
import InfoFlow.Proofs.Level.Hom
import InfoFlow.Proofs.Session.Image
import InfoFlow.Proofs.Replay.Image
import InfoFlow.Proofs.Trace.Chains
import InfoFlow.Proofs.Session.Leniency
import InfoFlow.Proofs.Replay.Leniency
import InfoFlow.Proofs.Monitor.Interleaving
import InfoFlow.Proofs.Replay.Lifecycle
import InfoFlow.Proofs.Replay.Call
import InfoFlow.Proofs.Session.Sink
import InfoFlow.Proofs.CommandLine.ExitStatus
import InfoFlow.Proofs.Json.Reader
import InfoFlow.Proofs.Trace.RoundTrip
import InfoFlow.Proofs.Session.Conditions
import InfoFlow.Proofs.Replay.Scopes
import InfoFlow.Proofs.Heap.History
import InfoFlow.Proofs.Session.OwnLevel
import InfoFlow.Proofs.Session.Forwarding
import InfoFlow.Proofs.Replay.PublicScope
import InfoFlow.Proofs.Replay.Rearrangement
import InfoFlow.Proofs.Session.Repetition
import InfoFlow.Proofs.Replay.Repetition
import InfoFlow.Proofs.Replay.LocalCondition
import InfoFlow.Proofs.Heap.FreshHandle
import InfoFlow.Proofs.Heap.Registration
import InfoFlow.Proofs.Level.Powerset
import InfoFlow.Proofs.Level.CategoryText
import InfoFlow.Proofs.Settings.RoundTrip
import InfoFlow.Proofs.Report.RoundTrip
import InfoFlow.Proofs.Session.Counters
import InfoFlow.Proofs.Monitor.Counters
import InfoFlow.Proofs.Replay.Counters
