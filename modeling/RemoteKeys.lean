import RemoteKeys.Bench
import RemoteKeys.Main
import RemoteKeys.Proofs.CommandLine.Agreement
import RemoteKeys.Proofs.CommandLine.Failure
import RemoteKeys.Proofs.CommandLine.Lines
import RemoteKeys.Proofs.CommandLine.Rejection
import RemoteKeys.Proofs.CommandLine.ShownTrace
import RemoteKeys.Proofs.Config.Admission
import RemoteKeys.Proofs.ConfigFile.Grammar
import RemoteKeys.Proofs.Decode.Contiguity
import RemoteKeys.Proofs.Decode.Inversion
import RemoteKeys.Proofs.Decode.Range
import RemoteKeys.Proofs.Device.CodeWidth
import RemoteKeys.Proofs.Device.Frame
import RemoteKeys.Proofs.Device.Guards
import RemoteKeys.Proofs.Diagnostic.CutLine
import RemoteKeys.Proofs.Diagnostic.Decoration
import RemoteKeys.Proofs.Diagnostic.Excerpt
import RemoteKeys.Proofs.Diagnostic.Header
import RemoteKeys.Proofs.Diagnostic.Oversize
import RemoteKeys.Proofs.Diagnostic.Spans
import RemoteKeys.Proofs.HeldKey.Cadence
import RemoteKeys.Proofs.HeldKey.Spacing
import RemoteKeys.Proofs.Holdoff.Memory
import RemoteKeys.Proofs.Holdoff.QuietPeriod
import RemoteKeys.Proofs.NextKey.SamplingLoop
import RemoteKeys.Proofs.NextKey.Signal
import RemoteKeys.Proofs.Playback.Interrupt
import RemoteKeys.Proofs.Playback.Live
import RemoteKeys.Proofs.Playback.Polled
import RemoteKeys.Proofs.Register.WholeReads
import RemoteKeys.Proofs.Session.Deletion
import RemoteKeys.Proofs.Session.Forgetting
import RemoteKeys.Proofs.Text.Place
import RemoteKeys.Proofs.Text.Rendering
import RemoteKeys.Proofs.Trace.Grammar
import RemoteKeys.Proofs.Trace.TimeLimit
import RemoteKeys.Proofs.Word.NormalForm
import RemoteKeys.Proofs.Word.Packing
import RemoteKeys.Register.PinRow
import RemoteKeys.Register.Relay
