import WorkerLink.Main
import WorkerLink.Rehearsal.HostScript
import WorkerLink.Sandbox.Direct
import WorkerLink.Proofs.Bytes.FirstCut
import WorkerLink.Proofs.Wire.Reading
import WorkerLink.Proofs.Connection.Transitions
import WorkerLink.Proofs.Wire.Scanning
import WorkerLink.Proofs.Connection.Ledger
import WorkerLink.Proofs.Connection.Telling
import WorkerLink.Proofs.Connection.SingleRun
import WorkerLink.Proofs.Connection.Delivery
import WorkerLink.Proofs.Bytes.Decimal
import WorkerLink.Proofs.Bytes.Eviction
import WorkerLink.Proofs.Bytes.Retention
import WorkerLink.Proofs.Wire.HeaderValue
import WorkerLink.Proofs.Wire.Pieces
import WorkerLink.Proofs.Wire.WholeOutput
import WorkerLink.Proofs.Wire.HeaderLimit
import WorkerLink.Proofs.Wire.Encoding
import WorkerLink.Proofs.Wire.Lengths
import WorkerLink.Proofs.Wire.RoundTrip
import WorkerLink.Proofs.Connection.Exclusion
import WorkerLink.Proofs.Connection.Later
import WorkerLink.Proofs.Connection.Access
import WorkerLink.Proofs.Connection.Lifecycle
import WorkerLink.Proofs.Connection.Cleanup
import WorkerLink.Proofs.Connection.HostSections
import WorkerLink.Proofs.Connection.HostLock
import WorkerLink.Proofs.Connection.Turns
import WorkerLink.Proofs.Connection.Sends
import WorkerLink.Proofs.Connection.Nesting
import WorkerLink.Proofs.Connection.Shutdown
import WorkerLink.Proofs.Child.Sending
import WorkerLink.Proofs.Child.Link
import WorkerLink.Proofs.Child.Integrity
import WorkerLink.Proofs.Child.Receiving
import WorkerLink.Proofs.Child.Intake
import WorkerLink.Proofs.Child.LateReads
import WorkerLink.Proofs.Child.Finality
import WorkerLink.Proofs.Wire.Outcomes
import WorkerLink.Proofs.Wire.Attempts
import WorkerLink.Proofs.Wire.Conservation
import WorkerLink.Proofs.Wire.Diagnostics
import WorkerLink.Proofs.Bridge.Crossing
import WorkerLink.Proofs.Bridge.Locking
import WorkerLink.Proofs.Bridge.InputLines
import WorkerLink.Proofs.Bridge.Forwarding
import WorkerLink.Proofs.Bridge.Finishing
import WorkerLink.Proofs.Bridge.Printing
import WorkerLink.Proofs.Json.OneLine
import WorkerLink.Proofs.Text.Lines
import WorkerLink.Proofs.Json.Places
import WorkerLink.Proofs.Bridge.BothWays
import WorkerLink.Proofs.Wire.Silence
import WorkerLink.Proofs.Connection.Ending
import WorkerLink.Proofs.Bytes.Lossy
import WorkerLink.Proofs.Arguments.Boundary
import WorkerLink.Proofs.Bridge.TornLines
