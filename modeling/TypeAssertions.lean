import TypeAssertions.LogFormat
import TypeAssertions.Main
import TypeAssertions.Proofs.Assertion.Calls
import TypeAssertions.Proofs.Assertion.LineComments
import TypeAssertions.Proofs.Assertion.Recording
import TypeAssertions.Proofs.Checking.Passing
import TypeAssertions.Proofs.Checking.Stages
import TypeAssertions.Proofs.Config.Application
import TypeAssertions.Proofs.Config.Codec
import TypeAssertions.Proofs.Config.Decoration
import TypeAssertions.Proofs.Config.Depth
import TypeAssertions.Proofs.Config.Failures
import TypeAssertions.Proofs.Config.Idempotence
import TypeAssertions.Proofs.Config.Messages
import TypeAssertions.Proofs.Config.Nearest
import TypeAssertions.Proofs.Config.Separation
import TypeAssertions.Proofs.Reconciliation.Locality
import TypeAssertions.Proofs.Reconciliation.Outermost
import TypeAssertions.Proofs.Report.Entries
import TypeAssertions.Proofs.Report.Underlines
import TypeAssertions.Proofs.Run.Repetition
import TypeAssertions.Proofs.Run.Report
import TypeAssertions.Proofs.Run.Status
import TypeAssertions.Proofs.Snapshot.Codec
import TypeAssertions.Proofs.Snapshot.Locations
import TypeAssertions.Proofs.Snapshot.Replay
import TypeAssertions.Proofs.Syntax.DepthFirst
import TypeAssertions.Proofs.Syntax.Scanning
import TypeAssertions.Proofs.Text.Partition
