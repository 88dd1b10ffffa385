import Y86.Controller.Runner
import Y86.Document.Yaml.Reading
import Y86.Session.Setup
import Y86.Proofs.Breakpoint.Guard
import Y86.Proofs.Breakpoint.Requests
import Y86.Proofs.Controller.Control
import Y86.Proofs.Controller.Runner
import Y86.Proofs.Interpreter.Run
import Y86.Proofs.Listing.Range
import Y86.Proofs.Listing.Source
import Y86.Proofs.Listing.Step
import Y86.Proofs.Listing.Tiling
import Y86.Proofs.Machine.Arithmetic
import Y86.Proofs.Machine.Call
import Y86.Proofs.Machine.Comparison
import Y86.Proofs.Machine.Stack
import Y86.Proofs.Memory.Bytewise
import Y86.Proofs.ObjectCode.Image
import Y86.Proofs.ObjectCode.Line
import Y86.Proofs.Operation.Text
import Y86.Proofs.Session.Control
import Y86.Proofs.Session.Drive
import Y86.Proofs.Session.Forgetting
import Y86.Proofs.Session.History
import Y86.Proofs.Session.Matching
import Y86.Proofs.Session.Naming
import Y86.Proofs.Session.Run
import Y86.Proofs.Settings.Reading
import Y86.Proofs.Snapshot.Comparison
import Y86.Proofs.Text.Lines
import Y86.Proofs.Text.Words
import Y86.Proofs.Trace.Bound
import Y86.Proofs.Trace.Fault
import Y86.Proofs.Trace.Rebuild
import Y86.Proofs.Trace.Shape
import Y86.Proofs.Trace.Statistics
import Y86.Proofs.Word
