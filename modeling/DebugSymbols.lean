import DebugSymbols.Bytes.Buffer
import DebugSymbols.Main
import DebugSymbols.Metadata.Decode
import DebugSymbols.Sink.Recording
import DebugSymbols.Proofs.Bytes.Cursor
import DebugSymbols.Proofs.Metadata.Layout
import DebugSymbols.Proofs.Text.Digits
import DebugSymbols.Proofs.Token
import DebugSymbols.Proofs.Text.Utf16
import DebugSymbols.Proofs.Metadata.Decode
import DebugSymbols.Proofs.Metadata.RoundTrip
import DebugSymbols.Proofs.Sink.Batch
import DebugSymbols.Proofs.Sink.Recording
import DebugSymbols.Proofs.Sink.Language
import DebugSymbols.Proofs.Sink.Place
import DebugSymbols.Proofs.Sink.Acceptance
import DebugSymbols.Proofs.Emit.Serialization
import DebugSymbols.Proofs.Remap
import DebugSymbols.Proofs.Scope
import DebugSymbols.Proofs.Emit.Recorded
import DebugSymbols.Proofs.Emit.Gather
import DebugSymbols.Proofs.Emit.Log
import DebugSymbols.Proofs.Emit.Replay
import DebugSymbols.Proofs.Emit.Lossless
import DebugSymbols.Proofs.Emit.Faults
import DebugSymbols.Proofs.Emit.Script
import DebugSymbols.Proofs.Emit.Verdict
import DebugSymbols.Proofs.Emit.Validity
import DebugSymbols.Proofs.Emit.Release
import DebugSymbols.Proofs.Sink.Injection
import DebugSymbols.Proofs.Emit.Injection
import DebugSymbols.Proofs.Emit.Sections
import DebugSymbols.Proofs.Emit.PathMap
import DebugSymbols.Proofs.Emit.Partial
import DebugSymbols.Proofs.Emit.History
import DebugSymbols.Proofs.Emit.Rejection
import DebugSymbols.Proofs.Emit.Counts
import DebugSymbols.Proofs.Emit.Totals
import DebugSymbols.Proofs.Sink.Closing
import DebugSymbols.Proofs.Xml.Writing
import DebugSymbols.Proofs.Xml.Comparison
import DebugSymbols.Proofs.Xml.Refinement
import DebugSymbols.Proofs.Xml.Tags
import DebugSymbols.Proofs.Xml.Nesting
import DebugSymbols.Proofs.Xml.Watching
import DebugSymbols.Proofs.Xml.Coupling
import DebugSymbols.Proofs.Xml.Room
import DebugSymbols.Proofs.Xml.OpenFile
import DebugSymbols.Proofs.CommandLine.FileSystem
import DebugSymbols.Proofs.CommandLine.Output
import DebugSymbols.Proofs.TreeFile.Lossless
import DebugSymbols.Proofs.TreeFile.Names
import DebugSymbols.Proofs.Xml.RootEnd
import DebugSymbols.Proofs.Xml.Ending
import DebugSymbols.Proofs.Bytes.Buffer
import DebugSymbols.Proofs.Bytes.Guarded
import DebugSymbols.Proofs.Metadata.Complete
import DebugSymbols.Proofs.Metadata.Guarded
import DebugSymbols.Proofs.Metadata.Truncation
import DebugSymbols.Proofs.Substitution
import DebugSymbols.Proofs.Chain
import DebugSymbols.Proofs.Emit.Intervals
import DebugSymbols.Proofs.Emit.Descent
import DebugSymbols.Proofs.Xml.Characters
import DebugSymbols.Proofs.Xml.Reading
import DebugSymbols.Proofs.CommandLine.Usage
import DebugSymbols.Proofs.Bytes.Codec
import DebugSymbols.Proofs.Bytes.Alignment
