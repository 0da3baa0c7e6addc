import AttributeWire.Bytes
import AttributeWire.Text.Utf8
import AttributeWire.Base64
import AttributeWire.Decimal
import AttributeWire.Field
import AttributeWire.Flags
import AttributeWire.Wish
import AttributeWire.Scan
import AttributeWire.Session
import AttributeWire.Printer
import AttributeWire.Alphabet
import AttributeWire.Binary64.Shortest
import AttributeWire.Duration.Seconds
import AttributeWire.Text.Blank
import AttributeWire.Text.Excerpt
import AttributeWire.Duration.Units
import AttributeWire.Json.Value
import AttributeWire.Toml.Scalar
import AttributeWire.Toml.Reader
import AttributeWire.Config.Toml
import AttributeWire.Config.Json
import AttributeWire.Command.Run
import AttributeWire.Main
import AttributeWire.Proofs.Base64
import AttributeWire.Proofs.Field
import AttributeWire.Proofs.Attribute
import AttributeWire.Proofs.Table
import AttributeWire.Proofs.Listing
import AttributeWire.Proofs.RoundTrip
import AttributeWire.Proofs.Subsequence
import AttributeWire.Proofs.CommonPrefix
import AttributeWire.Proofs.Segment
import AttributeWire.Proofs.Boundary
import AttributeWire.Proofs.Signal
import AttributeWire.Proofs.Pieces
import AttributeWire.Proofs.Lockstep
import AttributeWire.Proofs.Fragmentation
import AttributeWire.Proofs.Exact
import AttributeWire.Proofs.Sequence
import AttributeWire.Proofs.Continuation
import AttributeWire.Proofs.Blocks
import AttributeWire.Proofs.Reading
import AttributeWire.Proofs.Onward
import AttributeWire.Proofs.Course
import AttributeWire.Proofs.Grammar
import AttributeWire.Proofs.Whole
import AttributeWire.Proofs.Reworded
import AttributeWire.Proofs.Destinations
import AttributeWire.Proofs.Warnings
import AttributeWire.Proofs.AtOnce
import AttributeWire.Proofs.Spelling
import AttributeWire.Proofs.Text
import AttributeWire.Proofs.Record
import AttributeWire.Proofs.Decoding
import AttributeWire.Proofs.Pipeline
import AttributeWire.Proofs.Numeral
import AttributeWire.Proofs.FullSink
import AttributeWire.Proofs.Canonical
import AttributeWire.Proofs.Failure
import AttributeWire.Proofs.Calls
import AttributeWire.Proofs.Retry
import AttributeWire.Proofs.Lifted
import AttributeWire.Proofs.Drafts
import AttributeWire.Proofs.Turns
import AttributeWire.Proofs.Unfinished
import AttributeWire.Proofs.Words
import AttributeWire.Proofs.Settings
import AttributeWire.Proofs.Alphabet
import AttributeWire.Proofs.Peek
import AttributeWire.Proofs.NoTime
import AttributeWire.Proofs.Timeout
import AttributeWire.Proofs.Readings
import AttributeWire.Proofs.Bounds
