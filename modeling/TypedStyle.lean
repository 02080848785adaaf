import TypedStyle.Main
import TypedStyle.Proofs.Describes
import TypedStyle.Proofs.Step
import TypedStyle.Proofs.Flattening
import TypedStyle.Proofs.Typed
import TypedStyle.Proofs.Soundness
import TypedStyle.Proofs.Bodies
import TypedStyle.Proofs.Parsing
import TypedStyle.Proofs.Cuts
import TypedStyle.Proofs.Spelling
import TypedStyle.Proofs.Openings
import TypedStyle.Proofs.Seams
import TypedStyle.Proofs.Lexable
import TypedStyle.Proofs.Printing
import TypedStyle.Proofs.Compiling
import TypedStyle.Proofs.FixedPoint
import TypedStyle.Proofs.Widening
import TypedStyle.Proofs.Joining
import TypedStyle.Proofs.Folding
import TypedStyle.Proofs.References
import TypedStyle.Proofs.Shapes
import TypedStyle.Proofs.Gaps
import TypedStyle.Proofs.Tiling
import TypedStyle.Proofs.Layout
import TypedStyle.Proofs.Cascades
import TypedStyle.Proofs.Frames
import TypedStyle.Proofs.Isolation
import TypedStyle.Proofs.Overlay
import TypedStyle.Proofs.Stopping
import TypedStyle.Proofs.Evaluation
import TypedStyle.Proofs.Longest
import TypedStyle.Proofs.Renaming
import TypedStyle.Proofs.Lines
import TypedStyle.Proofs.Places
import TypedStyle.Proofs.Carets
import TypedStyle.Proofs.Runs
import TypedStyle.Proofs.Shifting
import TypedStyle.Proofs.Locations
import TypedStyle.Proofs.Findings
import TypedStyle.Proofs.History
import TypedStyle.Proofs.Rows
import TypedStyle.Proofs.Kinds
import TypedStyle.Proofs.Numbers
import TypedStyle.Proofs.Usage
import TypedStyle.Proofs.Delivery
import TypedStyle.Proofs.Calls
