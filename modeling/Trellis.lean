import Trellis.Reading.Cursor
import Trellis.Reading.Reader
import Trellis.Proofs.Markup.Nesting
import Trellis.Proofs.Walk.Reader
import Trellis.Proofs.Walk.Cursor
import Trellis.Proofs.Walk.Agreement
import Trellis.Proofs.Walk.Document
import Trellis.Proofs.Walk.Consumption
import Trellis.Proofs.Reading.Strictness
import Trellis.Proofs.Graph.Conformance
import Trellis.Proofs.Graph.Sameness
import Trellis.Proofs.Reading.Soundness
import Trellis.Proofs.Writing.RoundTrip
import Trellis.Proofs.Schema.Lineage
import Trellis.Proofs.Schema.Acceptance
import Trellis.Proofs.Reading.Extensions
import Trellis.Proofs.Reading.Failures
import Trellis.Proofs.Reading.Repeats
import Trellis.Proofs.Reading.Reports
import Trellis.Proofs.Markup.Continuations
import Trellis.Proofs.Markup.Edits
import Trellis.Proofs.Markup.Endings
import Trellis.Proofs.Markup.Formats
import Trellis.Proofs.Reading.Foresight
import Trellis.Proofs.Reading.Insertions
import Trellis.Proofs.Markup.Positions
import Trellis.Proofs.Markup.Texts
import Trellis.Proofs.Markup.Splices
import Trellis.Proofs.Markup.Rearrangements
import Trellis.Proofs.Markup.Rows
import Trellis.Proofs.Markup.AttributeRows
import Trellis.Proofs.Markup.TagOrders
import Trellis.Proofs.Reading.ForeignContent
import Trellis.Proofs.Reading.Formatting
import Trellis.Proofs.Reading.Resemblance
import Trellis.Proofs.Reading.Orders
import Trellis.Proofs.Reading.Reorderings
import Trellis.Proofs.Walk.Places
import Trellis.Proofs.Reading.Marks
import Trellis.Proofs.Reading.Placement
import Trellis.Proofs.Markup.Attributes
import Trellis.Proofs.Reading.Origins
import Trellis.Proofs.Reading.Requirements
import Trellis.Proofs.Reading.Retention
import Trellis.Proofs.Reading.Targets
import Trellis.Proofs.Reading.Trackers
import Trellis.Proofs.Reading.Maps
import Trellis.Proofs.Reading.Assembly
import Trellis.Proofs.Reading.Collections
import Trellis.Proofs.Walk.Calls
import Trellis.Proofs.Writing.Trees
import Trellis.Proofs.Walk.WrittenTexts
import Trellis.Proofs.Walk.Blame
import Trellis.Proofs.Reading.Inheritance
import Trellis.Proofs.Number.Integers
import Trellis.Proofs.Reading.Coercions
import Trellis.Proofs.Reading.Members
import Trellis.Proofs.Calendar.Epoch
import Trellis.Proofs.Calendar.Clock
import Trellis.Proofs.Location.Recount
import Trellis.Proofs.Graph.Laws
import Trellis.Proofs.Reading.Booleans
import Trellis.Proofs.Reading.Counters
import Trellis.Proofs.Schema.Singulars
