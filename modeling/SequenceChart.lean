import SequenceChart.Source.Stream
import SequenceChart.Decimal.Binary64
import SequenceChart.Decimal.Numeral
import SequenceChart.Chart.Audit
import SequenceChart.Geometry.Layout
import SequenceChart.Source.Document
import SequenceChart.Source.Reading
import SequenceChart.Json.Reader
import SequenceChart.Json.Writer
import SequenceChart.Text.Utf8
import SequenceChart.Artifact.Basic
import SequenceChart.Artifact.Text
import SequenceChart.Artifact.Query
import SequenceChart.Pipeline
import SequenceChart.Chart.Record
import SequenceChart.Chart.Schema
import SequenceChart.Text.Base64
import SequenceChart.Text.Basic
import SequenceChart.Text.Lower
import SequenceChart.Yaml.Cursor
import SequenceChart.Yaml.Directive
import SequenceChart.Yaml.Scalar
import SequenceChart.Yaml.Token
import SequenceChart.Yaml.Moment
import SequenceChart.Yaml.Number
import SequenceChart.Yaml.Tag
import SequenceChart.Yaml.Graph
import SequenceChart.Yaml.Value
import SequenceChart.Yaml.Document
import SequenceChart.Settings.File
import SequenceChart.Proofs.Reading.Exact
import SequenceChart.Proofs.Chart.Registered
import SequenceChart.Proofs.Chart.Consistent
import SequenceChart.Proofs.Geometry.Replay
import SequenceChart.Proofs.Geometry.Growth
import SequenceChart.Proofs.Geometry.Simulation
import SequenceChart.Proofs.Scanning.Lines
import SequenceChart.Proofs.Written.Document
import SequenceChart.Proofs.Written.Scanned
import SequenceChart.Proofs.Written.Tokens
import SequenceChart.Proofs.Written.Derived
import SequenceChart.Proofs.Geometry.Finished
import SequenceChart.Proofs.Geometry.History
import SequenceChart.Proofs.Geometry.Timing
import SequenceChart.Proofs.Geometry.Aligned
import SequenceChart.Proofs.Geometry.Nested
import SequenceChart.Proofs.Reading.Completed
import SequenceChart.Proofs.Reading.OnDemand
import SequenceChart.Proofs.Reading.Pulled
import SequenceChart.Proofs.Decimal.Digits
import SequenceChart.Proofs.Decimal.Rounding
import SequenceChart.Proofs.Decimal.Shortest
import SequenceChart.Proofs.Decimal.Numeral
import SequenceChart.Proofs.Decimal.Double
import SequenceChart.Proofs.Json.Number
import SequenceChart.Proofs.Json.Escape
import SequenceChart.Proofs.Json.RoundTrip
import SequenceChart.Proofs.Artifact.RoundTrip
import SequenceChart.Proofs.Chart.Described
import SequenceChart.Proofs.Chart.RoundTrip
import SequenceChart.Proofs.Geometry.Places
import SequenceChart.Proofs.Geometry.Depicted
import SequenceChart.Proofs.Chart.Accounted
import SequenceChart.Proofs.Chart.Rebound
import SequenceChart.Proofs.Text.Utf8
import SequenceChart.Proofs.Decimal.Sign
import SequenceChart.Proofs.Decimal.Integer
import SequenceChart.Proofs.Settings.Answered
import SequenceChart.Proofs.Geometry.Lookups
import SequenceChart.Proofs.Settings.Growing
import SequenceChart.Proofs.Settings.Exact
import SequenceChart.Proofs.Reading.Reported
import SequenceChart.Proofs.Scanning.Spelled
import SequenceChart.Proofs.Reading.Joined
import SequenceChart.Proofs.Written.WellFormed
import SequenceChart.Proofs.Scanning.LifeCycle
import SequenceChart.Proofs.Geometry.Renamed
import SequenceChart.Proofs.Geometry.Continued
import SequenceChart.Proofs.Reading.Respaced
import SequenceChart.Proofs.Json.Legible
import SequenceChart.Proofs.Json.Fuel
import SequenceChart.Proofs.Artifact.Normalized
import SequenceChart.Proofs.Scanning.Tiled
import SequenceChart.Proofs.Scanning.Divided
import SequenceChart.Proofs.Scanning.NoteBlock
import SequenceChart.Proofs.Scanning.Earliest
import SequenceChart.Proofs.Scanning.BlockEnd
import SequenceChart.Proofs.Reading.Viable
import SequenceChart.Proofs.Chart.Ordered
import SequenceChart.Proofs.Chart.Located
import SequenceChart.Proofs.Chart.Faults
import SequenceChart.Proofs.Geometry.Halting
import SequenceChart.Proofs.Geometry.Scaled
import SequenceChart.Proofs.Reading.Ending
import SequenceChart.Proofs.Reading.Terminated
import SequenceChart.Proofs.Scanning.Carried
import SequenceChart.Proofs.Json.Plain
import SequenceChart.Proofs.Artifact.Filed
import SequenceChart.Proofs.Geometry.Stacked
import SequenceChart.Proofs.Reading.Halting
