import TablePlanner.Calendar.Date
import TablePlanner.Calendar.Layout
import TablePlanner.Cell.ColumnType
import TablePlanner.Cell.Order
import TablePlanner.Digest.Sha256
import TablePlanner.Execution.Grouping
import TablePlanner.Execution.Note
import TablePlanner.Execution.Run
import TablePlanner.Execution.Totals
import TablePlanner.Json.Document
import TablePlanner.Json.Number
import TablePlanner.Json.Shape
import TablePlanner.Json.Value
import TablePlanner.Lineage.Tracker
import TablePlanner.Numeric.Binary64
import TablePlanner.Numeric.Range
import TablePlanner.Numeric.Shortest
import TablePlanner.Order.StableSort
import TablePlanner.Plan.Basic
import TablePlanner.Plan.Diagram
import TablePlanner.Plan.Wire
import TablePlanner.Preview.Format
import TablePlanner.Preview.Thousands
import TablePlanner.Prompt.Detector
import TablePlanner.Prompt.Mention
import TablePlanner.Prompt.Planner
import TablePlanner.Prompt.Validity
import TablePlanner.Prompt.Vocabulary
import TablePlanner.Proofs.Execution.Run
import TablePlanner.Proofs.Json.Literal
import TablePlanner.Proofs.Json.Syntax
import TablePlanner.Proofs.Json.Typed
import TablePlanner.Proofs.Plan.Check
import TablePlanner.Proofs.Plan.RoundTrip
import TablePlanner.Proofs.Prompt.Chain
import TablePlanner.Proofs.Prompt.Detected
import TablePlanner.Proofs.Service.HandOff
import TablePlanner.Proofs.Service.Step
import TablePlanner.Proofs.Service.StoredTables
import TablePlanner.Proofs.Table.Access
import TablePlanner.Proofs.Table.WellFormed
import TablePlanner.Service.Action
import TablePlanner.Service.Address
import TablePlanner.Service.Metrics
import TablePlanner.Service.Reply
import TablePlanner.Service.Request
import TablePlanner.Service.Settings
import TablePlanner.Service.SettingsFile
import TablePlanner.Service.State
import TablePlanner.Table.Basic
import TablePlanner.Table.Catalog
import TablePlanner.Table.Registry
import TablePlanner.Table.Schema
import TablePlanner.Table.Wire
import TablePlanner.Text.Blank
import TablePlanner.Text.CaseData
import TablePlanner.Text.Lowercase
import TablePlanner.Text.Search
import TablePlanner.Proofs.Execution.Notes
import TablePlanner.Proofs.Execution.Trace
import TablePlanner.Proofs.Service.Effect
import TablePlanner.Proofs.Lineage.Graph
import TablePlanner.Proofs.Service.Recorded
import TablePlanner.Proofs.Prompt.Agreement
import TablePlanner.Proofs.Order.Stability
import TablePlanner.Proofs.Numeric.Binary64
import TablePlanner.Proofs.Cell.Place
import TablePlanner.Proofs.Execution.Provenance
import TablePlanner.Proofs.Service.StoredRows
import TablePlanner.Proofs.Execution.Ordering
import TablePlanner.Proofs.Prompt.Results
import TablePlanner.Proofs.Prompt.TopAmount
import TablePlanner.Proofs.Execution.Groups
import TablePlanner.Proofs.Execution.SingleKey
import TablePlanner.Proofs.Execution.Summary
import TablePlanner.Proofs.Prompt.GroupSummary
import TablePlanner.Proofs.Numeric.Shortest
import TablePlanner.Proofs.Json.NumberText
import TablePlanner.Proofs.Cell.Text
import TablePlanner.Proofs.Cell.Equality
import TablePlanner.Proofs.Execution.GroupFilter
import TablePlanner.Proofs.Cell.Ties
import TablePlanner.Proofs.Json.Read
import TablePlanner.Proofs.Service.Retry
import TablePlanner.Proofs.Service.Accounting
import TablePlanner.Proofs.Lineage.Marks
import TablePlanner.Proofs.Service.History
import TablePlanner.Proofs.Text.Trimmed
import TablePlanner.Proofs.Prompt.Understood
import TablePlanner.Proofs.Cell.Preorder
import TablePlanner.Proofs.Cell.Extremes
import TablePlanner.Proofs.Execution.Accepted
import TablePlanner.Proofs.Execution.Classes
import TablePlanner.Proofs.Execution.GroupedRows
import TablePlanner.Proofs.Execution.Failure
import TablePlanner.Proofs.Execution.Sums
import TablePlanner.Proofs.Execution.Sorting
import TablePlanner.Proofs.Execution.Reordering
import TablePlanner.Proofs.Plan.Growth
import TablePlanner.Proofs.Preview.Columns
import TablePlanner.Proofs.Table.Records
import TablePlanner.Proofs.Prompt.Mention
import TablePlanner.Proofs.Prompt.RowCount
import TablePlanner.Proofs.Numeric.Integers
import TablePlanner.Proofs.Preview.Amounts
import TablePlanner.Proofs.Calendar.Written
import TablePlanner.Proofs.Preview.Idempotence
import TablePlanner.Proofs.Prompt.Words
import TablePlanner.Proofs.Prompt.Validity
import TablePlanner.Proofs.Calendar.Layouts
import TablePlanner.Proofs.Cell.ColumnType
import TablePlanner.Proofs.Calendar.Timestamp
import TablePlanner.Proofs.Lineage.Edges
import TablePlanner.Proofs.Lineage.Grid
import TablePlanner.Proofs.Plan.Diagram
import TablePlanner.Proofs.Service.Overrides
import TablePlanner.Proofs.Text.Rows
import TablePlanner.Proofs.Table.Catalog
