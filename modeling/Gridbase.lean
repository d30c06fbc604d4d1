import Gridbase.Failure.Driver
import Gridbase.Main
import Gridbase.Proofs.Cell.Dates
import Gridbase.Proofs.Command.SharedRows
import Gridbase.Proofs.Dataset.Truncation
import Gridbase.Proofs.Decimal.Cells
import Gridbase.Proofs.Failure.Retrying
import Gridbase.Proofs.Gateway.BulkUpsert
import Gridbase.Proofs.Gateway.Completion
import Gridbase.Proofs.Gateway.Filtering
import Gridbase.Proofs.Gateway.Keywords
import Gridbase.Proofs.Gateway.Logged
import Gridbase.Proofs.Gateway.Sent
import Gridbase.Proofs.Gateway.Upsert
import Gridbase.Proofs.Intake.Generated
import Gridbase.Proofs.Intake.Layout
import Gridbase.Proofs.Intake.Problems
import Gridbase.Proofs.Json.Texts
import Gridbase.Proofs.Moment.Serial
import Gridbase.Proofs.Schema.BuiltTables
import Gridbase.Proofs.Schema.DesignInfo
import Gridbase.Proofs.Schema.FirstFault
import Gridbase.Proofs.Schema.Slicing
import Gridbase.Proofs.Schema.SuccessiveRevisions
import Gridbase.Proofs.Sheet.ColumnLetters
import Gridbase.Proofs.Sheet.Decoration
import Gridbase.Proofs.Statement.CallOrder
import Gridbase.Proofs.Statement.Defaults
import Gridbase.Proofs.Statement.Structure
import Gridbase.Proofs.Store.Timeline
import Gridbase.Sheet.ColumnLetters
import Gridbase.Value.Native
