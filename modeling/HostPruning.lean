import HostPruning.Facts.Filter.Decode
import HostPruning.Inventory
import HostPruning.Main
import HostPruning.Rehearsal.Performance
import HostPruning.Proofs.Collections
import HostPruning.Proofs.Matching
import HostPruning.Proofs.Criteria
import HostPruning.Proofs.Outranking
import HostPruning.Proofs.Verdicts
import HostPruning.Proofs.Custody
import HostPruning.Proofs.Pages
import HostPruning.Proofs.Scanning
import HostPruning.Proofs.Conduct
import HostPruning.Proofs.Passes
import HostPruning.Proofs.Runs
import HostPruning.Proofs.Survival
import HostPruning.Proofs.Justification
import HostPruning.Proofs.Evidence
import HostPruning.Proofs.Settling
import HostPruning.Proofs.Grouping
import HostPruning.Proofs.Knowledge
import HostPruning.Proofs.Reading
import HostPruning.Proofs.Loading
import HostPruning.Proofs.Compiling
import HostPruning.Proofs.Selection
import HostPruning.Proofs.Steps
import HostPruning.Proofs.Performing
import HostPruning.Proofs.Memory
import HostPruning.Proofs.Recording
import HostPruning.Proofs.PageSizes
import HostPruning.Proofs.Forecast
import HostPruning.Proofs.Isolation
import HostPruning.Proofs.Accounts
import HostPruning.Proofs.Lockstep
import HostPruning.Proofs.Tracing
import HostPruning.Proofs.Halting
import HostPruning.Proofs.Flushing
import HostPruning.Proofs.Attendance
import HostPruning.Proofs.Refusals
import HostPruning.Proofs.Cancellation
import HostPruning.Proofs.Kinship
import HostPruning.Proofs.Discretion
import HostPruning.Proofs.Restarting
import HostPruning.Proofs.Condensing
import HostPruning.Proofs.Pairing
import HostPruning.Proofs.Identifiers
import HostPruning.Proofs.Numerals
import HostPruning.Proofs.Floats
import HostPruning.Proofs.Printing
import HostPruning.Proofs.Timestamps
import HostPruning.Proofs.Rows
import HostPruning.Proofs.Encoding
import HostPruning.Proofs.Lines
import HostPruning.Proofs.Framing
import HostPruning.Proofs.Publishing
import HostPruning.Proofs.Policies
import HostPruning.Proofs.Preparing
import HostPruning.Proofs.Representation
import HostPruning.Proofs.Records
import HostPruning.Proofs.Conformance
import HostPruning.Proofs.Migrating
import HostPruning.Proofs.Importing
import HostPruning.Proofs.Furnishing
import HostPruning.Proofs.Exporting
import HostPruning.Proofs.Refinement
import HostPruning.Proofs.Issuing
import HostPruning.Proofs.Windows
import HostPruning.Proofs.Wording
import HostPruning.Proofs.Malformed
import HostPruning.Proofs.Coverage
import HostPruning.Proofs.Summaries
import HostPruning.Proofs.Paging
import HostPruning.Proofs.Origins
import HostPruning.Proofs.Validity
import HostPruning.Proofs.Rejections
import HostPruning.Proofs.Keyset
