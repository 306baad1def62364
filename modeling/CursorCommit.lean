import CursorCommit.Commit
import CursorCommit.Cursor.Json
import CursorCommit.Program.Script
import CursorCommit.Read
import CursorCommit.Settings
import CursorCommit.Text.Utf8.RoundTrip
import CursorCommit.Proofs.Program.History
import CursorCommit.Proofs.Cursor.Partition
import CursorCommit.Proofs.Key
import CursorCommit.Proofs.Offset.Order
import CursorCommit.Proofs.Commit.Reading
import CursorCommit.Proofs.Commit.Planning
import CursorCommit.Proofs.Commit.Writing
import CursorCommit.Proofs.Batch
import CursorCommit.Proofs.Commit.Accounts
import CursorCommit.Proofs.Cursor.Placing
import CursorCommit.Proofs.Commit.Preparing
import CursorCommit.Proofs.Store.Writes
import CursorCommit.Proofs.Commit.Undisturbed
import CursorCommit.Proofs.Commit.Refinement
import CursorCommit.Proofs.Commit.Gate
import CursorCommit.Proofs.Store.Advance
import CursorCommit.Proofs.Commit.Progress
import CursorCommit.Proofs.Commit.Retry
import CursorCommit.Proofs.Offset.Maximum
import CursorCommit.Proofs.Commit.Effect
import CursorCommit.Proofs.Commit.Confluence
import CursorCommit.Proofs.Commit.Acceptance
import CursorCommit.Proofs.Commit.Splitting
import CursorCommit.Proofs.Commit.Noninterference
import CursorCommit.Proofs.Key.Levels
import CursorCommit.Proofs.Commit.Footprint
import CursorCommit.Proofs.Store.Scan
import CursorCommit.Proofs.Offset.Listing
import CursorCommit.Proofs.Read.AtRest
import CursorCommit.Proofs.Read.Exactness
import CursorCommit.Proofs.Read.Commits
import CursorCommit.Proofs.Offset.Freshness
import CursorCommit.Proofs.Offset.Padding
import CursorCommit.Proofs.Read.Return
import CursorCommit.Proofs.Read.Sorted
import CursorCommit.Proofs.Store.Revisions
import CursorCommit.Proofs.Store.Versions
import CursorCommit.Proofs.Commit.Rounds
import CursorCommit.Proofs.Commit.Budget
import CursorCommit.Proofs.Offset.Laws
import CursorCommit.Proofs.Offset.RunningMaxima
import CursorCommit.Proofs.Commit.Blame
import CursorCommit.Proofs.Commit.Losses
import CursorCommit.Proofs.Commit.Failures
import CursorCommit.Proofs.Assignment
import CursorCommit.Proofs.Ownership
import CursorCommit.Proofs.Key.Scheme
import CursorCommit.Proofs.Store.Removal
import CursorCommit.Proofs.Offset.FixedWidth
import CursorCommit.Proofs.Cursor.Lookups
import CursorCommit.Proofs.Commit.Counts
import CursorCommit.Proofs.Batch.Splits
