import FluentSql.Config
import FluentSql.Grammar.Placeholders
import FluentSql.Session.Command
import FluentSql.Session.Script
import FluentSql.Proofs.Slots.Select
import FluentSql.Proofs.Slots.Aligned
import FluentSql.Proofs.Slots.Building
import FluentSql.Proofs.Slots.Fluent
import FluentSql.Proofs.Savepoints.Alive
import FluentSql.Proofs.Savepoints.Refinement
import FluentSql.Proofs.Transactions.Attempts
import FluentSql.Proofs.Transactions.Commits
import FluentSql.Proofs.Transactions.Retrying
import FluentSql.Proofs.Slots.Change
import FluentSql.Proofs.Slots.Replaced
import FluentSql.Proofs.Session.Statements
import FluentSql.Proofs.Programs.Program
import FluentSql.Proofs.Programs.Levels
import FluentSql.Proofs.Programs.Reports
import FluentSql.Proofs.Programs.Pretence
import FluentSql.Proofs.Programs.Restoring
import FluentSql.Proofs.Mistakes.Spotless
import FluentSql.Proofs.Mistakes.Recorded
import FluentSql.Proofs.Mistakes.Refused
import FluentSql.Proofs.Conditions.Narrowing
import FluentSql.Proofs.Conditions.Asked
import FluentSql.Proofs.Conditions.Restricting
import FluentSql.Proofs.Conditions.Spelled
import FluentSql.Proofs.Conditions.Divided
import FluentSql.Proofs.Numbering.Quoted
import FluentSql.Proofs.Numbering.Pieces
import FluentSql.Proofs.Numbering.Written
import FluentSql.Proofs.Numbering.Neat
import FluentSql.Proofs.Numbering.Building
import FluentSql.Proofs.Numbering.Fluent
import FluentSql.Proofs.Numbering.Spelling
import FluentSql.Proofs.Numbering.Compiled
import FluentSql.Proofs.Numbering.Tokens
import FluentSql.Proofs.Numbering.Chosen
import FluentSql.Proofs.Savepoints.Mirroring
import FluentSql.Proofs.Savepoints.Undone
import FluentSql.Proofs.Programs.Marking
import FluentSql.Proofs.Programs.Sticky
import FluentSql.Proofs.Windows.Kept
import FluentSql.Proofs.Windows.Honoured
import FluentSql.Proofs.Transactions.Surfacing
import FluentSql.Proofs.Paging.Following
import FluentSql.Proofs.Paging.Listing
import FluentSql.Proofs.Paging.Walking
import FluentSql.Proofs.Paging.Tiling
import FluentSql.Proofs.Paging.Chunked
import FluentSql.Proofs.Mistakes.Writable
import FluentSql.Proofs.Interleaving.Building
import FluentSql.Proofs.Interleaving.Steps
import FluentSql.Proofs.Interleaving.Written
import FluentSql.Proofs.Derived.Numbered
import FluentSql.Proofs.Derived.Kept
import FluentSql.Proofs.Derived.Select
import FluentSql.Proofs.Derived.Building
import FluentSql.Proofs.Derived.Steps
import FluentSql.Proofs.Derived.Aggregates
import FluentSql.Proofs.Derived.Counts
import FluentSql.Proofs.Derived.Reads
import FluentSql.Proofs.Lexing.Selectors
import FluentSql.Proofs.Lexing.Qualified
import FluentSql.Proofs.Lexing.Introduced
import FluentSql.Proofs.Lexing.Casts
import FluentSql.Proofs.Counting.Counted
import FluentSql.Proofs.Inserts.Tabulated
import FluentSql.Proofs.Integers.Leading
import FluentSql.Proofs.Integers.Keys
import FluentSql.Proofs.Failures.Deciding
