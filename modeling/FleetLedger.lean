import FleetLedger.Background.Membership
import FleetLedger.Background.Retention
import FleetLedger.Calendar.Date
import FleetLedger.Calendar.Days
import FleetLedger.Calendar.Timestamp
import FleetLedger.Config
import FleetLedger.Coordination.Delivery
import FleetLedger.Coordination.Entries
import FleetLedger.Coordination.Event
import FleetLedger.Coordination.Interface
import FleetLedger.Coordination.Watch
import FleetLedger.Document.Filter
import FleetLedger.Document.Order
import FleetLedger.Document.Stored
import FleetLedger.Document.Update
import FleetLedger.Error
import FleetLedger.Host
import FleetLedger.Json.Basic
import FleetLedger.Json.Decoding
import FleetLedger.Json.Document
import FleetLedger.Json.Equality
import FleetLedger.Json.Parser
import FleetLedger.Json.Printer
import FleetLedger.Json.Written
import FleetLedger.KeySpace
import FleetLedger.Ledger
import FleetLedger.Liveness
import FleetLedger.Model.Execution
import FleetLedger.Model.Group
import FleetLedger.Model.Latest
import FleetLedger.Model.Node
import FleetLedger.Model.Query
import FleetLedger.Model.RecordId
import FleetLedger.Model.Tally
import FleetLedger.Notice
import FleetLedger.Number.Binary64
import FleetLedger.Number.Shortest
import FleetLedger.Pattern.Basic
import FleetLedger.Pattern.CharSet
import FleetLedger.Pattern.Parser
import FleetLedger.Proofs.Additivity
import FleetLedger.Proofs.Agreement
import FleetLedger.Proofs.Alternatives
import FleetLedger.Proofs.Books
import FleetLedger.Proofs.Breakdowns
import FleetLedger.Proofs.Calls
import FleetLedger.Proofs.CaseVariants
import FleetLedger.Proofs.ChangeTexts
import FleetLedger.Proofs.Changes
import FleetLedger.Proofs.CivilCalendar
import FleetLedger.Proofs.Configurations
import FleetLedger.Proofs.Counters
import FleetLedger.Proofs.DateOrder
import FleetLedger.Proofs.DateText
import FleetLedger.Proofs.DayRanges
import FleetLedger.Proofs.Deliveries
import FleetLedger.Proofs.Directory
import FleetLedger.Proofs.Documents
import FleetLedger.Proofs.Enrollment
import FleetLedger.Proofs.Evictions
import FleetLedger.Proofs.Exclusion
import FleetLedger.Proofs.Expiry
import FleetLedger.Proofs.FilterTexts
import FleetLedger.Proofs.GroupListings
import FleetLedger.Proofs.History
import FleetLedger.Proofs.Increments
import FleetLedger.Proofs.Independence
import FleetLedger.Proofs.IndexNames
import FleetLedger.Proofs.IntegerOrder
import FleetLedger.Proofs.Interleavings
import FleetLedger.Proofs.JsonTexts
import FleetLedger.Proofs.KeyDeeds
import FleetLedger.Proofs.Keywords
import FleetLedger.Proofs.LatestByJob
import FleetLedger.Proofs.Lexing
import FleetLedger.Proofs.Memberships
import FleetLedger.Proofs.NodeRows
import FleetLedger.Proofs.Numerals
import FleetLedger.Proofs.Operations
import FleetLedger.Proofs.Pages
import FleetLedger.Proofs.Postings
import FleetLedger.Proofs.PrefixScans
import FleetLedger.Proofs.Presence
import FleetLedger.Proofs.Projection
import FleetLedger.Proofs.Punctuality
import FleetLedger.Proofs.Queries
import FleetLedger.Proofs.Reading
import FleetLedger.Proofs.Readings
import FleetLedger.Proofs.Relays
import FleetLedger.Proofs.Removals
import FleetLedger.Proofs.Replays
import FleetLedger.Proofs.RoundTrips
import FleetLedger.Proofs.Rounding
import FleetLedger.Proofs.Rows
import FleetLedger.Proofs.Runs
import FleetLedger.Proofs.Scans
import FleetLedger.Proofs.Scoping
import FleetLedger.Proofs.SearchTexts
import FleetLedger.Proofs.Searches
import FleetLedger.Proofs.Selections
import FleetLedger.Proofs.Sorting
import FleetLedger.Proofs.Statements
import FleetLedger.Proofs.Sweepers
import FleetLedger.Proofs.Tables
import FleetLedger.Proofs.Timeline
import FleetLedger.Proofs.Trimming
import FleetLedger.Proofs.Upserts
import FleetLedger.Proofs.Watches
import FleetLedger.Proofs.Windows
import FleetLedger.Proofs.Words
import FleetLedger.Registry
import FleetLedger.Rehearsal.Basic
import FleetLedger.Rehearsal.Clock
import FleetLedger.Rehearsal.Keys
import FleetLedger.Rehearsal.Services
import FleetLedger.Roster
import FleetLedger.Scope
import FleetLedger.Sql.Change
import FleetLedger.Sql.Commands
import FleetLedger.Sql.Connection
import FleetLedger.Sql.Documents
import FleetLedger.Sql.Evaluation
import FleetLedger.Sql.Expression
import FleetLedger.Sql.Indexes
import FleetLedger.Sql.Keys
import FleetLedger.Sql.Predicate
import FleetLedger.Sql.Script
import FleetLedger.Sql.Search
import FleetLedger.Sql.Statement
import FleetLedger.Sql.Token
import FleetLedger.Sql.Wire
import FleetLedger.Store.Interface
import FleetLedger.Store.Memory
import FleetLedger.Table
import FleetLedger.Text.Blank
import FleetLedger.Text.CaseFold
import FleetLedger.Text.DecimalDigit
import FleetLedger.Text.Ipv4
import FleetLedger.Text.Numeral
import FleetLedger.Text.Quoted
import FleetLedger.Text.Unassigned
import FleetLedger.Text.Visible
import FleetLedger.Text.WordCharacter
