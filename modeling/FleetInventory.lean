import FleetInventory.Api.Answer
import FleetInventory.Api.Body
import FleetInventory.Api.Handler
import FleetInventory.Api.QuerySummary
import FleetInventory.Api.Request
import FleetInventory.Api.Route
import FleetInventory.Api.Service
import FleetInventory.Api.Target
import FleetInventory.AttributeFilter
import FleetInventory.CommandLine
import FleetInventory.ComponentGroup.Basic
import FleetInventory.Doctor
import FleetInventory.Document.Basic
import FleetInventory.Document.Number
import FleetInventory.Document.Parser
import FleetInventory.Document.Printer
import FleetInventory.Document.Token
import FleetInventory.Main
import FleetInventory.Number.Binary64
import FleetInventory.Number.Shortest
import FleetInventory.Paging.Envelope
import FleetInventory.Paging.Walk
import FleetInventory.Paging.Window
import FleetInventory.Proofs.Api.Acknowledging
import FleetInventory.Proofs.Api.Committing
import FleetInventory.Proofs.Api.Creating
import FleetInventory.Proofs.Api.Failing
import FleetInventory.Proofs.Api.Handlers
import FleetInventory.Proofs.Api.Linking
import FleetInventory.Proofs.Api.Listing
import FleetInventory.Proofs.Api.Naming
import FleetInventory.Proofs.Api.Pages
import FleetInventory.Proofs.Api.Refusing
import FleetInventory.Proofs.Api.Steps
import FleetInventory.Proofs.Api.Summary
import FleetInventory.Proofs.AttributeFilter.Token
import FleetInventory.Proofs.ComponentGroup.Indexes
import FleetInventory.Proofs.ComponentGroup.RoundTrip
import FleetInventory.Proofs.ComponentGroup.Scanning
import FleetInventory.Proofs.ComponentGroup.WrittenOut
import FleetInventory.Proofs.Document.Keyed
import FleetInventory.Proofs.Document.Same
import FleetInventory.Proofs.Document.Tally
import FleetInventory.Proofs.Paging.Following
import FleetInventory.Proofs.Paging.Link
import FleetInventory.Proofs.Paging.Numbering
import FleetInventory.Proofs.Paging.Progress
import FleetInventory.Proofs.Paging.Reloading
import FleetInventory.Proofs.Paging.Returning
import FleetInventory.Proofs.Paging.Token
import FleetInventory.Proofs.Paging.Totals
import FleetInventory.Proofs.Paging.Walk
import FleetInventory.Proofs.Paging.Window
import FleetInventory.Proofs.Paging.Words
import FleetInventory.Proofs.Query.Agreement
import FleetInventory.Proofs.Query.Reading
import FleetInventory.Proofs.Query.RoundTrip
import FleetInventory.Proofs.Record.Shown
import FleetInventory.Proofs.Search.Agreement
import FleetInventory.Proofs.Search.Building
import FleetInventory.Proofs.Search.Components
import FleetInventory.Proofs.Search.Faultless
import FleetInventory.Proofs.Search.Filtering
import FleetInventory.Proofs.Search.InPlace
import FleetInventory.Proofs.Search.Isolation
import FleetInventory.Proofs.Search.Matching
import FleetInventory.Proofs.Search.Merging
import FleetInventory.Proofs.Search.Names
import FleetInventory.Proofs.Search.Refusals
import FleetInventory.Proofs.Search.Scoping
import FleetInventory.Proofs.Search.Selecting
import FleetInventory.Proofs.Search.Shape
import FleetInventory.Proofs.Search.Unordered
import FleetInventory.Proofs.Sql.Operation
import FleetInventory.Proofs.Sql.Expression
import FleetInventory.Proofs.Sql.Fragment
import FleetInventory.Proofs.Sql.FragmentMeaning
import FleetInventory.Proofs.Sql.Growing
import FleetInventory.Proofs.Sql.Joining
import FleetInventory.Proofs.Sql.Meaning
import FleetInventory.Proofs.Sql.Placeholder
import FleetInventory.Proofs.Sql.Resolving
import FleetInventory.Proofs.Sql.Scope
import FleetInventory.Proofs.Sql.Template
import FleetInventory.Proofs.Store.Answering
import FleetInventory.Proofs.Store.Behaving
import FleetInventory.Proofs.Store.Completing
import FleetInventory.Proofs.Store.Creating
import FleetInventory.Proofs.Store.Fault
import FleetInventory.Proofs.Store.History
import FleetInventory.Proofs.Store.Inserting
import FleetInventory.Proofs.Store.Parallel
import FleetInventory.Proofs.Store.Placing
import FleetInventory.Proofs.Store.Programs
import FleetInventory.Proofs.Store.Running
import FleetInventory.Proofs.Store.Saying
import FleetInventory.Proofs.Store.Sessions
import FleetInventory.Proofs.Store.Stages
import FleetInventory.Proofs.Store.Transaction
import FleetInventory.Proofs.Store.Verb
import FleetInventory.Proofs.Store.Versions
import FleetInventory.Proofs.Text.Base64
import FleetInventory.Proofs.Text.Blank
import FleetInventory.Proofs.Text.Numeral
import FleetInventory.Proofs.Text.Percent
import FleetInventory.Proofs.Text.Split
import FleetInventory.Proofs.Text.Word
import FleetInventory.Query.Params
import FleetInventory.Record.Attribute
import FleetInventory.Record.Firmware
import FleetInventory.Record.Server
import FleetInventory.Search.Attributes
import FleetInventory.Search.Components
import FleetInventory.Search.Criteria
import FleetInventory.Search.Plan
import FleetInventory.Settings
import FleetInventory.Sql.Basic
import FleetInventory.Sql.Fragment
import FleetInventory.Sql.Render
import FleetInventory.Store.Program
import FleetInventory.Store.Records
import FleetInventory.Store.Row
import FleetInventory.Store.Statement
import FleetInventory.Text.Encoding
import FleetInventory.Text.Numeral
import FleetInventory.Text.Split
import FleetInventory.Timestamp
import FleetInventory.Uuid
