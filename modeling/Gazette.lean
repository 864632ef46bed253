import Gazette.Api.Action
import Gazette.Api.Answer
import Gazette.Api.Discussion
import Gazette.Api.Error
import Gazette.Api.Exchange
import Gazette.Api.Input
import Gazette.Api.Membership
import Gazette.Api.Publishing
import Gazette.Api.Reading
import Gazette.Api.Resource
import Gazette.CommandLine.Basic
import Gazette.CommandLine.Error
import Gazette.CommandLine.Grammar
import Gazette.CommandLine.Reader
import Gazette.CommandLine.Value
import Gazette.Configuration
import Gazette.Content.Document
import Gazette.Content.Error
import Gazette.Content.Filter
import Gazette.Content.Model
import Gazette.Content.Rules
import Gazette.Content.Slug
import Gazette.Content.Status
import Gazette.Editor
import Gazette.Files.Disk
import Gazette.Files.Error
import Gazette.Files.Path
import Gazette.Http.Address
import Gazette.Http.MediaType
import Gazette.Http.Request
import Gazette.Http.Response
import Gazette.Json.Reader
import Gazette.Json.Record
import Gazette.Json.Token
import Gazette.Json.Value
import Gazette.Json.Writer
import Gazette.Libraries
import Gazette.Main
import Gazette.Page.Home
import Gazette.Page.Markup
import Gazette.Program.DatabasePath
import Gazette.Program.Failure
import Gazette.Program.Places
import Gazette.Program.Run
import Gazette.Proofs.Access
import Gazette.Proofs.Addresses
import Gazette.Proofs.Answer
import Gazette.Proofs.Arguments
import Gazette.Proofs.Atomicity
import Gazette.Proofs.Authority
import Gazette.Proofs.Calendar
import Gazette.Proofs.Call
import Gazette.Proofs.Cascade
import Gazette.Proofs.Change
import Gazette.Proofs.Containment
import Gazette.Proofs.Counters
import Gazette.Proofs.Delete
import Gazette.Proofs.Derivation
import Gazette.Proofs.Digits
import Gazette.Proofs.Discretion
import Gazette.Proofs.Discussion
import Gazette.Proofs.Disk
import Gazette.Proofs.Editor
import Gazette.Proofs.Effects
import Gazette.Proofs.Escaping
import Gazette.Proofs.Generation
import Gazette.Proofs.Growth
import Gazette.Proofs.Happenings
import Gazette.Proofs.Hidden
import Gazette.Proofs.Instant
import Gazette.Proofs.InstantText
import Gazette.Proofs.Integrity
import Gazette.Proofs.Interleaving
import Gazette.Proofs.Interruption
import Gazette.Proofs.Issuing
import Gazette.Proofs.Join
import Gazette.Proofs.Keywords
import Gazette.Proofs.Limits
import Gazette.Proofs.Listing
import Gazette.Proofs.Maintenance
import Gazette.Proofs.Membership
import Gazette.Proofs.Moderation
import Gazette.Proofs.Output
import Gazette.Proofs.Overlap
import Gazette.Proofs.Paths
import Gazette.Proofs.Placeholders
import Gazette.Proofs.Plans
import Gazette.Proofs.Procedure
import Gazette.Proofs.Program
import Gazette.Proofs.Project
import Gazette.Proofs.Publication
import Gazette.Proofs.Puts
import Gazette.Proofs.Quoting
import Gazette.Proofs.Readback
import Gazette.Proofs.Records
import Gazette.Proofs.Refusals
import Gazette.Proofs.Registration
import Gazette.Proofs.Relevance
import Gazette.Proofs.Rendering
import Gazette.Proofs.Request
import Gazette.Proofs.Resaving
import Gazette.Proofs.Rows
import Gazette.Proofs.Rules
import Gazette.Proofs.Save
import Gazette.Proofs.Scaffolding
import Gazette.Proofs.Selection
import Gazette.Proofs.Serial
import Gazette.Proofs.Sessions
import Gazette.Proofs.Shown
import Gazette.Proofs.Slugs
import Gazette.Proofs.Sparing
import Gazette.Proofs.Spelling
import Gazette.Proofs.Steady
import Gazette.Proofs.Table
import Gazette.Proofs.Tally
import Gazette.Proofs.Threads
import Gazette.Proofs.Turns
import Gazette.Proofs.Unfailing
import Gazette.Proofs.Updates
import Gazette.Proofs.UserCommand
import Gazette.Proofs.Views
import Gazette.Proofs.Walks
import Gazette.Proofs.Writing
import Gazette.Proofs.WrittenFiles
import Gazette.Scaffold.Error
import Gazette.Scaffold.Generate
import Gazette.Scaffold.Output
import Gazette.Scaffold.Params
import Gazette.Scaffold.Placeholder
import Gazette.Scaffold.Render
import Gazette.Scaffold.Template
import Gazette.Store.Basic
import Gazette.Store.Counter
import Gazette.Store.Delete
import Gazette.Store.Error
import Gazette.Store.Find
import Gazette.Store.Listing
import Gazette.Store.Procedure
import Gazette.Store.Query
import Gazette.Store.Record
import Gazette.Store.Save
import Gazette.Store.Schema
import Gazette.Store.Script
import Gazette.Store.Sessions
import Gazette.Store.Table
import Gazette.Text.Blank
import Gazette.Text.Decimal
import Gazette.Text.Percent
import Gazette.Text.Printable
import Gazette.Text.Quoted
import Gazette.Text.Radix
import Gazette.Text.Split
import Gazette.Text.Terminal
import Gazette.Text.Utf8
import Gazette.Time.Calendar
import Gazette.Time.Timestamp
import Gazette.Toml.Document
import Gazette.Toml.Scalar
import Gazette.Toml.Table
