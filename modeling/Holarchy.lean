import Holarchy.Access
import Holarchy.Call
import Holarchy.Call.Error
import Holarchy.Client
import Holarchy.Client.Config
import Holarchy.Client.Connection
import Holarchy.Client.Error
import Holarchy.Client.Lane
import Holarchy.Client.Report
import Holarchy.Client.Timeline
import Holarchy.Collection
import Holarchy.Dance.Catalog
import Holarchy.Dance.Request
import Holarchy.Dance.Response
import Holarchy.Dance.Status
import Holarchy.Digest.Sha1
import Holarchy.Holon
import Holarchy.Holon.Content
import Holarchy.Holon.Saved
import Holarchy.Holon.Staged
import Holarchy.Holon.Transient
import Holarchy.Ident
import Holarchy.Json.Fault
import Holarchy.Json.Number
import Holarchy.Json.Quotation
import Holarchy.Json.Reader
import Holarchy.Json.Record
import Holarchy.Json.Skip
import Holarchy.Json.Token
import Holarchy.Json.Tree
import Holarchy.Json.Writer
import Holarchy.Pool
import Holarchy.Reconciliation
import Holarchy.Reference
import Holarchy.Reference.Shown
import Holarchy.Refusal
import Holarchy.Remote
import Holarchy.Server
import Holarchy.Server.Content
import Holarchy.Server.Order
import Holarchy.Server.Store
import Holarchy.Session
import Holarchy.Session.Event
import Holarchy.SessionState
import Holarchy.SortedMap
import Holarchy.Text.Binary64
import Holarchy.Text.Digits
import Holarchy.Text.Extending
import Holarchy.Text.Quoted
import Holarchy.Text.Unprinted
import Holarchy.Toml.Document
import Holarchy.Toml.Line
import Holarchy.Toml.Moment
import Holarchy.Toml.Number
import Holarchy.Toml.Quotation
import Holarchy.Toml.Reader
import Holarchy.Uuid
import Holarchy.Value
import Holarchy.Wire.Codec
import Holarchy.Wire.Reader
import Holarchy.Wire.Writer
import Holarchy.Proofs.Call
import Holarchy.Proofs.Client.Acceptance
import Holarchy.Proofs.Client.Agreement
import Holarchy.Proofs.Client.Alone
import Holarchy.Proofs.Client.Cancellation
import Holarchy.Proofs.Client.Chain
import Holarchy.Proofs.Client.EditHistory
import Holarchy.Proofs.Client.Events
import Holarchy.Proofs.Client.Exchange
import Holarchy.Proofs.Client.FullRead
import Holarchy.Proofs.Client.Isolation
import Holarchy.Proofs.Client.Orders
import Holarchy.Proofs.Client.Refusals
import Holarchy.Proofs.Client.Soundness
import Holarchy.Proofs.Client.Staging
import Holarchy.Proofs.Client.Step
import Holarchy.Proofs.Client.Together
import Holarchy.Proofs.Client.Transparency
import Holarchy.Proofs.Collection
import Holarchy.Proofs.Collection.Entries
import Holarchy.Proofs.Dance
import Holarchy.Proofs.Holon.Lifecycle
import Holarchy.Proofs.Holon.Permission
import Holarchy.Proofs.Holon.Refused
import Holarchy.Proofs.Holon.Relations
import Holarchy.Proofs.Holon.Version
import Holarchy.Proofs.Ident
import Holarchy.Proofs.Json.Choice
import Holarchy.Proofs.Json.Document
import Holarchy.Proofs.Json.Listed
import Holarchy.Proofs.Json.Member
import Holarchy.Proofs.Json.Number
import Holarchy.Proofs.Json.Quotation
import Holarchy.Proofs.Json.ReadBack
import Holarchy.Proofs.Json.Record
import Holarchy.Proofs.Json.Rows
import Holarchy.Proofs.Json.Skipping
import Holarchy.Proofs.Pool
import Holarchy.Proofs.Pool.History
import Holarchy.Proofs.Reconciliation
import Holarchy.Proofs.Server
import Holarchy.Proofs.Server.Ages
import Holarchy.Proofs.Server.Changes
import Holarchy.Proofs.Server.Commit
import Holarchy.Proofs.Server.Content
import Holarchy.Proofs.Server.Draws
import Holarchy.Proofs.Server.Effects
import Holarchy.Proofs.Server.Files
import Holarchy.Proofs.Server.Guards
import Holarchy.Proofs.Server.Keys
import Holarchy.Proofs.Server.Loading
import Holarchy.Proofs.Server.Numbering
import Holarchy.Proofs.Server.Orders
import Holarchy.Proofs.Server.Overwriting
import Holarchy.Proofs.Server.Promotion
import Holarchy.Proofs.Server.Reading
import Holarchy.Proofs.Server.Related
import Holarchy.Proofs.Server.Staging
import Holarchy.Proofs.Server.Succession
import Holarchy.Proofs.Server.Transactions
import Holarchy.Proofs.Server.Woven
import Holarchy.Proofs.Session
import Holarchy.Proofs.SessionState
import Holarchy.Proofs.SortedMap
import Holarchy.Proofs.Text.Digits
import Holarchy.Proofs.Uuid
import Holarchy.Proofs.Wire.Delimited
import Holarchy.Proofs.Wire.Documents
import Holarchy.Proofs.Wire.Layout
import Holarchy.Proofs.Wire.RoundTrip
