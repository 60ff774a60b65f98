import Folio.Main
import Folio.Gateway.Basic
import Folio.Gateway.Startup
import Folio.Proofs.Attempt
import Folio.Proofs.Store.Entries
import Folio.Proofs.Collection.Keys
import Folio.Proofs.Collection.Session
import Folio.Proofs.Collection.Catalogue
import Folio.Proofs.Filter.Keep
import Folio.Proofs.Collection.Stored
import Folio.Proofs.Store.Write
import Folio.Proofs.Store.Rows
import Folio.Proofs.Store.Reached
import Folio.Proofs.Collection.Seen
import Folio.Proofs.Collection.Refinement
import Folio.Proofs.Decimal.Digits
import Folio.Proofs.Digest.Stamp
import Folio.Proofs.Store.Discipline
import Folio.Proofs.Selection.Names
import Folio.Proofs.Selection.Grammar
import Folio.Proofs.Selection.Derivations
import Folio.Proofs.Selection.Reading
import Folio.Proofs.Selection.Recognition
import Folio.Proofs.Selection.Built
import Folio.Proofs.Selection.Lexing
import Folio.Proofs.Selection.RoundTrip
import Folio.Proofs.Selection.Refusals
import Folio.Proofs.Json.Strings
import Folio.Proofs.Json.Numerals
import Folio.Proofs.Json.Numbers
import Folio.Proofs.Json.Reread
import Folio.Proofs.Json.Legible
import Folio.Proofs.Journal.Line
import Folio.Proofs.Json.Accepted
import Folio.Proofs.Files.Directory
import Folio.Proofs.Journal.Segments
import Folio.Proofs.Durable.Recovery
import Folio.Proofs.Durable.Reopening
import Folio.Proofs.Durable.Refusals
import Folio.Proofs.Text.Lines
import Folio.Proofs.Json.Balance
import Folio.Proofs.Journal.Torn
import Folio.Proofs.Journal.Appending
import Folio.Proofs.Text.Pieces
import Folio.Proofs.Text.Percent
import Folio.Proofs.Gateway.Addresses
import Folio.Proofs.Collection.Serving
import Folio.Proofs.Collection.Saving
import Folio.Proofs.Gateway.Reading
import Folio.Proofs.Gateway.Requests
import Folio.Proofs.Gateway.Urls
import Folio.Proofs.Store.Reading
import Folio.Proofs.Collection.Forms
import Folio.Proofs.Collection.Runs
import Folio.Proofs.Collection.Isolation
import Folio.Proofs.Json.Equality
import Folio.Proofs.Selection.Projection
import Folio.Proofs.Selection.Equality
import Folio.Proofs.Collection.Kept
import Folio.Proofs.Collection.Rebinding
import Folio.Proofs.Collection.Resaving
import Folio.Proofs.Selection.JsonForm
import Folio.Proofs.Store.Proper
import Folio.Proofs.Collection.Updates
import Folio.Proofs.Collection.Faults
import Folio.Proofs.Collection.Privacy
import Folio.Proofs.Collection.Design
import Folio.Proofs.Filter.Matching
import Folio.Proofs.Store.Commuting
import Folio.Proofs.Gateway.Accounting
import Folio.Proofs.Command.Dump
import Folio.Proofs.Selection.Paths
import Folio.Proofs.Filter.Projected
import Folio.Proofs.Filter.Parameters
import Folio.Proofs.Command.Conditions
import Folio.Proofs.Query.JsonForm
import Folio.Proofs.Text.Slug
import Folio.Proofs.Selection.Levels
import Folio.Proofs.Store.Views
