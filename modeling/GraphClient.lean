import GraphClient.Client.Basic
import GraphClient.Logging.Manager
import GraphClient.Middleware.Script
import GraphClient.Settings.Source
import GraphClient.Proofs.Client.Alone
import GraphClient.Proofs.Client.Calls
import GraphClient.Proofs.Client.Counting
import GraphClient.Proofs.Client.HeaderNames
import GraphClient.Proofs.Client.Isolation
import GraphClient.Proofs.Client.OpenSessions
import GraphClient.Proofs.Client.OwnRequests
import GraphClient.Proofs.Client.PostedHeaders
import GraphClient.Proofs.Client.Posting
import GraphClient.Proofs.Client.Registration
import GraphClient.Proofs.Client.Reshaping
import GraphClient.Proofs.Client.Responses
import GraphClient.Proofs.Client.Session
import GraphClient.Proofs.Client.Snapshot
import GraphClient.Proofs.Client.Solo
import GraphClient.Proofs.Client.Statuses
import GraphClient.Proofs.Client.Verdict
import GraphClient.Proofs.Client.Waits
import GraphClient.Proofs.Client.World
import GraphClient.Proofs.Flow.Cascade
import GraphClient.Proofs.Flow.Cut
import GraphClient.Proofs.Flow.Deadline
import GraphClient.Proofs.Flow.Interleaving
import GraphClient.Proofs.Flow.Invariant
import GraphClient.Proofs.Flow.Line
import GraphClient.Proofs.Flow.Notes
import GraphClient.Proofs.Flow.Operations
import GraphClient.Proofs.Flow.Residual
import GraphClient.Proofs.Flow.Steps
import GraphClient.Proofs.Flow.Timed
import GraphClient.Proofs.Flow.Unwinding
import GraphClient.Proofs.Json.Lines
import GraphClient.Proofs.Json.Payload
import GraphClient.Proofs.Json.RoundTrip
import GraphClient.Proofs.Json.Tokens
import GraphClient.Proofs.Logging.Attributes
import GraphClient.Proofs.Logging.Delivery
import GraphClient.Proofs.Logging.Emission
import GraphClient.Proofs.Logging.Fields
import GraphClient.Proofs.Logging.Levels
import GraphClient.Proofs.Logging.Ownership
import GraphClient.Proofs.Logging.Reconfiguration
import GraphClient.Proofs.Logging.Setup
import GraphClient.Proofs.Masking.Addresses
import GraphClient.Proofs.Masking.Again
import GraphClient.Proofs.Masking.Bearer
import GraphClient.Proofs.Masking.Header
import GraphClient.Proofs.Masking.Hiding
import GraphClient.Proofs.Masking.Leftover
import GraphClient.Proofs.Masking.Openings
import GraphClient.Proofs.Masking.Passages
import GraphClient.Proofs.Masking.Passwords
import GraphClient.Proofs.Masking.Records
import GraphClient.Proofs.Masking.Untouched
import GraphClient.Proofs.Masking.Words
import GraphClient.Proofs.Middleware.Composition
import GraphClient.Proofs.Middleware.Deadlines
import GraphClient.Proofs.Middleware.Edits
import GraphClient.Proofs.Middleware.Nesting
import GraphClient.Proofs.Middleware.Raising
import GraphClient.Proofs.Middleware.Retrying
import GraphClient.Proofs.Middleware.Spans
import GraphClient.Proofs.Middleware.Stays
import GraphClient.Proofs.Numerals
import GraphClient.Proofs.Rounding
import GraphClient.Proofs.Selection.Builders
import GraphClient.Proofs.Selection.Context
import GraphClient.Proofs.Selection.Decoding
import GraphClient.Proofs.Selection.Literals
import GraphClient.Proofs.Selection.Parts
import GraphClient.Proofs.Selection.Rendering
import GraphClient.Proofs.Selection.Visits
import GraphClient.Proofs.Settings.Assignment
import GraphClient.Proofs.Settings.Checking
import GraphClient.Proofs.Settings.Documents
import GraphClient.Proofs.Settings.Limits
import GraphClient.Proofs.Settings.Merge
import GraphClient.Proofs.Settings.Reading
import GraphClient.Proofs.Settings.Soundness
import GraphClient.Proofs.Settings.Sources
import GraphClient.Proofs.Text
import GraphClient.Proofs.Value.Keys
