import Erase.Library.Bytes
import Erase.Library.Text
import Erase.Library.Base64
import Erase.Library.Decimal
import Erase.Library.Json
import Erase.Library.EcmaScript
import Erase.Shared.Encoding
import Erase.Library.SerdeJson
import Erase.Protocol.HeaderValue
import Erase.Shared.Base64Url
import Erase.Protocol.SharedHeader
import Erase.Server.Error
import Erase.Server.Protocol
import Erase.Protocol.ServerHeader
import Erase.Protocol.Packet
import Erase.Shared.Content
import Erase.Shared.Envelope
import Erase.Shared.Normalize
import Erase.Shared.Canonical
import Erase.Shared.RoundTrip
import Erase.Library.Crypto
import Erase.Shared.Index
import Erase.Protocol.RoundTrip
import Erase.Library.Lists
import Erase.Library.FiniteMap
import Erase.Library.Script
import Erase.Library.Valkey
import Erase.Server.Lua
import Erase.Store.Ledger
import Erase.Store.Release
import Erase.Store.Access
import Erase.Store.Create
import Erase.Store.Challenge
import Erase.Server.Store
import Erase.Store.Transition
import Erase.Store.NoteStep
import Erase.Store.Retrieval
import Erase.Store.Accounting
import Erase.Store.Atomicity
import Erase.Store.Vault
import Erase.Store.Retention
import Erase.Server.Service
import Erase.Store.ProofOfWork
import Erase.Library.Promises
import Erase.Web.Session
import Erase.Web.Api
import Erase.Web.Reader
import Erase.Web.SingleRequest
import Erase.Web.Composer
import Erase.Web.Frame
import Erase.Web.Controller
import Erase.Web.ReaderCleared
import Erase.Web.ComposerCleared
import Erase.Web.Drafts
import Erase.Web.Cleared
import Erase.Web.Hidden
import Erase.Library.Runs
import Erase.Library.TokenBucket
import Erase.Library.Independence
import Erase.Web.Worker
import Erase.Web.WorkerIsolation
import Erase.Cli.Passphrase
import Erase.Client.Passphrase
import Erase.Shared.ShareLink
import Erase.Web.Backend
import Erase.Web.Thread
import Erase.Web.Receiver
import Erase.Web.Serving
import Erase.Web.Coupling
import Erase.Web.Tracking
import Erase.Web.Recovery
import Erase.Web.Retry
import Erase.Protocol.Opening
import Erase.Protocol.Sending
import Erase.Protocol.Authenticity
import Erase.Protocol.Preparation
import Erase.Cli.Receive
import Erase.Web.Growth
import Erase.Web.Provenance
import Erase.Client.Retrieval
import Erase.Shared.Proof
import Erase.Server.Work
import Erase.Protocol.Proof
import Erase.Server.Handlers
import Erase.Store.Secrecy
import Erase.Server.Rate
import Erase.Store.Commutation
import Erase.Store.Reaping
import Erase.Store.ChallengeCap
import Erase.Library.Logged
import Erase.Shared.Errors
import Erase.Shared.Views
import Erase.Protocol.Parsers
import Erase.Client.Transport
import Erase.Library.Permits
import Erase.Server.Replies
import Erase.Server.Traffic
import Erase.Server.Turns
import Erase.Server.Admission
import Erase.Server.Starvation
import Erase.Library.FlatObject
import Erase.Client.Request
import Erase.Client.Validation
import Erase.Server.Json
import Erase.Client.Replies
import Erase.Server.Calls
import Erase.Store.Described
import Erase.Web.Loading
import Erase.Client.Acceptance
import Erase.Web.Inactivity
import Erase.Web.ComposerInactivity
import Erase.Protocol.Base64Url
import Erase.Protocol.Bucketing
import Erase.Cli.WriteContent
import Erase.Cli.ReadFile
import Erase.Web.TextMetrics
import Erase.Server.Slot
import Erase.Web.ReaderInactivity
import Erase.Web.InactivityBound
import Erase.Library.PathTemplate
import Erase.Server.Authorize
import Erase.Server.Isolation
import Erase.Server.StaticFiles
import Erase.Client.Answers
import Erase.Client.Outgoing
import Erase.Cli.Handoff
import Erase.Store.Erasure
import Erase.Server.Authorized
import Erase.Server.Buffers
import Erase.Web.Sender
import Erase.Web.Submission
import Erase.Web.Answering
import Erase.Web.Published
import Erase.Web.Deciphered
import Erase.Web.Handoff
