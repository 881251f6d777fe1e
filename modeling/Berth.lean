import Berth.Interleave.Program
import Berth.Interleave.System
import Berth.Interleave.Discipline
import Berth.Interleave.Machine
import Berth.Interleave.Alone
import Berth.Interleave.Past
import Berth.Interleave.Confined
import Berth.Interleave.FrontEnd
import Berth.Interleave.Answers
import Berth.Data.Table
import Berth.Data.FileTree
import Berth.Data.Serial
import Berth.Data.AsyncFile
import Berth.Uuid
import Berth.Models
import Berth.Database
import Berth.Agent
import Berth.Leftovers
import Berth.Hub
import Berth.Calls
import Berth.Storage
import Berth.Api
import Berth.Steps
import Berth.Changes
import Berth.Ledger
import Berth.Frames
import Berth.Rules
import Berth.Footprints
import Berth.LedgerCalls
import Berth.Startup
import Berth.Agreement
import Berth.Conditions
import Berth.Executors
import Berth.Terminal
import Berth.OneAtATime
import Berth.Territory
import Berth.Isolation
import Berth.Newest
import Berth.Pointer
import Berth.Sweep
import Berth.EnvVars
import Berth.EnvHistory
import Berth.Updates
import Berth.Session.Messages
import Berth.Session.Link
import Berth.Session.Effects
import Berth.Session.Replies
import Berth.Session.OwnSteps
import Berth.Session.Correlation
import Berth.Session.Release
import Berth.Session.Forgotten
import Berth.Session.Progress
import Berth.Session.Dispatch
import Berth.Session.Handlers
import Berth.Session.Teardown
import Berth.Session.Passage
import Berth.Session.Uploads
import Berth.Session.Reassembly
import Berth.Session.Registry
import Berth.Session.Http
import Berth.Session.Proxy
import Berth.Session.Upgrade
import Berth.Session.Cleanup
import Berth.Session.RunLogs
import Berth.Session.Followers
import Berth.HubTls
import Berth.Auth.State
import Berth.Auth.Accounts
import Berth.Auth.Requests
import Berth.Auth.SameOrigin
import Berth.Auth.Tokens
import Berth.Auth.Bearer
import Berth.Auth.Sessions
import Berth.Auth.Lockout
import Berth.Auth.Guessing
import Berth.Auth.Administrators
import Berth.Auth.Hosts
import Berth.HostRouting
import Berth.Data.Cidr
import Berth.GitFetch
import Berth.Fleet
import Berth.Data.Volume
import Berth.Content.ZipExtract
import Berth.Content.Unpacking
import Berth.Session.Reconciliation
import Berth.Session.Recording
import Berth.Session.LogFollow
import Berth.Session.LogPump
import Berth.Session.Backlog
import Berth.Session.LogRegistry
import Berth.Session.CommandOutput
import Berth.Session.Streamed
import Berth.Data.LinkTree
import Berth.Content.Received
import Berth.Content.PublishDir
import Berth.Content.ZipDir
import Berth.Content.Shipment
import Berth.Content.Deletion
import Berth.Scratch
import Berth.Creation
import Berth.Spelling
import Berth.Access
import Berth.Authority
import Berth.Grants
import Berth.Disclosure
import Berth.Interleave.Observer
import Berth.Visits
