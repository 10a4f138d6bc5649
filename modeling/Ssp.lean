import Ssp.Config.Crankback
import Ssp.Config.Customers
import Ssp.Config.Document
import Ssp.Config.Fairness
import Ssp.Config.Monitored
import Ssp.Config.Offered
import Ssp.Config.Routing
import Ssp.Controller.Accounts
import Ssp.Controller.AllOrNothing
import Ssp.Controller.AttemptTable
import Ssp.Controller.Attempts
import Ssp.Controller.Attribution
import Ssp.Controller.CallStep
import Ssp.Controller.Calls
import Ssp.Controller.Cdr
import Ssp.Controller.CdrQueue
import Ssp.Controller.ChargeInfo
import Ssp.Controller.Connections
import Ssp.Controller.Counts
import Ssp.Controller.Crankbacks
import Ssp.Controller.Database
import Ssp.Controller.Distribution
import Ssp.Controller.Filing
import Ssp.Controller.Handles
import Ssp.Controller.Headers
import Ssp.Controller.Legs
import Ssp.Controller.Machine
import Ssp.Controller.Outcome
import Ssp.Controller.Pending
import Ssp.Controller.Process
import Ssp.Controller.Reconciliation
import Ssp.Controller.Records
import Ssp.Controller.Refine
import Ssp.Controller.Relay
import Ssp.Controller.Reports
import Ssp.Controller.Requests
import Ssp.Controller.Responses
import Ssp.Controller.SessionTimers
import Ssp.Controller.Sessions
import Ssp.Controller.Setup
import Ssp.Controller.Sip
import Ssp.Controller.Stamps
import Ssp.Controller.Standing
import Ssp.Controller.State
import Ssp.Controller.Statements
import Ssp.Controller.Statistics
import Ssp.Controller.Trail
import Ssp.Controller.Turns
import Ssp.Controller.Typed
import Ssp.Fs.Appservers
import Ssp.Fs.Availability
import Ssp.Fs.Body
import Ssp.Fs.Capacity
import Ssp.Fs.Chunks
import Ssp.Fs.Coalesced
import Ssp.Fs.Conversation
import Ssp.Fs.Health
import Ssp.Fs.Instance
import Ssp.Fs.LeastLoaded
import Ssp.Fs.Lookup
import Ssp.Fs.Loop
import Ssp.Fs.Message
import Ssp.Fs.Monitor
import Ssp.Fs.Reads
import Ssp.Fs.Replies
import Ssp.Fs.RoundRobin
import Ssp.Fs.Selection
import Ssp.Fs.Spoofer
import Ssp.Lib.Bimap
import Ssp.Lib.CString
import Ssp.Lib.Decimal
import Ssp.Lib.Docket
import Ssp.Lib.Expiry
import Ssp.Lib.KeyedSet
import Ssp.Lib.Latch
import Ssp.Lib.Ledger
import Ssp.Lib.Linear
import Ssp.Lib.OrdMap
import Ssp.Lib.Ptree
import Ssp.Lib.Roster
import Ssp.Lib.Rotation
import Ssp.Lib.Run
import Ssp.Lib.Table
import Ssp.Lib.Token
import Ssp.Lib.Trail
import Ssp.Lib.Traverse
import Ssp.Stateless.Affinity
import Ssp.Stateless.Agent
import Ssp.Stateless.Completion
import Ssp.Stateless.Disposal
import Ssp.Stateless.Sweep
