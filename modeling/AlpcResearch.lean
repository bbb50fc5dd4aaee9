import AlpcResearch.Program.Basic
import AlpcResearch.Program.Runs
import AlpcResearch.Resource.Table
import AlpcResearch.Resource.Contents
import AlpcResearch.Nt
import AlpcResearch.Process.Operations
import AlpcResearch.Process.Memory
import AlpcResearch.Process.Calls
import AlpcResearch.Process.Laws
import AlpcResearch.Ua
import AlpcResearch.Program.Replay
import AlpcResearch.Process.Script
import AlpcResearch.Process.Senders
import AlpcResearch.Process.Serving
import AlpcResearch.Sessions.Ledger
import AlpcResearch.Sessions.Tables
import AlpcResearch.Sessions.Contexts
import AlpcResearch.Sessions.Steps
import AlpcResearch.Sessions.Invariant
import AlpcResearch.Sessions.Disconnects
import AlpcResearch.Ua.Lengths
import AlpcResearch.Ua.Handlers
import AlpcResearch.Ua.Sessions
import AlpcResearch.Ua.Creation
import AlpcResearch.Ua.Service
import AlpcResearch.Ua.Lifecycle
import AlpcResearch.Server
import AlpcResearch.Server.Handlers
import AlpcResearch.Server.Service
import AlpcResearch.Program.Traces
import AlpcResearch.Program.Lockstep
import AlpcResearch.Ka
import AlpcResearch.Ka.Alike
import AlpcResearch.Ka.Copies
import AlpcResearch.Ka.Refinement
import AlpcResearch.Program.Threads
import AlpcResearch.Program.Schedules
import AlpcResearch.Process.Threads
import AlpcResearch.Ua.Capacity
import AlpcResearch.Ua.Shutdown
import AlpcResearch.Server.Sessions
import AlpcResearch.Server.Lifecycle
import AlpcResearch.Process.Buffers
import AlpcResearch.Process.Framing
import AlpcResearch.Ua.Framing
import AlpcResearch.Process.SignedFraming
import AlpcResearch.Runtime
import AlpcResearch.AdvancedServer
import AlpcResearch.AdvancedServer.Bounds
import AlpcResearch.Sessions.Placement
import AlpcResearch.AdvancedServer.Service
import AlpcResearch.AdvancedServer.Datagrams
import AlpcResearch.Resource.Inventory
import AlpcResearch.Process.Inventory
import AlpcResearch.Ka.Ownership
import AlpcResearch.Ua.CopyBack
import AlpcResearch.Ua.Settlement
import AlpcResearch.AdvancedServer.Connection
import AlpcResearch.Server.Residue
import AlpcResearch.Client
import AlpcResearch.Client.Acts
import AlpcResearch.Client.Requests
import AlpcResearch.Client.Results
import AlpcResearch.Program.Parties
import AlpcResearch.Rpc.Service
import AlpcResearch.Rpc.Worker
import AlpcResearch.Rpc.Network
import AlpcResearch.Rpc.Delivery
import AlpcResearch.Rpc.Parties
import AlpcResearch.Rpc.Linearizable
import AlpcResearch.Channel.Network
import AlpcResearch.Channel.Connections
import AlpcResearch.Channel.Agreement
import AlpcResearch.Channel.Returns
import AlpcResearch.Channel.Sessions
import AlpcResearch.Channel.Contexts
import AlpcResearch.Channel.Workers
import AlpcResearch.Channel.Exchange
import AlpcResearch.Ua.Channel
import AlpcResearch.Server.Channel
import AlpcResearch.Channel.Replies
import AlpcResearch.Server.Echo
import AlpcResearch.Channel.Delivery
import AlpcResearch.Server.Reports
import AlpcResearch.Client.Channel
import AlpcResearch.Program.Stutter
import AlpcResearch.Advanced
import AlpcResearch.Advanced.Renaming
import AlpcResearch.Advanced.Copies
import AlpcResearch.Advanced.Refinement
import AlpcResearch.Advanced.Service
import AlpcResearch.Advanced.Applications
import AlpcResearch.Runtime.Creation
import AlpcResearch.Sessions.Rounds
import AlpcResearch.AdvancedServer.Sessions
import AlpcResearch.AdvancedServer.Channel
import AlpcResearch.AdvancedServer.Visits
import AlpcResearch.AdvancedServer.Delivery
import AlpcResearch.AdvancedServer.Lifecycle
import AlpcResearch.AdvancedServer.Balance
