import MiniWeb.Lib.CString
import MiniWeb.Lib.Loop
import MiniWeb.Lib.Chain
import MiniWeb.Lib.RedBlack
import MiniWeb.Lib.TreeSearch
import MiniWeb.Lib.LinkedTree
import MiniWeb.Lib.TreePlace
import MiniWeb.Lib.TreeRepair
import MiniWeb.Lib.TreeSplice
import MiniWeb.UserStore.Shm
import MiniWeb.UserStore.Index
import MiniWeb.UserStore.Store
import MiniWeb.UserStore.IndexView
import MiniWeb.UserStore.InsertFixup
import MiniWeb.UserStore.DeleteFixup
import MiniWeb.UserStore.Guarded
import MiniWeb.UserStore.GuardedFixup
import MiniWeb.UserStore.IndexSpec
import MiniWeb.UserStore.StoreSpec
import MiniWeb.UserStore.Runs
import MiniWeb.UserStore.GuardedRuns
import MiniWeb.UserStore.Agreement
import MiniWeb.UserStore.Processes
import MiniWeb.Lib.Probe
import MiniWeb.SessionStore.Table
import MiniWeb.SessionStore.Termination
import MiniWeb.SessionStore.History
import MiniWeb.SessionStore.Liveness
import MiniWeb.SessionStore.Logout
import MiniWeb.SessionStore.Identity
import MiniWeb.Routing.Table
import MiniWeb.Routing.Lookup
import MiniWeb.Routing.HashSlots
import MiniWeb.Routing.Find
import MiniWeb.Routing.Longest
import MiniWeb.Routing.Listing
import MiniWeb.Routing.Allow
import MiniWeb.RequestHandler.Credentials
import MiniWeb.RequestHandler.Dispatch
import MiniWeb.Lib.Ring
import MiniWeb.Lib.Runs
import MiniWeb.Lib.Slots
import MiniWeb.Lib.Handles
import MiniWeb.Lib.Table
import MiniWeb.ThreadPool.Pool
import MiniWeb.ThreadPool.Schedule
import MiniWeb.ThreadPool.Fifo
import MiniWeb.ThreadPool.Bookkeeping
import MiniWeb.ThreadPool.Growth
import MiniWeb.ThreadPool.Teardown
import MiniWeb.RequestHandler.Workers
import MiniWeb.Lib.Search
import MiniWeb.Lib.CText
import MiniWeb.FrontEnd.Headers
import MiniWeb.Config.Servers
import MiniWeb.FrontEnd.Parse
import MiniWeb.FrontEnd.Body
import MiniWeb.FrontEnd.Modes
import MiniWeb.FrontEnd.HeaderSection
import MiniWeb.FrontEnd.DocumentRoot
import MiniWeb.FrontEnd.Message
import MiniWeb.FrontEnd.SearchForm
import MiniWeb.FrontEnd.Stream
import MiniWeb.Lib.HttpReply
import MiniWeb.FrontEnd.Reply
import MiniWeb.FrontEnd.Framing
import MiniWeb.FrontEnd.FramedReply
import MiniWeb.Config.Settings
import MiniWeb.Config.Nginx
import MiniWeb.Config.Json
import MiniWeb.Config.Yaml
import MiniWeb.Config.Load
import MiniWeb.Config.Document
import MiniWeb.Config.RouteList
import MiniWeb.Lib.JsonText
import MiniWeb.Config.JsonStrings
import MiniWeb.Config.JsonObjects
import MiniWeb.Config.JsonMembers
import MiniWeb.Config.Signs
import MiniWeb.Config.Detection
import MiniWeb.Config.JsonListing
import MiniWeb.Config.Demands
import MiniWeb.Config.JsonPlaces
import MiniWeb.Config.Phrases
import MiniWeb.Config.NginxLines
import MiniWeb.Config.Listen
import MiniWeb.Config.NginxListing
import MiniWeb.Config.YamlLines
import MiniWeb.Config.YamlListing
import MiniWeb.Lib.Cursor
import MiniWeb.Config.YamlCursor
import MiniWeb.Config.Formats
import MiniWeb.Config.Texts
import MiniWeb.Config.NginxPlaces
import MiniWeb.Config.YamlPlaces
import MiniWeb.Lib.DataText
import MiniWeb.Config.Definitions
import MiniWeb.Config.Refusal
import MiniWeb.Config.NoticedListings
import MiniWeb.ProcessServer.Workers
import MiniWeb.ProcessServer.Service
import MiniWeb.MasterWorker.Signals
import MiniWeb.Log.Logger
import MiniWeb.Log.Streams
import MiniWeb.Lib.Rotation
import MiniWeb.Log.Disk
import MiniWeb.Log.Retention
import MiniWeb.Log.Limit
import MiniWeb.EventLoop.Connections
import MiniWeb.EventLoop.Epoll
import MiniWeb.EventLoop.Accounting
import MiniWeb.EventLoop.Select
import MiniWeb.EventLoop.DescriptorSet
import MiniWeb.EventLoop.SetBounds
import MiniWeb.RequestHandler.Overflow
import MiniWeb.RequestHandler.Processors
import MiniWeb.RequestHandler.Responses
import MiniWeb.RequestHandler.SameOutcome
import MiniWeb.FrontEnd.HttpParser
import MiniWeb.FrontEnd.Negotiation
import MiniWeb.FrontEnd.RequestHead
import MiniWeb.FrontEnd.WholeRequest
import MiniWeb.UserStore.Fields
import MiniWeb.UserStore.Census
import MiniWeb.UserStore.Steps
import MiniWeb.UserStore.Frame
import MiniWeb.UserStore.Room
import MiniWeb.Lib.CutOff
import MiniWeb.UserStore.Listing
import MiniWeb.UserStore.CutShort
import MiniWeb.UserStore.NodeFlags
import MiniWeb.UserStore.Complete
import MiniWeb.RequestHandler.AddReport
import MiniWeb.RequestHandler.DeleteForm
import MiniWeb.Config.HostSelection
import MiniWeb.Lib.Buffer
import MiniWeb.RequestHandler.UrlCoding
import MiniWeb.Lib.Base64
import MiniWeb.RequestHandler.Base64Decoder
import MiniWeb.RequestHandler.SessionCookie
import MiniWeb.RequestHandler.CapturedName
import MiniWeb.RequestHandler.Login
import MiniWeb.Lib.Trace
import MiniWeb.RequestHandler.Site
import MiniWeb.RequestHandler.Access
import MiniWeb.RequestHandler.Answered
import MiniWeb.RequestHandler.AuthFile
import MiniWeb.RequestHandler.LoggedIn
import MiniWeb.RequestHandler.ServedFiles
import MiniWeb.Lib.Words
import MiniWeb.ProcessServer.RequestFile
import MiniWeb.ProcessServer.Statistics
import MiniWeb.UserStore.Roster
import MiniWeb.CommandLine.Commands
import MiniWeb.CommandLine.Sessions
import MiniWeb.Lib.Descriptors
import MiniWeb.TcpServers.Listener
import MiniWeb.TcpServers.ForkServer
import MiniWeb.TcpServers.ForkSignals
import MiniWeb.ThreadPool.Refinement
import MiniWeb.ThreadPool.Custody
import MiniWeb.TcpServers.PoolServer
