import XdmServer.ConnectionLog
import XdmServer.Arbiter
import XdmServer.Recovery
import XdmServer.SingleFlight
import XdmServer.LocalMode
import XdmServer.Readings
import XdmServer.Snapshots
import XdmServer.WireLines
import XdmServer.Sessions
import XdmServer.BadLines
import XdmServer.Clients
import XdmServer.Serialisation
import XdmServer.Recorder
import XdmServer.Poller
import XdmServer.Smoothing
import XdmServer.WholeLines
import XdmServer.LateReplies
import XdmServer.FrontPanel
import XdmServer.RegisterMachine
import XdmServer.Responses
import XdmServer.History
import XdmServer.ReadThrough
import XdmServer.WebApi
import XdmServer.AtMostOnce
import XdmServer.Viewers
import XdmServer.Lifespan
import XdmServer.LockReturns
import XdmServer.EventLoop
import XdmServer.OnePort
import XdmServer.Significant
import XdmServer.Numeral
import XdmServer.Readout
import XdmServer.Timeouts
import XdmServer.Dashboard
import XdmServer.HistoryPage
import XdmServer.LiveView
import XdmServer.Outages
import XdmServer.Runner
import XdmServer.Probe
