import SN110.Lib.Run
import SN110.Lib.Pieces
import SN110.Lib.Lines
import SN110.Lib.Writes
import SN110.Daemon.Descriptors
import SN110.Daemon.Retry
import SN110.Daemon.Stream
import SN110.Minilib.Malloc
import SN110.Minilib.Output
import SN110.Minilib.Input
import SN110.Config.Faults
import SN110.Config.Preserve
import SN110.Config.StrandLoad
import SN110.Config.Address
import SN110.Config.AddressText
import SN110.Config.PhysicalLines
import SN110.Sacn.Accept
import SN110.Artnet.Poll
import SN110.Shownet.Truncated
import SN110.Cgi.Flash
import SN110.Cgi.NullAddress
import SN110.Cgi.Injection
import SN110.Cgi.Body
import SN110.Cgi.Resubmit
import SN110.Cgi.Numbers
import SN110.Cgi.MacAddress
import SN110.Cgi.Escape
import SN110.Cgi.Urlencoded
import SN110.Daemon.Freshness
import SN110.Daemon.SlotPlacement
import SN110.Daemon.Levels
import SN110.Daemon.Receivers
import SN110.Daemon.Multicast
import SN110.Tools.LoadsAsLinked
import SN110.Tools.SacnSender
import SN110.Daemon.Bridge
import SN110.Daemon.Merging
import SN110.Oabi.Mutex
import SN110.Cgi.Session
import SN110.Cgi.Script
import SN110.Minilib.Files
import SN110.Minilib.Memmove
import SN110.Minilib.Strings
import SN110.Oabi.Thread
import SN110.Tools.SacnReceiver
import SN110.Config.Buffers
import SN110.Config.LoadInto
import SN110.Config.FormatInto
import SN110.Config.SaveInto
