import Petbox.Lib.Run
import Petbox.Lib.Fair
import Petbox.Lib.Mem
import Petbox.Lib.PrintBuf
import Petbox.Lib.Framing
import Petbox.Lib.CString
import Petbox.Lib.Decimal
import Petbox.Lib.Layout
import Petbox.Lib.Tracked
import Petbox.Lib.Reader
import Petbox.Lib.Print
import Petbox.Lib.Digits
import Petbox.Lib.Pack
import Petbox.Lib.Loop
import Petbox.Lib.Bitmap
import Petbox.Lib.Access
import Petbox.Lib.Lookup
import Petbox.Lib.Dialogue
import Petbox.Lib.Transcript
import Petbox.Lib.Calendar
import Petbox.Wifi.Ring
import Petbox.Wifi.Parser
import Petbox.Wifi.Frames
import Petbox.Wifi.Report
import Petbox.Wifi.DataPoint
import Petbox.Control.Feeder
import Petbox.Control.Ack
import Petbox.Control.AutoFeed
import Petbox.Control.Routing
import Petbox.Control.Keyboard
import Petbox.Control.Battery
import Petbox.Tracker.Config
import Petbox.Tracker.Nv
import Petbox.Tracker.Util
import Petbox.Tracker.Frame
import Petbox.Tracker.Exec
import Petbox.Tracker.Command
import Petbox.Tracker.Persist
import Petbox.Tracker.Fields
import Petbox.Tracker.Host
import Petbox.Tracker.Password
import Petbox.Tracker.Servers
import Petbox.Tracker.Grammar
import Petbox.Tracker.FrameText
import Petbox.Tracker.WellFormed
import Petbox.Tracker.Printer
import Petbox.Tracker.RoundTrip
import Petbox.Tracker.MinTimer
import Petbox.Tracker.HexReport
import Petbox.Tracker.CmdCollect
import Petbox.Tracker.Alarm
import Petbox.Tracker.AlarmCreate
import Petbox.Tracker.Bounds
import Petbox.Tracker.HostField
import Petbox.Tracker.LssNumbers
import Petbox.Tracker.QuotedString
import Petbox.Tracker.Lookup
import Petbox.Tracker.HeaderCase
import Petbox.Tracker.QueryPrint
import Petbox.Tracker.FrameEffect
import Petbox.Tracker.ReportInterval
import Petbox.Tracker.GpsText
import Petbox.Tracker.Atoi
import Petbox.Tracker.Packing
import Petbox.Tracker.Clock
import Petbox.Modem.Sim7070
import Petbox.Modem.AtClient
import Petbox.Modem.Send
import Petbox.Modem.Domain
import Petbox.Modem.Responses
import Petbox.Lib.Circular
import Petbox.Lib.Linked
import Petbox.Lib.Cut
import Petbox.Modem.RingBuff
import Petbox.Modem.UtilsList
import Petbox.Modem.RecvPkt
import Petbox.Modem.Socket
import Petbox.Modem.ReadLine
import Petbox.Modem.ClientParser
import Petbox.Modem.ParserThread
import Petbox.Modem.Stack
import Petbox.Wifi.Respond
import Petbox.Wifi.Service
import Petbox.Wifi.Bounds
import Petbox.Wifi.Stream
import Petbox.Wifi.Sessions
import Petbox.Wifi.Requests
import Petbox.Lib.Log
import Petbox.Easyflash.Env
import Petbox.Easyflash.Caches
import Petbox.Easyflash.Sectors
import Petbox.Easyflash.Changes
import Petbox.Easyflash.Collect
import Petbox.Easyflash.Room
import Petbox.Easyflash.Store
import Petbox.Easyflash.Runs
import Petbox.Tracker.NvFlash
