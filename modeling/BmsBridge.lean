import BmsBridge.Jk.Proof.Resync
import BmsBridge.Jk.Proof.Slicing
import BmsBridge.Pylontech.Proof.Master
import BmsBridge.Bridge.Proof.Polls
import BmsBridge.Bridge.Proof.Run
import BmsBridge.Ble.Proof.Disconnect
import BmsBridge.Lib.Delimited
import BmsBridge.Pylontech.Proof.Parser
import BmsBridge.Bridge.Proof.Chunks
import BmsBridge.Bridge.Proof.Bounded
import BmsBridge.Bridge.Proof.CutOff
import BmsBridge.Bridge.Polled
import BmsBridge.Bridge.Proof.CellCount
import BmsBridge.Ble.Coordinator
import BmsBridge.Ble.Proof.Slot
import BmsBridge.Ble.Proof.Discipline
import BmsBridge.Ble.Proof.Sharing
import BmsBridge.Ble.Proof.Discovery
import BmsBridge.Lib.Calendar
import BmsBridge.Lib.OrderBy
import BmsBridge.Lib.Paging
import BmsBridge.Lib.Table
import BmsBridge.History.Database
import BmsBridge.History.Aggregation
import BmsBridge.Http.Server
import BmsBridge.History.Proof.Range
import BmsBridge.Http.Proof.Pages
import BmsBridge.History.Proof.Append
import BmsBridge.History.Proof.Daily
import BmsBridge.History.Proof.Retention
import BmsBridge.History.Proof.Energy
import BmsBridge.Jk.Proof.CellInfo
import BmsBridge.Jk.Proof.Deliveries
import BmsBridge.Bridge.Proof.Relay
import BmsBridge.Ble.EventQueue
import BmsBridge.Ble.Proof.EventQueue
import BmsBridge.Ble.Proof.Transport
import BmsBridge.History.Proof.Rows
import BmsBridge.History.Proof.Store
import BmsBridge.Lib.Paired
import BmsBridge.History.Store
import BmsBridge.Pylontech.Proof.Scaling
import BmsBridge.Bridge.Proof.Saturation
import BmsBridge.Pylontech.Proof.Grammar
import BmsBridge.Pylontech.Proof.Corruption
import BmsBridge.Bridge.Proof.WellFormed
import BmsBridge.Bridge.Proof.Reserve
import BmsBridge.Http.Info
import BmsBridge.Http.Proof.Info
import BmsBridge.Ble.Proof.Fairness
import BmsBridge.Ble.Proof.Timers
import BmsBridge.Lib.Expiry
import BmsBridge.History.Proof.Window
import BmsBridge.Lib.Decimal
import BmsBridge.History.Months
import BmsBridge.Http.Daily
import BmsBridge.History.Proof.Month
import BmsBridge.Http.Proof.Daily
import BmsBridge.Lib.Batch
import BmsBridge.Uart.Dispatcher
import BmsBridge.Uart.Transport
import BmsBridge.Uart.Proof.Descriptors
import BmsBridge.Uart.Proof.Events
import BmsBridge.Uart.Proof.Shutdown
import BmsBridge.Lib.Throttle
import BmsBridge.History.Life
import BmsBridge.History.Proof.Registry
import BmsBridge.History.Proof.Life
import BmsBridge.History.Proof.Recovery
import BmsBridge.Http.Batteries
import BmsBridge.Http.Proof.Batteries
import BmsBridge.Bridge.Driver
import BmsBridge.Bridge.Proof.Recorded
import BmsBridge.Bridge.Proof.Fresh
import BmsBridge.Lib.Cursor
import BmsBridge.Http.Sessions
import BmsBridge.Http.Proof.Sessions
import BmsBridge.Ble.Proof.Progress
import BmsBridge.Lib.Extremes
import BmsBridge.Pylontech.Proof.Stats
import BmsBridge.Bridge.Proof.CellStats
import BmsBridge.Lib.Paths
import BmsBridge.Http.Files
import BmsBridge.Http.Proof.Files
import BmsBridge.Bridge.Proof.Origin
import BmsBridge.Bridge.Proof.Answers
