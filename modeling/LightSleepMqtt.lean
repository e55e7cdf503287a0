import LightSleepMqtt.Library.CircularBuffer
import LightSleepMqtt.Library.ByteStuffing
import LightSleepMqtt.Library.MqttWire
import LightSleepMqtt.Queue.RingBuf
import LightSleepMqtt.Library.BoundedFifo
import LightSleepMqtt.Queue.RingFifo
import LightSleepMqtt.Queue.Proto
import LightSleepMqtt.Queue.Buffers
import LightSleepMqtt.Queue.Queue
import LightSleepMqtt.Queue.Refused
import LightSleepMqtt.Message.Decoders
import LightSleepMqtt.Message.WellFormed
import LightSleepMqtt.Message.Builders
import LightSleepMqtt.Message.WireFormat
import LightSleepMqtt.Message.Writes
import LightSleepMqtt.Message.RoundTrip
import LightSleepMqtt.Message.RemainingLength
import LightSleepMqtt.Client.State
import LightSleepMqtt.Client.Api
import LightSleepMqtt.Client.Receive
import LightSleepMqtt.Client.Termination
import LightSleepMqtt.Client.Packets
import LightSleepMqtt.Client.Segments
import LightSleepMqtt.Client.Eviction
import LightSleepMqtt.Library.Transition
import LightSleepMqtt.Client.Handlers
import LightSleepMqtt.Client.Machine
import LightSleepMqtt.Client.Order
import LightSleepMqtt.Client.Requests
import LightSleepMqtt.Client.Pump
import LightSleepMqtt.Client.Disconnect
import LightSleepMqtt.Client.Identifiers
import LightSleepMqtt.Client.Keepalive
import LightSleepMqtt.Client.Session
import LightSleepMqtt.Message.Identifier
import LightSleepMqtt.Client.Pending
import LightSleepMqtt.Client.Flight
import LightSleepMqtt.Client.Accounts
import LightSleepMqtt.Client.Network
import LightSleepMqtt.Client.Progress
import LightSleepMqtt.Library.NorFlash
import LightSleepMqtt.Library.CrashStore
import LightSleepMqtt.Config.SysCfg
import LightSleepMqtt.Config.Store
import LightSleepMqtt.Client.Passes
import LightSleepMqtt.Client.Acknowledge
import LightSleepMqtt.Client.Slices
import LightSleepMqtt.Message.Leftover
import LightSleepMqtt.Client.Leftover
import LightSleepMqtt.Library.Substring
import LightSleepMqtt.Library.FormEncoding
import LightSleepMqtt.Library.Binary64
import LightSleepMqtt.Http.Form
import LightSleepMqtt.Http.Decoding
import LightSleepMqtt.Http.Page
import LightSleepMqtt.Http.Numbers
import LightSleepMqtt.Http.Exact
import LightSleepMqtt.Http.Parse
import LightSleepMqtt.Http.Submission
import LightSleepMqtt.Http.Browser
import LightSleepMqtt.Http.Rendering
import LightSleepMqtt.Http.Resubmit
import LightSleepMqtt.Http.Server
import LightSleepMqtt.Http.Reception
import LightSleepMqtt.Http.Split
import LightSleepMqtt.Message.Bounds
import LightSleepMqtt.Client.Address
import LightSleepMqtt.Sleep.Adc
import LightSleepMqtt.Sleep.Wake
import LightSleepMqtt.Library.History
import LightSleepMqtt.Http.Configurator
import LightSleepMqtt.Client.Diagram
import LightSleepMqtt.Library.MqttStream
import LightSleepMqtt.Client.Stream
import LightSleepMqtt.Client.Pacing
import LightSleepMqtt.Client.Delivery
import LightSleepMqtt.Sleep.Cycle
import LightSleepMqtt.User.Main
import LightSleepMqtt.User.Firmware
import LightSleepMqtt.User.Dialling
import LightSleepMqtt.User.Station
import LightSleepMqtt.User.Numbering
import LightSleepMqtt.User.Lives
