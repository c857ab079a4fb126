import WirelessHub.Framework.Run
import WirelessHub.Framework.Loop
import WirelessHub.Framework.Transfer
import WirelessHub.Framework.Framing
import WirelessHub.Framework.Offsets
import WirelessHub.Framework.Latch
import WirelessHub.Framework.Buffer
import WirelessHub.Framework.FirstClaim
import WirelessHub.Framework.Ring
import WirelessHub.Framework.Pieces
import WirelessHub.Framework.Search
import WirelessHub.Framework.Durable
import WirelessHub.Framework.Custody
import WirelessHub.Framework.Decimal
import WirelessHub.Protocol.Wire
import WirelessHub.Protocol.Usbip
import WirelessHub.Protocol.DnsMessage
import WirelessHub.Daemon.TcpSocket
import WirelessHub.Daemon.PassthroughHandler
import WirelessHub.Daemon.VhciDriver
import WirelessHub.Daemon.Os
import WirelessHub.Daemon.HubServer
import WirelessHub.Daemon.EventLoop
import WirelessHub.Daemon.Ownership
import WirelessHub.Daemon.Ports
import WirelessHub.Daemon.Sysfs
import WirelessHub.Daemon.WasdMouseTest
import WirelessHub.Daemon.Moves
import WirelessHub.Daemon.Turn
import WirelessHub.Daemon.Runs
import WirelessHub.Daemon.Trace
import WirelessHub.Daemon.SessionIndex
import WirelessHub.Daemon.PortUse
import WirelessHub.Daemon.Watching
import WirelessHub.Daemon.Forwarding
import WirelessHub.Daemon.KernelSide
import WirelessHub.Daemon.Receiving
import WirelessHub.Daemon.Connection
import WirelessHub.Daemon.Frames
import WirelessHub.Daemon.Decoding
import WirelessHub.Daemon.Connecting
import WirelessHub.Daemon.Isolation
import WirelessHub.Daemon.KernelStream
import WirelessHub.Daemon.Announcing
import WirelessHub.Daemon.Batches
import WirelessHub.Daemon.DiscoverReply
import WirelessHub.Daemon.Descriptors
import WirelessHub.Daemon.Shutdown
import WirelessHub.Daemon.Switchboard
import WirelessHub.Daemon.LostPorts
import WirelessHub.Firmware.DeviceSession
import WirelessHub.Firmware.Replies
import WirelessHub.Firmware.Esp
import WirelessHub.Firmware.Wiring
import WirelessHub.Firmware.Reading
import WirelessHub.Firmware.Events
import WirelessHub.Firmware.Reassembly
import WirelessHub.Firmware.ReasmState
import WirelessHub.Firmware.Delivery
import WirelessHub.Firmware.Fragmentation
import WirelessHub.Firmware.UsbDriver
import WirelessHub.Firmware.DriverCalls
import WirelessHub.Firmware.InFrames
import WirelessHub.Firmware.TransferResults
import WirelessHub.Firmware.HubClient
import WirelessHub.Firmware.DaemonAddress
import WirelessHub.Firmware.Discovery
import WirelessHub.Firmware.SessionControl
import WirelessHub.Firmware.SessionTasks
import WirelessHub.Firmware.CrashReporter
import WirelessHub.Firmware.CrashReport
import WirelessHub.Firmware.DnsServer
import WirelessHub.Firmware.DnsLifecycle
import WirelessHub.Firmware.DnsReply
import WirelessHub.Firmware.DnsName
import WirelessHub.Firmware.DnsLoop
import WirelessHub.Firmware.UsbHost
import WirelessHub.Firmware.Endpoints
import WirelessHub.Firmware.Interfaces
import WirelessHub.Firmware.SubmitReplies
import WirelessHub.Firmware.FrameOrigin
import WirelessHub.Firmware.BufferUse
import WirelessHub.Firmware.LogForwarder
import WirelessHub.Firmware.WifiManager
import WirelessHub.Firmware.WifiBits
import WirelessHub.Firmware.Portal
import WirelessHub.Firmware.PortalRoundTrip
import WirelessHub.Firmware.PortalForm
import WirelessHub.Firmware.PortalText
import WirelessHub.Firmware.PortalPage
import WirelessHub.Firmware.Setup
import WirelessHub.Firmware.Credentials
import WirelessHub.System.Discovery
import WirelessHub.System.Finding
import WirelessHub.System.UsbipStream
import WirelessHub.System.DataPath
import WirelessHub.System.Agreement
import WirelessHub.System.LogLines
import WirelessHub.System.CrashPath
import WirelessHub.System.SendFraming
