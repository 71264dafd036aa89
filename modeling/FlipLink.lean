import FlipLink.Cli.Invoke
import FlipLink.Proto.Normal
import FlipLink.Daemon.Allocation
import FlipLink.Client.Signal
import FlipLink.Daemon.Cleanup
import FlipLink.Firmware.Device
import FlipLink.Proto.ValueCodec
import FlipLink.Link.Bridge
import FlipLink.Link.Transmit
import FlipLink.Firmware.Handback
import FlipLink.Link.Deadlines
import FlipLink.Firmware.Streams
import FlipLink.Daemon.Relay
import FlipLink.Daemon.Delivery
import FlipLink.Daemon.Connection
import FlipLink.Proto.Bursts
import FlipLink.Core.Progress
import FlipLink.Firmware.Playback
import FlipLink.Firmware.Params
import FlipLink.Firmware.Replies
import FlipLink.Firmware.RxStream
import FlipLink.Daemon.Caps
import FlipLink.Daemon.Idle
import FlipLink.Core.Unknown
import FlipLink.Proto.Effort
import FlipLink.Link.Probe
import FlipLink.Client.ProbeHex
import FlipLink.Client.Capture
import FlipLink.Daemon.Handover
import FlipLink.Proto.CrcRemainder
import FlipLink.Daemon.Routing
import FlipLink.Core.StaleReplies
import FlipLink.Daemon.Downlink
import FlipLink.Link.RoundTrip
import FlipLink.Firmware.TxCredit
import FlipLink.Link.Replay
import FlipLink.Firmware.IdleExit
import FlipLink.Firmware.Advertised
import FlipLink.Link.Loopback
import FlipLink.Firmware.Lifetime
import FlipLink.Core.Serial
